import LabelPress.NameMap
import Mathlib.Data.List.Nodup

/-!
# Laws of maps from names

A look-up sees what was last put under its name. Two maps that show the same entries are equal
(`ofList_toList` for a map that is read back from its list).
-/

namespace LabelPress.NameMap

variable {α : Type} {m : NameMap α} {es : List (String × α)} {name other : String} {a : α}

theorem find?_cons (e : String × α) (es : List (String × α)) (name : String) :
    find? name (e :: es) = if e.1 = name then some e.2 else find? name es := by
  rw [find?, List.find?_cons]
  by_cases h : e.1 = name
  · simp [h]
  · rw [beq_eq_false_iff_ne.mpr h, if_neg h, find?]

theorem find?_put (name : String) (a : α) (es : List (String × α)) (other : String) :
    find? other (put name a es) = if other = name then some a else find? other es := by
  induction es with
  | nil => simp only [put, find?_cons, eq_comm]
  | cons e es ih =>
    rw [put]
    by_cases hlt : name < e.1
    · rw [if_pos hlt, find?_cons]
      simp only [eq_comm]
    rw [if_neg hlt]
    by_cases heq : name = e.1
    · -- The entry that gives way had the same name.
      rw [if_pos heq, find?_cons, find?_cons, ← heq]
      by_cases hother : name = other
      · rw [if_pos hother, if_pos hother.symm]
      · rw [if_neg hother, if_neg (Ne.symm hother), if_neg hother]
    · rw [if_neg heq, find?_cons, find?_cons, ih]
      by_cases hother : e.1 = other
      · rw [if_pos hother, if_pos hother, if_neg fun h => heq (h.symm.trans hother.symm)]
      · rw [if_neg hother, if_neg hother]

theorem get?_insert (m : NameMap α) (name : String) (a : α) (other : String) :
    (m.insert name a).get? other = if other = name then some a else m.get? other :=
  find?_put name a m.toList other

theorem get?_erase (m : NameMap α) (name other : String) :
    (m.erase name).get? other = if other = name then none else m.get? other := by
  obtain ⟨es, hes⟩ := m
  change find? other (es.filter (·.1 != name)) = if other = name then none else find? other es
  clear hes
  induction es with
  | nil => simp [find?]
  | cons e es ih =>
    by_cases he : e.1 = name
    · rw [List.filter_cons_of_neg (by simpa using he), ih, find?_cons]
      by_cases hother : other = name
      · rw [if_pos hother, if_pos hother]
      · rw [if_neg hother, if_neg hother, if_neg fun h => hother (h.symm.trans he)]
    · rw [List.filter_cons_of_pos (by simpa using he), find?_cons, find?_cons, ih]
      by_cases hother : other = name
      · rw [if_pos hother, if_pos hother, if_neg fun h => he (h.trans hother)]
      · rw [if_neg hother, if_neg hother]

theorem put_put (name : String) (a b : α) (es : List (String × α)) : put name b (put name a es) = put name b es := by
  induction es with
  | nil => simp only [put, String.lt_irrefl, if_false, if_true]
  | cons e es ih =>
    rw [put, put]
    by_cases hlt : name < e.1
    · rw [if_pos hlt, if_pos hlt, put, if_neg (String.lt_irrefl name), if_pos rfl]
    by_cases heq : name = e.1
    · rw [if_neg hlt, if_pos heq, if_neg hlt, if_pos heq, put, if_neg (String.lt_irrefl name), if_pos rfl]
    · rw [if_neg hlt, if_neg heq, if_neg hlt, if_neg heq, put, if_neg hlt, if_neg heq, ih]

/-! ## Names -/

theorem mem_names_iff : name ∈ m.names ↔ (m.get? name).isSome := by
  rw [names, get?, find?, Option.isSome_map, List.find?_isSome]
  simp

theorem pairwise_names (m : NameMap α) : m.names.Pairwise (· < ·) :=
  List.pairwise_map.mpr m.ordered

theorem nodup_names (m : NameMap α) : m.names.Nodup :=
  m.pairwise_names.imp fun hlt => String.ne_of_lt hlt

/-! ## Back from a list -/

theorem put_eq_append (h : ∀ e ∈ es, e.1 < name) (a : α) : put name a es = es ++ [(name, a)] := by
  induction es with
  | nil => rfl
  | cons e es ih =>
    rw [List.forall_mem_cons] at h
    have hlt : ¬ name < e.1 := fun hlt => String.lt_irrefl _ (String.lt_trans hlt h.1)
    have hne : name ≠ e.1 := fun heq => String.lt_irrefl _ (heq ▸ h.1)
    rw [put, if_neg hlt, if_neg hne, ih h.2, List.cons_append]

theorem toList_foldl_insert (h : (m.toList ++ es).Pairwise (fun a b => a.1 < b.1)) :
    (es.foldl (fun m e => m.insert e.1 e.2) m).toList = m.toList ++ es := by
  induction es generalizing m with
  | nil => rw [List.foldl_nil, List.append_nil]
  | cons e es ih =>
    have hlt : ∀ x ∈ m.toList, x.1 < e.1 := fun x hx =>
      (List.pairwise_append.mp h).2.2 x hx e List.mem_cons_self
    have hput : (m.insert e.1 e.2).toList = m.toList ++ [e] := put_eq_append hlt e.2
    rw [List.foldl_cons, ih, hput, List.append_assoc, List.singleton_append]
    rwa [hput, List.append_assoc, List.singleton_append]

theorem toList_injective {m n : NameMap α} (h : m.toList = n.toList) : m = n := by
  cases m
  cases n
  cases h
  rfl

theorem insert_insert (m : NameMap α) (name : String) (a b : α) : (m.insert name a).insert name b = m.insert name b :=
  toList_injective (put_put name a b m.toList)

@[simp] theorem ofList_toList (m : NameMap α) : ofList m.toList = m :=
  toList_injective (toList_foldl_insert (m := empty) m.ordered)

end LabelPress.NameMap
