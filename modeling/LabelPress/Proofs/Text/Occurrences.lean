import LabelPress.Proofs.Text.Search

/-!
# Replacing, occurrence by occurrence

`replaceAll` cuts at the first occurrence and goes on behind it, so what it does is shown by induction
along the cuts (`cut_induction`). A part without a character of the needle is passed over
(`replaceAll_append`).
-/

namespace LabelPress.Text

/-- The texts before and after each occurrence, leftmost first. Occurrences do not overlap. -/
def occurrences (needle s : List Char) : List (List Char × List Char) :=
  if _hn : needle = [] then []
  else
    match _h : cut? needle s with
    | none => []
    | some (a, b) => (a, b) :: (occurrences needle b).map fun o => (a ++ needle ++ o.1, o.2)
termination_by s.length
decreasing_by
  have := congrArg List.length (eq_append_of_cut? _h)
  have := List.length_pos_iff.2 _hn
  simp at *
  omega

variable {needle new s a b u v m : List Char}

theorem occurrences_of_cut?_eq_none (h : cut? needle s = none) : occurrences needle s = [] := by
  rw [occurrences]
  split
  · rfl
  · split
    · rfl
    · next hcut => simp [h] at hcut

theorem occurrences_of_cut? (hn : needle ≠ []) (h : cut? needle s = some (a, b)) :
    occurrences needle s = (a, b) :: (occurrences needle b).map fun o => (a ++ needle ++ o.1, o.2) := by
  rw [occurrences, dif_neg hn]
  split
  · next hcut => simp [h] at hcut
  · next hcut =>
    rw [h, Option.some.injEq, Prod.mk.injEq] at hcut
    rw [hcut.1, hcut.2]

/-- Induction along the cuts at the first occurrence. -/
@[elab_as_elim]
theorem cut_induction {motive : List Char → Prop} (hn : needle ≠ [])
    (none : ∀ s, cut? needle s = none → motive s)
    (some : ∀ s a b, cut? needle s = some (a, b) → motive b → motive s) : ∀ s, motive s := by
  intro s
  induction hlen : s.length using Nat.strong_induction_on generalizing s with
  | _ n ih =>
    cases hcut : cut? needle s with
    | none => exact none s hcut
    | some o =>
      have hs := congrArg List.length (eq_append_of_cut? (a := o.1) (b := o.2) hcut)
      have := List.length_pos_iff.mpr hn
      simp only [List.length_append] at hs
      exact some s o.1 o.2 hcut (ih o.2.length (by omega) o.2 rfl)

theorem eq_append_of_mem_occurrences (hn : needle ≠ []) {o : List Char × List Char}
    (h : o ∈ occurrences needle s) :
    s = o.1 ++ needle ++ o.2 := by
  induction s using cut_induction hn generalizing o with
  | none s hcut => simp [occurrences_of_cut?_eq_none hcut] at h
  | some s a b hcut ih =>
    rw [occurrences_of_cut? hn hcut, List.mem_cons] at h
    rcases h with rfl | h
    · exact eq_append_of_cut? hcut
    · obtain ⟨o', ho', rfl⟩ := List.mem_map.mp h
      rw [eq_append_of_cut? hcut, ih ho']
      simp

theorem forall_occurrences_of_cut? {P : List Char → List Char → Prop} (hn : needle ≠ [])
    (hcut : cut? needle s = some (a, b))
    (h : ∀ o ∈ occurrences needle s, P o.1 o.2) :
    P a b ∧ ∀ o ∈ occurrences needle b, P (a ++ needle ++ o.1) o.2 := by
  rw [occurrences_of_cut? hn hcut, List.forall_mem_cons, List.forall_mem_map] at h
  exact h

/-! ## How many there are -/

theorem occurrences_eq_nil_iff (hn : needle ≠ []) : occurrences needle s = [] ↔ ¬ needle <:+: s := by
  rw [← cut?_eq_none_iff]
  constructor
  · intro h
    by_contra hne
    obtain ⟨o, ho⟩ := Option.ne_none_iff_exists'.mp hne
    rw [occurrences_of_cut? hn ho] at h
    exact List.cons_ne_nil _ _ h
  · exact occurrences_of_cut?_eq_none

theorem length_occurrences_append_self (hn : needle ≠ []) (s : List Char) :
    (occurrences needle (needle ++ s)).length = (occurrences needle s).length + 1 := by
  rw [occurrences_of_cut? hn (cut?_append_self needle s), List.length_cons, List.length_map]

theorem length_occurrences_cons {c : Char} (h : ¬ needle <+: c :: s) :
    (occurrences needle (c :: s)).length = (occurrences needle s).length := by
  have hn := ne_nil_of_not_prefix h
  have hcut := cut?_cons_of_not_prefix h
  cases hs : cut? needle s with
  | none =>
    rw [hs, Option.map_none] at hcut
    rw [occurrences_of_cut?_eq_none hcut, occurrences_of_cut?_eq_none hs]
  | some o =>
    rw [hs, Option.map_some] at hcut
    simp only [occurrences_of_cut? hn hcut, occurrences_of_cut? hn hs, List.length_cons, List.length_map]

theorem length_occurrences_append (hn : needle ≠ []) (hj : ¬ Joins needle u v) :
    (occurrences needle (u ++ v)).length = (occurrences needle u).length + (occurrences needle v).length := by
  induction u using cut_induction hn with
  | none u hcut =>
    have happend := cut?_append_of_not_joins hcut hj
    rw [occurrences_of_cut?_eq_none hcut, List.length_nil, Nat.zero_add]
    cases hv : cut? needle v with
    | none =>
      rw [hv, Option.map_none] at happend
      rw [occurrences_of_cut?_eq_none happend, occurrences_of_cut?_eq_none hv]
    | some o =>
      rw [hv, Option.map_some] at happend
      simp only [occurrences_of_cut? hn happend, occurrences_of_cut? hn hv, List.length_cons, List.length_map]
  | some u a b hcut ih =>
    have hsuffix : b <:+ u := ⟨a ++ needle, (eq_append_of_cut? hcut).symm⟩
    have hrest := ih fun h => hj (h.mono hsuffix (List.prefix_refl v))
    rw [occurrences_of_cut? hn hcut, occurrences_of_cut? hn (cut?_append_right hcut v)]
    simp only [List.length_cons, List.length_map, hrest]
    omega

/-! ## Parts that are passed over -/

theorem misses_append_of_not_mem (hn : needle ≠ []) (hu : cut? needle u = none) (hm : ∀ c ∈ m, c ∉ needle)
    (hne : m ≠ []) :
    Misses needle (u ++ m) := by
  have hmiss : Misses needle m := by
    intro x y z hxy hy hpre
    obtain ⟨c, y, rfl⟩ := List.exists_cons_of_ne_nil hy
    obtain ⟨d, t, rfl⟩ := List.exists_cons_of_ne_nil hn
    rw [List.cons_append, List.cons_prefix_cons] at hpre
    exact hm c (by simp [hxy]) (by simp [hpre.1])
  intro x y z hxy hy hpre
  rcases List.append_eq_append_iff.mp hxy with ⟨w, -, hw⟩ | ⟨w, hw, rfl⟩
  · exact hmiss w y z hw hy hpre
  · obtain ⟨r, hr⟩ := hpre
    rw [List.append_assoc] at hr
    rcases List.append_eq_append_iff.mp hr with ⟨w', hw', -⟩ | ⟨w', hw', hz⟩
    · exact cut?_eq_none_iff.mp hu ⟨x, w', by rw [List.append_assoc, ← hw', hw]⟩
    · cases w' with
      | nil => exact cut?_eq_none_iff.mp hu ⟨x, [], by simp [hw', hw]⟩
      | cons c w' =>
        -- The occurrence would hold the first character of `m`.
        obtain ⟨d, m, rfl⟩ := List.exists_cons_of_ne_nil hne
        simp only [List.cons_append, List.cons.injEq] at hz
        exact hm d List.mem_cons_self (by simp [hw', hz.1])

theorem replaceAll_append_left (hu : Misses needle u) (new s : List Char) :
    replaceAll needle new (u ++ s) = u ++ replaceAll needle new s := by
  by_cases hn : needle = []
  · rw [replaceAll, dif_pos hn, replaceAll, dif_pos hn]
  · cases hcut : cut? needle s with
    | none =>
      have hnone : cut? needle (u ++ s) = none := by rw [cut?_append_left hu, hcut, Option.map_none]
      rw [replaceAll_of_cut?_eq_none new hnone, replaceAll_of_cut?_eq_none new hcut]
    | some o =>
      have hsome : cut? needle (u ++ s) = some (u ++ o.1, o.2) := by rw [cut?_append_left hu, hcut, Option.map_some]
      rw [replaceAll_of_cut? new hn hsome, replaceAll_of_cut? new hn hcut]
      simp

theorem replaceAll_append (hn : needle ≠ []) (hm : ∀ c ∈ m, c ∉ needle) (hne : m ≠ [])
    (new u v : List Char) :
    replaceAll needle new (u ++ m ++ v) = replaceAll needle new u ++ m ++ replaceAll needle new v := by
  induction u using cut_induction hn with
  | none u hcut =>
    rw [replaceAll_append_left (misses_append_of_not_mem hn hcut hm hne), replaceAll_of_cut?_eq_none new hcut]
  | some u a b hcut ih =>
    have hcut' : cut? needle (u ++ m ++ v) = some (a, b ++ m ++ v) := by
      rw [List.append_assoc, cut?_append_right hcut, List.append_assoc]
    rw [replaceAll_of_cut? new hn hcut', replaceAll_of_cut? new hn hcut, ih]
    simp

end LabelPress.Text
