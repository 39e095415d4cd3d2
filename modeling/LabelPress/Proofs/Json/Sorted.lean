import LabelPress.Json.Sorted
import LabelPress.Proofs.NameMap

/-!
# Members in another order

Sorting changes a value in the order of members alone, as long as no object has a name twice
(`reordered_sorted`).
-/

namespace LabelPress

theorem NameMap.perm_put {α : Type} {name : String} {es : List (String × α)} (h : ∀ e ∈ es, e.1 ≠ name) (a : α) :
    (put name a es).Perm ((name, a) :: es) := by
  induction es with
  | nil => exact .refl _
  | cons e es ih =>
    rw [List.forall_mem_cons] at h
    rw [put, if_neg h.1.symm]
    split_ifs
    · exact .refl _
    · exact ((ih h.2).cons e).trans (.swap ..)

namespace Json

mutual

/-- The same value with the members of its objects in another order, at any depth. Items of arrays stay in theirs. -/
inductive Value.Reordered : Value → Value → Prop where
  | null : Value.Reordered .null .null
  | bool (b : Bool) : Value.Reordered (.bool b) (.bool b)
  | number (d : Decimal) : Value.Reordered (.number d) (.number d)
  | string (s : String) : Value.Reordered (.string s) (.string s)
  | array {vs us : List Value} : ItemsReordered vs us → Value.Reordered (.array vs) (.array us)
  | object {ms ns os : List (String × Value)} : MembersReordered ms ns → ns.Perm os →
    Value.Reordered (.object ms) (.object os)

inductive ItemsReordered : List Value → List Value → Prop where
  | nil : ItemsReordered [] []
  | cons {v u : Value} {vs us : List Value} : v.Reordered u → ItemsReordered vs us →
    ItemsReordered (v :: vs) (u :: us)

/-- The same names in the same order. -/
inductive MembersReordered : List (String × Value) → List (String × Value) → Prop where
  | nil : MembersReordered [] []
  | cons {v u : Value} {ms ns : List (String × Value)} (name : String) : v.Reordered u → MembersReordered ms ns →
    MembersReordered ((name, v) :: ms) ((name, u) :: ns)

end

mutual

/-- No object has a name twice, at any depth. -/
def Value.Distinct : Value → Prop
  | .array vs => ItemsDistinct vs
  | .object ms => (ms.map (·.1)).Nodup ∧ MembersDistinct ms
  | .null | .bool _ | .number _ | .string _ => True

def ItemsDistinct : List Value → Prop
  | [] => True
  | v :: vs => v.Distinct ∧ ItemsDistinct vs

def MembersDistinct : List (String × Value) → Prop
  | [] => True
  | (_, v) :: ms => v.Distinct ∧ MembersDistinct ms

end

theorem itemsDistinct_map {α : Type} {f : α → Value} (h : ∀ a, (f a).Distinct) (as : List α) :
    ItemsDistinct (as.map f) := by
  induction as with
  | nil => exact trivial
  | cons a as ih => exact ⟨h a, ih⟩

theorem perm_sortedMembers (ms : List (String × Value)) (h : (ms.map (·.1)).Nodup) :
    (ms.map fun m => (m.1, m.2.sorted)).Perm (sortedMembers ms).toList := by
  induction ms with
  | nil => exact .refl _
  | cons m ms ih =>
    rw [List.map_cons, List.nodup_cons] at h
    have hrest := ih h.2
    have hnew : ∀ e ∈ (sortedMembers ms).toList, e.1 ≠ m.1 := by
      intro e he heq
      obtain ⟨n, hn, rfl⟩ := List.mem_map.mp (hrest.mem_iff.mpr he)
      exact h.1 (List.mem_map.mpr ⟨n, hn, heq⟩)
    exact (hrest.cons _).trans (NameMap.perm_put hnew _).symm

mutual

theorem reordered_sorted : ∀ v : Value, v.Distinct → v.Reordered v.sorted
  | .null, _ => .null
  | .bool b, _ => .bool b
  | .number d, _ => .number d
  | .string s, _ => .string s
  | .array vs, h => by
    rw [Value.Distinct] at h
    rw [Value.sorted]
    exact .array (reordered_sortedItems vs h)
  | .object ms, h => by
    rw [Value.Distinct] at h
    rw [Value.sorted]
    exact .object (reordered_members ms h.2) (perm_sortedMembers ms h.1)

theorem reordered_sortedItems : ∀ vs : List Value, ItemsDistinct vs → ItemsReordered vs (sortedItems vs)
  | [], _ => .nil
  | v :: vs, h => by
    rw [ItemsDistinct] at h
    exact .cons (reordered_sorted v h.1) (reordered_sortedItems vs h.2)

theorem reordered_members : ∀ ms : List (String × Value), MembersDistinct ms →
    MembersReordered ms (ms.map fun m => (m.1, m.2.sorted))
  | [], _ => .nil
  | (name, v) :: ms, h => by
    rw [MembersDistinct] at h
    exact .cons name (reordered_sorted v h.1) (reordered_members ms h.2)

end

end Json

end LabelPress
