import LabelPress.Json.Sorted
import LabelPress.Proofs.Json.Documents
import LabelPress.Proofs.NameMap

/-!
# Values of any shape

A reader that takes whatever value a text holds. What is written is one value to it, the value that was written
(`anyValue_node`).
-/

namespace LabelPress.Json

open Number

mutual

/-- Reads a value of any shape. Numbers are exact. -/
def anyValue : Node → Except Fault Value
  | .absent f => .error f
  | .word w => do
    match ← w with
    | .null => return .null
    | .bool b => return .bool b
  | .numeral n => n.value.map fun n => .number n.decimal
  | .string s => s.value.map .string
  | .array vs ending => (anyItems ending vs).map .array
  | .object ms ending => (anyMembers ending ms).map .object

def anyItems (ending : Option Fault) : List Node → Except Fault (List Value)
  | [] => (orFault ending).map fun _ => []
  | v :: vs => do return (← anyValue v) :: (← anyItems ending vs)

def anyMembers (ending : Option Fault) : List (Scan String × Node) → Except Fault (List (String × Value))
  | [] => (orFault ending).map fun _ => []
  | (name, v) :: ms => do return (← name.value, ← anyValue v) :: (← anyMembers ending ms)

end

theorem signed_natAbs (n : Int) : (if n < 0 then -(n.natAbs : Int) else n.natAbs) = n := by
  split_ifs <;> omega

theorem decimal_numeral (d : Decimal) : d.numeral.decimal = d := by
  obtain ⟨mantissa, exponent⟩ := d
  by_cases he : exponent = 0
  · simp only [Decimal.numeral, Numeral.decimal, he, if_true, Option.getD_none, List.append_nil, value_decimal,
      decide_eq_true_eq, signed_natAbs, List.length_nil, Int.natCast_zero, Int.sub_zero]
  · simp only [Decimal.numeral, Numeral.decimal, he, if_false, Option.getD_none, List.append_nil, value_decimal,
      decide_eq_true_eq, signed_natAbs, List.length_nil, Int.natCast_zero, Int.sub_zero]

mutual

theorem anyValue_node : ∀ v : Value, anyValue v.node = .ok v
  | .null => rfl
  | .bool _ => rfl
  | .number d => by
    rw [Value.node, anyValue, Scan.good, Except.map, decimal_numeral]
  | .string _ => rfl
  | .array vs => by
    rw [Value.node, anyValue, anyItems_nodes vs]
    rfl
  | .object ms => by
    rw [Value.node, anyValue, anyMembers_nodes ms]
    rfl

theorem anyItems_nodes : ∀ vs : List Value, anyItems none (itemNodes vs) = .ok vs
  | [] => rfl
  | v :: vs => by
    rw [itemNodes, anyItems, anyValue_node v, anyItems_nodes vs]
    rfl

theorem anyMembers_nodes : ∀ ms : List (String × Value), anyMembers none (memberNodes ms) = .ok ms
  | [] => rfl
  | (k, v) :: ms => by
    rw [memberNodes, anyMembers, anyValue_node v, anyMembers_nodes ms]
    rfl

end

/-! ## Members -/

/-- What an object has under a name. -/
def Value.member? (name : String) : Value → Option Value
  | .object ms => NameMap.find? name ms
  | _ => none

theorem get?_sortedMembers (name : String) (ms : List (String × Value)) :
    (sortedMembers ms).get? name = (NameMap.find? name ms).map Value.sorted := by
  induction ms with
  | nil => rfl
  | cons m ms ih =>
    obtain ⟨k, v⟩ := m
    rw [sortedMembers, NameMap.get?_insert, ih, NameMap.find?_cons]
    by_cases h : name = k
    · rw [if_pos h, if_pos h.symm, Option.map_some]
    · rw [if_neg h, if_neg (Ne.symm h)]

theorem member?_sorted (name : String) (v : Value) : v.sorted.member? name = (v.member? name).map Value.sorted := by
  cases v with
  | object ms =>
    rw [Value.sorted]
    exact get?_sortedMembers name ms
  | _ => rfl

end LabelPress.Json
