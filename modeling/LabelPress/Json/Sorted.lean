import LabelPress.Json.Value
import LabelPress.NameMap

/-!
# Values with sorted members

The members of an object have no order of their own. The sorted form of a value has them in rising
order of their names, at every level.
-/

namespace LabelPress.Json

mutual

/-- The value with the members of its objects in rising order. -/
def Value.sorted : Value → Value
  | .null => .null
  | .bool b => .bool b
  | .number d => .number d
  | .string s => .string s
  | .array vs => .array (sortedItems vs)
  | .object ms => .object (sortedMembers ms).toList

def sortedItems : List Value → List Value
  | [] => []
  | v :: vs => v.sorted :: sortedItems vs

/-- The members in rising order. Of two with the same name the former stays. -/
def sortedMembers : List (String × Value) → NameMap Value
  | [] => .empty
  | (name, v) :: ms => (sortedMembers ms).insert name v.sorted

end

end LabelPress.Json
