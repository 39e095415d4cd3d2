/-!
# Sets of characters as runs

A set of characters is kept as the rising list of the code points at which membership changes:
where the first run begins, where it has ended, where the second begins, and so on.
-/

namespace LabelPress.Text

/-- Whether the character stands in one of the runs. -/
def inRuns (changes : List Nat) (c : Char) : Bool :=
  (changes.takeWhile (· ≤ c.toNat)).length % 2 == 1

end LabelPress.Text
