import LabelPress.Media.Resolution

/-!
# Lengths

A length is stated in dots, or in a unit that becomes dots at a resolution.
-/

namespace LabelPress.Media

inductive Measure where
  | dots (n : UInt32)
  | inches (x : Float)
  | millimetres (x : Float)
  deriving Repr

namespace Measure

/-- The whole number of dots nearest to `x`, none below it. What is not a number is no dots. -/
def wholeDots (x : Float) : UInt32 :=
  let rounded := x.round
  if rounded.isFinite && rounded > 0 then rounded.toUInt32 else 0

def toDots (r : Resolution) : Measure → UInt32
  | dots n => n
  | inches x => wholeDots (x * r.perInch)
  | millimetres x => wholeDots (x / millimetresPerInch * r.perInch)

def toInches (r : Resolution) : Measure → Float
  | dots n => n.toFloat / r.perInch
  | inches x => x
  | millimetres x => x / millimetresPerInch

def toMillimetres (r : Resolution) (m : Measure) : Float :=
  m.toInches r * millimetresPerInch

def isPositive : Measure → Bool
  | dots n => n > 0
  | inches x | millimetres x => x.isFinite && x > 0

end Measure

end LabelPress.Media
