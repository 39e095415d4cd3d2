/-!
# Resolutions

A printhead has one of three resolutions.
-/

namespace LabelPress.Media

def millimetresPerInch : Float := 25.4

inductive Resolution where
  | dpi203
  | dpi300
  | dpi600
  deriving DecidableEq, Repr

namespace Resolution

def all : List Resolution := [dpi203, dpi300, dpi600]

def dpi : Resolution → UInt32
  | dpi203 => 203
  | dpi300 => 300
  | dpi600 => 600

def ofDpi? (n : UInt32) : Option Resolution :=
  all.find? fun r => r.dpi == n

def perInch (r : Resolution) : Float :=
  r.dpi.toFloat

end Resolution

/-- The nearest whole number of dots on a millimetre. -/
def dotsPerMillimetre (dpi : UInt32) : UInt32 :=
  (dpi.toFloat / millimetresPerInch).round.toUInt32

end LabelPress.Media
