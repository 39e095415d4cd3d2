import LabelPress.Media.Measure

/-!
# Stock

The labels in a printer, and the surface that one of them gives.
-/

namespace LabelPress.Media

structure Stock where
  width : Measure
  /-- The height of one label. On continuous stock it is nominal. -/
  height : Measure
  gap : Measure
  /-- Whether the labels are cut from one strip. -/
  continuous : Bool := false
  deriving Repr

def Stock.ofInches (width height gap : Float) (continuous : Bool) : Stock :=
  ⟨.inches width, .inches height, .inches gap, continuous⟩

/-- The common roll of labels two inches wide and one inch high. -/
def Stock.roll : Stock :=
  .ofInches 2.0 1.0 0.125 false

/-- What a label is drawn on. -/
structure Surface where
  dpi : UInt32
  width : Option UInt32 := none
  height : Option UInt32 := none
  deriving DecidableEq, Repr

def Stock.surface (s : Stock) (r : Resolution) : Surface :=
  ⟨r.dpi, some (s.width.toDots r), some (s.height.toDots r)⟩

end LabelPress.Media
