import LabelPress.Finish.Finish
import LabelPress.Preview.Error

/-!
# Asking for a picture

A label is finished first. What draws it then gets the markup, the surface, and the time it may take.
-/

namespace LabelPress.Preview

open Time

structure Request where
  markup : List Char
  surface : Media.Surface
  timeout : Duration
  deriving DecidableEq, Repr

abbrev Rasterizer := Request → Except Error (List UInt8)

/-- How long drawing may take unless another time is asked for. -/
def usualTimeout : Duration := .ofSeconds 10

def request (c : Finish.Config) (setup : Media.Setup) (surface : Media.Surface)
    (timeout : Duration) (markup : Except Label.SourceError (List Char)) : Except Error Request :=
  match c.finishResult setup markup with
  | .ok s => .ok ⟨s, surface, timeout⟩
  | .error e => .error (.unfinished e)

def picture (r : Rasterizer) (c : Finish.Config) (setup : Media.Setup) (surface : Media.Surface)
    (timeout : Duration) (markup : Except Label.SourceError (List Char)) :
    Except Error (List UInt8) := do
  r (← request c setup surface timeout markup)

end LabelPress.Preview
