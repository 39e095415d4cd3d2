import LabelPress.Number.Binary64
import LabelPress.Preview.Request

/-!
# Drawing by a web service

The service takes the resolution and the size of a label in its address.
-/

namespace LabelPress.Preview

open Number

def defaultBase : List Char := "https://api.labelary.com".toList

/-- The resolutions that the service draws at, in dots on a millimetre. -/
def servicePerMillimetre : List UInt32 := [6, 8, 12, 24]

/-- A size in inches. One that is not known is one inch, and none is less than a dot. -/
def sizeInInches (dpi : UInt32) (dots : Option UInt32) : Float :=
  (max (dots.getD dpi) 1).toFloat / dpi.toFloat

def withoutSlashes (base : List Char) : List Char :=
  (base.reverse.dropWhile (· = '/')).reverse

def serviceAddress (base : List Char) (s : Media.Surface) : Except Error (List Char) :=
  let n := Media.dotsPerMillimetre s.dpi
  if s.dpi = 0 ∨ n ∉ servicePerMillimetre then .error (.unsupportedResolution s.dpi n)
  else
    .ok <| withoutSlashes base ++ "/v1/printers/".toList ++ decimal n.toNat ++
      "dpmm/labels/".toList ++ threePlaces (sizeInInches s.dpi s.width) ++
      'x' :: threePlaces (sizeInInches s.dpi s.height) ++ "/0/".toList

def offlineService (base : List Char) : Rasterizer := fun r => do
  let address ← serviceAddress base r.surface
  .error (.unreachable ("no connection to " ++ String.ofList address))

end LabelPress.Preview
