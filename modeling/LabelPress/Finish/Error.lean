import LabelPress.Label.Error

/-!
# Labels that cannot be finished

Why a label cannot go to a printer.
-/

namespace LabelPress.Finish

inductive Dimension where
  | width
  | length
  deriving DecidableEq, Repr

def Dimension.name : Dimension → String
  | width => "width"
  | length => "length"

inductive Error where
  | overflow (dimension : Dimension) (requested limit : UInt32)
  | resolutionMismatch (surface device : UInt32)
  | source (error : Label.SourceError)
  deriving DecidableEq, Repr

def Error.code : Error → String
  | overflow .. => "dimension_overflow"
  | resolutionMismatch .. => "resolution_mismatch"
  | source _ => "source_failed"

def Error.message (e : Error) (wording : Json.Wording := Json.Fault.kind) : String :=
  match e with
  | overflow d requested limit =>
    d.name ++ " overflow: requested " ++ toString requested.toNat ++
      " dots, device maximum is " ++ toString limit.toNat
  | resolutionMismatch surface device =>
    "resolution mismatch: rendering at " ++ toString surface.toNat ++ " dpi for a " ++
      toString device.toNat ++ " dpi device"
  | source e => e.message wording

def Error.causes (e : Error) (wording : Json.Wording := Json.Fault.kind) : List String :=
  match e with
  | source e => e.causes wording
  | overflow .. | resolutionMismatch .. => []

end LabelPress.Finish
