import LabelPress.Finish.Error
import LabelPress.Time.Duration

/-!
# Failed previews

Why there is no picture of a label.
-/

namespace LabelPress.Preview

open Time

inductive Error where
  | unfinished (error : Finish.Error)
  | unsupportedResolution (dpi perMillimetre : UInt32)
  | missingWidth
  | missingHeight
  | unreachable (cause : String)
  | emptyImage
  | launch (program : String) (cause : Files.AccessError)
  | timeout (limit : Duration)
  /-- The helper program failed, with an exit code unless it was killed. -/
  | helperFailed (code : Option Nat) (output : List Char)
  deriving DecidableEq, Repr

def endingText : Option Nat → String
  | some code => "exit code " ++ toString code
  | none => "killed by signal"

def Error.message (e : Error) (wording : Json.Wording := Json.Fault.kind) : String :=
  match e with
  | unfinished e => e.message wording
  | unsupportedResolution dpi n =>
    "unsupported resolution " ++ toString dpi.toNat ++ " dpi (" ++ toString n.toNat ++
      " dpmm); supported: 6, 8, 12, 24 dpmm"
  | missingWidth => "render geometry has no width"
  | missingHeight => "render geometry has no height"
  | unreachable c => "request to rasterizer failed: " ++ c
  | emptyImage => "rasterizer returned an empty image"
  | launch p c => "failed to launch '" ++ p ++ "': " ++ c.message
  | timeout d => "helper timed out after " ++ String.ofList d.text
  | helperFailed code out => "helper failed (" ++ endingText code ++ "): " ++ String.ofList out

def Error.causes (e : Error) (wording : Json.Wording := Json.Fault.kind) : List String :=
  match e with
  | unfinished e => e.causes wording
  | launch _ c => [c.message]
  | unreachable c => [c]
  | unsupportedResolution .. | missingWidth | missingHeight | emptyImage | timeout _
  | helperFailed .. => []

end LabelPress.Preview
