import LabelPress.Files.Store
import LabelPress.Json.Node

/-!
# Labels that cannot be had

Why a source gives no label.
-/

namespace LabelPress.Label

inductive SourceError where
  | templateNotFound (name : String)
  | unterminatedTag (offset : Nat)
  | unknownTag (tag : List Char)
  | access (failure : Files.Store.Failure)
  | archive (fault : Json.Fault)
  | generator (text : List Char)
  deriving DecidableEq, Repr

def SourceError.message (e : SourceError) (wording : Json.Wording := Json.Fault.kind) : String :=
  match e with
  | templateNotFound n => "template not found: " ++ n
  | unterminatedTag o => "unterminated template tag at byte " ++ toString o
  | unknownTag t => "unknown template tag '" ++ String.ofList t ++ "'"
  | access f => "failed to access '" ++ f.name ++ "': " ++ f.cause.message
  | archive f => "invalid template archive: " ++ wording f
  | generator t => String.ofList t

def SourceError.causes (e : SourceError) (wording : Json.Wording := Json.Fault.kind) : List String :=
  match e with
  | access f => [f.cause.message]
  | archive f => [wording f]
  | templateNotFound _ | unterminatedTag _ | unknownTag _ | generator _ => []

end LabelPress.Label
