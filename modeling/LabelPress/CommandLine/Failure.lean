import LabelPress.Delivery.Error
import LabelPress.Media.Profile
import LabelPress.Preview.Error

/-!
# Failed commands

A failure says what was tried and why it went wrong. Its text names the outermost first.
-/

namespace LabelPress.CommandLine

open Files

inductive ProfileKind where
  | device
  | stock
  | finish
  deriving DecidableEq, Repr

def ProfileKind.name : ProfileKind → String
  | device => "device profile"
  | stock => "stock profile"
  | finish => "render config"

def standardInput : String := "-"

inductive Failure where
  | unreadable (file : String) (cause : AccessError)
  | unwritable (file : String) (cause : AccessError)
  | noFile
  | unreadableProfile (kind : ProfileKind) (path : String) (cause : AccessError)
  | invalidProfile (kind : ProfileKind) (path : String) (cause : Media.ProfileError)
  | invalidConfig (path : String) (cause : Json.Fault)
  | invalidResolution (name : String) (cause : Media.ProfileError)
  | notMade (cause : Media.ProfileError)
  | noWidth
  | archive (cause : Label.SourceError)
  | noTemplate (name : String)
  | unfinished (file : String) (cause : Finish.Error)
  | unfinishedTemplate (name : String) (cause : Finish.Error)
  | undelivered (cause : Delivery.Error)
  | unconnected (address : String) (cause : Delivery.Error)
  | unprinted (address : String) (cause : Delivery.Error)
  | noPreview (file : String) (cause : Preview.Error)
  deriving Repr

namespace Failure

/-- What was tried and what went wrong, the outermost first. -/
def chain (wording : Json.Wording) : Failure → List String
  | unreadable file e =>
    [if file = standardInput then "failed to read stdin" else "failed to read '" ++ file ++ "'",
      e.message]
  | unwritable file e => ["failed to write '" ++ file ++ "'", e.message]
  | noFile => ["--write needs a file path, not stdin"]
  | unreadableProfile kind path e =>
    ["failed to read " ++ kind.name ++ " '" ++ path ++ "'", e.message]
  | invalidProfile kind path e => ["invalid " ++ kind.name ++ " '" ++ path ++ "'", e.message wording]
  | invalidConfig path f =>
    ["invalid " ++ ProfileKind.finish.name ++ " '" ++ path ++ "'", wording f]
  | invalidResolution name e => ["invalid --" ++ name, e.message wording]
  | notMade e => [e.message wording]
  | noWidth => ["--width-in must be > 0"]
  | archive e => e.message wording :: e.causes wording
  | noTemplate name => ["template not found: " ++ name]
  | unfinished file e => ("failed to render '" ++ file ++ "'") :: e.message wording :: e.causes wording
  | unfinishedTemplate name e =>
    ("failed to render template '" ++ name ++ "'") :: e.message wording :: e.causes wording
  | undelivered e => e.message :: e.causes
  | unconnected address e =>
    ("failed to connect to printer '" ++ address ++ "'") :: e.message :: e.causes
  | unprinted address e => ("failed to print to '" ++ address ++ "'") :: e.message :: e.causes
  | noPreview file e => ("failed to preview '" ++ file ++ "'") :: e.message wording :: e.causes wording

def message (wording : Json.Wording) (f : Failure) : String :=
  ": ".intercalate (f.chain wording)

def finish? : Failure → Option Finish.Error
  | unfinished _ e | unfinishedTemplate _ e | noPreview _ (.unfinished e) => some e
  | _ => none

/-- The name of the kind of a failure that has none of its own. -/
def plainCode : String := "command_failed"

end Failure

end LabelPress.CommandLine
