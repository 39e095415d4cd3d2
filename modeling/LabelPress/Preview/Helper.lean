import LabelPress.Number.Integer
import LabelPress.Preview.Request
import LabelPress.Text.Blank
import LabelPress.Text.Utf8

/-!
# Drawing by a helper program

A helper program is told the size in its arguments, reads the markup, and writes the picture.
-/

namespace LabelPress.Preview

open Number Text

/-! ## Programs -/

inductive Ending where
  | exit (code : Nat)
  | killed
  | never
  deriving DecidableEq, Repr

structure Run where
  output : List UInt8
  errors : List UInt8
  ending : Ending
  deriving DecidableEq, Repr

/-- What a program does with its arguments and its input. -/
abbrev Program := List String → List UInt8 → Run

abbrev Programs := String → Except Files.AccessError Program

/-! ## Helpers -/

def millimetres (dpi dots : UInt32) : UInt32 :=
  (dots.toFloat / (max dpi 1).toFloat * Media.millimetresPerInch).round.toUInt32

def argument (n : UInt32) : String :=
  String.ofList (decimal n.toNat)

/-- The arguments of the helper. Both sizes have to be known. -/
def helperArguments (s : Media.Surface) : Except Error (List String) :=
  match s.width, s.height with
  | none, _ => .error .missingWidth
  | some _, none => .error .missingHeight
  | some w, some h =>
    .ok ["--width-mm", argument (millimetres s.dpi w), "--height-mm", argument (millimetres s.dpi h),
      "--dpmm", argument (Media.dotsPerMillimetre s.dpi)]

/-- What a run comes to. A program that ends needs some time. -/
def Run.result (r : Run) (limit : Time.Duration) : Except Error (List UInt8) :=
  if limit.nanos = 0 then .error (.timeout limit)
  else
    match r.ending with
    | .never => .error (.timeout limit)
    | .killed => .error (.helperFailed none (trimEnd (ofUtf8Lossy r.errors)))
    | .exit code =>
      if code ≠ 0 then .error (.helperFailed (some code) (trimEnd (ofUtf8Lossy r.errors)))
      else if r.output.isEmpty then .error .emptyImage
      else .ok r.output

def helper (programs : Programs) (name : String) : Rasterizer := fun r => do
  let arguments ← helperArguments r.surface
  match programs name with
  | .error e => .error (.launch name e)
  | .ok program => (program arguments (utf8 r.markup)).result r.timeout

end LabelPress.Preview
