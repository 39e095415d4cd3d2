import LabelPress.CommandLine.Command
import LabelPress.Estimate.Settings
import LabelPress.Json.Sorted
import LabelPress.Text.Escaped

/-!
# Reports

What a command has to say is printed for people or as a JSON document. For people, results go to the
standard output, and what is said about them goes to the standard error. The members of a document
stand in rising order.
-/

namespace LabelPress.CommandLine

open Json Number Text

inductive Status where
  /-- Whether the file has its format. -/
  | checked (formatted : Bool)
  /-- Whether the file had its format before. -/
  | written (already : Bool)
  /-- Whether there was another template of the name. -/
  | added (replaced : Bool)
  | removed
  deriving DecidableEq, Repr

def Status.mode : Status → String
  | checked _ => "check"
  | written _ => "write"
  | added _ => "add"
  | removed => "remove"

def Status.text : Status → String
  | checked true | written true => "already formatted"
  | checked false => "not formatted"
  | written false => "formatted"
  | added true => "replaced"
  | added false => "added"
  | removed => "removed"

inductive Report where
  | tokens (ts : List Markup.Token)
  | estimate (extent : Estimate.Extent) (assumptions : Estimate.Assumptions)
  | markup (text : List Char) (device : String) (dpi : UInt32)
  | formatted (text : List Char)
  | templates (archive : String) (names : List String)
  | status (s : Status) (name : String)
  | shown (bytes : Nat) (output : List Char)
  | delivered (bytes : Nat) (destination : String)
  | previewed (bytes : Nat) (file : String)
  deriving DecidableEq, Repr

/-! ## Printing -/

/-- Something that is printed at once: a document or a text to the standard output, or a text to the
standard error. -/
inductive Print where
  | document (v : Value)
  | output (s : List Char)
  | errors (s : List Char)
  deriving Repr

def line (s : List Char) : List Char :=
  s ++ ['\n']

structure Streams where
  output : List Char := []
  errors : List Char := []
  deriving DecidableEq, Repr

def Print.streams : Print → Streams
  | document v => { output := line v.sorted.pretty }
  | output s => { output := s }
  | errors s => { errors := s }

/-! ## For people -/

/-- A text in a colour of the terminal, by the number of the colour. -/
def coloured (colour : Nat) (s : String) : List Char :=
  '\x1b' :: '[' :: decimal colour ++ 'm' :: s.toList ++ "\x1b[0m".toList

def cyan : Nat := 36

def red : Nat := 31

def sizeLine (name : String) (s : List Char) : List Char :=
  line (coloured cyan name ++ ':' :: ' ' :: s)

def dotsText (n : UInt32) : List Char :=
  decimal n.toNat ++ " dots".toList

def alignedRight (width : Nat) (s : List Char) : List Char :=
  List.replicate (width - s.length) ' ' ++ s

def alignedLeft (width : Nat) (s : List Char) : List Char :=
  s ++ List.replicate (width - s.length) ' '

/-- A command of a label: where it starts, its mnemonic, its parameters. -/
def tokenLine (t : Markup.Token) : List Char :=
  line (alignedRight 6 (decimal t.start) ++ "  ".toList ++ alignedLeft 3 t.name ++ ' ' ::
    escaped t.params)

namespace Report

def lines (r : Report) : List Print :=
  match r with
  | tokens ts =>
    (ts.map fun t => .output (tokenLine t)) ++
      [.errors (line (decimal ts.length ++ " commands".toList))]
  | estimate e _ =>
    let explicit := match e.explicit with
      | some n => dotsText n ++ " (^LL)".toList
      | none => "none".toList
    [.output (sizeLine "structural" (dotsText e.structural)),
      .output (sizeLine "explicit" explicit), .output (sizeLine "estimate" (dotsText e.dots))]
  | markup text _ _ => [.output (line text)]
  | formatted text => [.output text]
  | status s name => [.errors (line (s.text ++ ": " ++ name).toList)]
  | templates archive [] => [.errors (line ("no templates in " ++ archive).toList)]
  | templates _ names => names.map fun n => .output (line n.toList)
  | shown bytes output =>
    [.output output,
      .errors (line ("sent ".toList ++ decimal bytes ++ " bytes to dry-run".toList))]
  | delivered bytes destination =>
    [.errors (line ("sent ".toList ++ decimal bytes ++ " bytes to ".toList ++
      destination.toList))]
  | previewed bytes file =>
    [.errors (line ("wrote ".toList ++ decimal bytes ++ " byte preview to ".toList ++
      file.toList))]

/-! ## As documents -/

def tokenValue (t : Markup.Token) : Value :=
  .object [("name", .text t.name), ("params", .text t.params)]

/-- The document of a report. Formatted markup has none. -/
def value? (r : Report) : Option Value :=
  match r with
  | tokens ts => some <| .object [("tokens", .array (ts.map tokenValue))]
  | estimate e a => some <| .object [("estimate", e.toJson), ("config", a.toJson)]
  | markup text device dpi =>
    some <| .object [("success", .bool true), ("device", .string device), ("dpi", .uint32 dpi),
      ("markup", .text text)]
  | formatted _ => none
  | status s name =>
    some <| .object [("mode", .string s.mode), ("status", .string s.text), ("file", .string name)]
  | templates archive names =>
    some <| .object [("archive", .string archive), ("templates", .array (names.map .string))]
  | shown bytes output =>
    some <| .object [("success", .bool true), ("destination", .string "dry-run"),
      ("bytes", .int bytes), ("output", .text output)]
  | delivered bytes destination =>
    some <| .object [("success", .bool true), ("destination", .string destination),
      ("bytes", .int bytes)]
  | previewed bytes file =>
    some <| .object [("success", .bool true), ("out", .string file), ("bytes", .int bytes)]

end Report

def Failure.value (wording : Wording) (f : Failure) : Value :=
  let value (code message : String) (more : List (String × Value)) : Value :=
    .object ([("success", .bool false), ("error", .string code), ("message", .string message)]
      ++ more)
  match f.finish? with
  | none => value Failure.plainCode (f.message wording) []
  | some (.overflow d requested limit) =>
    let e : Finish.Error := .overflow d requested limit
    value e.code e.message [("dimension", .string d.name), ("requested", .uint32 requested),
      ("max", .uint32 limit)]
  | some (.resolutionMismatch surface device) =>
    let e : Finish.Error := .resolutionMismatch surface device
    value e.code e.message [("render_dpi", .uint32 surface), ("device_dpi", .uint32 device)]
  | some (.source e) => value (Finish.Error.source e).code (f.message wording) []

def Failure.line (wording : Wording) (f : Failure) : Print :=
  let code := match f.finish? with
    | some e => e.code
    | none => "error"
  .errors (CommandLine.line (coloured red code ++ ':' :: ' ' :: (f.message wording).toList))

/-! ## Either way -/

def OutputMode.report (mode : OutputMode) (r : Report) : List Print :=
  match mode, r.value? with
  | .json, some v => [.document v]
  | _, _ => r.lines

def OutputMode.failure (mode : OutputMode) (wording : Wording) (f : Failure) : Print :=
  match mode with
  | .json => .document (f.value wording)
  | .pretty => f.line wording

end LabelPress.CommandLine
