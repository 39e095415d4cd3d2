import LabelPress.CommandLine.Arguments
import LabelPress.CommandLine.Command
import LabelPress.Number.Binary64
import LabelPress.Preview.Request
import LabelPress.Text.Blank

/-!
# How commands are written

The forms of the commands, and the command that a line of words stands for.
-/

namespace LabelPress.CommandLine

open Number Text

/-! ## Forms -/

def commonSwitches : List Switch :=
  [⟨"output", .value, none⟩, ⟨"verbose", .repeatedFlag, some 'v'⟩]

def valueSwitches (names : List String) : List Switch :=
  names.map fun n => ⟨n, .value, none⟩

def flagSwitches (names : List String) : List Switch :=
  names.map fun n => ⟨n, .flag, none⟩

def mediaSwitches : List Switch :=
  valueSwitches ["device", "model", "dpi", "stock", "width-in", "height-in", "gap-in", "render-dpi"]
    ++ flagSwitches ["continuous"]

def configSwitches : List Switch :=
  valueSwitches ["config", "margin", "placeholder"] ++ flagSwitches ["strict", "pw"]

def finishSwitches : List Switch :=
  mediaSwitches ++ configSwitches

def commandForm (switches : List Switch) (operands : Nat) : Form :=
  .command (commonSwitches ++ switches) operands

def templateForm : Form :=
  .group commonSwitches
    [("list", commandForm (valueSwitches ["archive"]) 0),
      ("render", commandForm (valueSwitches ["archive", "name"] ++
        [⟨"set", .repeatedValue, none⟩] ++ flagSwitches ["raw"] ++ finishSwitches) 0),
      ("add", commandForm (valueSwitches ["archive", "name", "from"]) 0),
      ("remove", commandForm (valueSwitches ["archive", "name"]) 0)]

def form : Form :=
  .group commonSwitches
    [("tokens", commandForm [] 1),
      ("estimate", commandForm
        (valueSwitches ["font-height", "line-gap", "barcode-height"]) 1),
      ("render", commandForm (flagSwitches ["pretty", "minify"] ++ finishSwitches) 1),
      ("format", commandForm
        (flagSwitches ["minify", "check"] ++ [⟨"write", .flag, some 'w'⟩]) 1),
      ("template", templateForm),
      ("print", commandForm (valueSwitches ["printer", "to-file", "retries", "timeout"] ++
        flagSwitches ["dry-run"] ++ finishSwitches) 1),
      ("preview", commandForm (valueSwitches ["out", "helper", "labelary-url", "timeout"] ++
        finishSwitches) 1)]

/-! ## Values -/

namespace Given

def read? (g : Given) (name : String) (f : List Char → Option α) : Except Misuse (Option α) :=
  match g.value? name with
  | none => .ok none
  | some v =>
    match f v.toList with
    | some a => .ok (some a)
    | none => .error (.badValue name v)

def required (g : Given) (name : String) : Except Misuse String :=
  match g.value? name with
  | some v => .ok v
  | none => .error (.missing name)

def operand (g : Given) (name : String) : Except Misuse String :=
  match g.operands with
  | v :: _ => .ok v
  | [] => .error (.missing name)

def exclude (g : Given) (name : String) (others : List String) : Except Misuse Unit :=
  match g.has name, others.find? g.has with
  | true, some other => .error (.conflict name other)
  | _, _ => .ok ()

end Given

def OutputMode.ofName? (s : List Char) : Option OutputMode :=
  if s = "pretty".toList then some .pretty
  else if s = "json".toList then some .json
  else none

def model? (s : List Char) : Option Media.Model :=
  if s = "zd620".toList then some .zd620
  else if s = "zt411".toList then some .zt411
  else none

/-- A variable and its value: the name is trimmed and not empty, the value is taken as it is. -/
def assignment? (s : List Char) : Option (String × List Char) :=
  (splitOnce? '=' s).bind fun (key, value) =>
    if trim key = [] then none else some (String.ofList (trim key), value)

/-- The variables that are set. Of two values for one the later counts. -/
def assignments : List String → Except Misuse (List (String × List Char))
  | [] => .ok []
  | v :: vs =>
    match assignment? v.toList with
    | some a => (assignments vs).map (a :: ·)
    | none => .error (.badValue "set" v)

/-! ## Choices -/

def deviceChoice (g : Given) : Except Misuse DeviceChoice := do
  g.exclude "device" ["model", "dpi"]
  let model ← g.read? "model" model?
  let dpi ← g.read? "dpi" uint32?
  match g.value? "device" with
  | some path => return .profile path
  | none => return .model (model.getD .zd620) (dpi.getD 203)

def stockChoice (g : Given) : Except Misuse StockChoice := do
  g.exclude "stock" ["width-in", "height-in", "gap-in", "continuous"]
  let width ← g.read? "width-in" float?
  let height ← g.read? "height-in" float?
  let gap ← g.read? "gap-in" float?
  match g.value? "stock" with
  | some path => return .profile path
  | none =>
    return .inches (width.getD 2.0) (height.getD 1.0) (gap.getD 0.125) (g.has "continuous")

def mediaChoice (g : Given) : Except Misuse MediaChoice := do
  return ⟨← deviceChoice g, ← stockChoice g, ← g.read? "render-dpi" uint32?⟩

def configChoice (g : Given) : Except Misuse ConfigChoice := do
  let margin ← g.read? "margin" uint32?
  return {
    profile := g.value? "config"
    margin
    placeholder := (g.value? "placeholder").map String.toList
    strict := g.has "strict"
    addWidth := g.has "pw" }

def assumptions (g : Given) : Except Misuse Estimate.Assumptions := do
  let usual : Estimate.Assumptions := {}
  return ⟨(← g.read? "font-height" uint32?).getD usual.fontHeight,
    (← g.read? "line-gap" uint32?).getD usual.lineGap,
    (← g.read? "barcode-height" uint32?).getD usual.barcodeHeight⟩

/-- Where the label is to go. There is at least one try. -/
def destination (g : Given) : Except Misuse Destination := do
  g.exclude "to-file" ["printer", "dry-run"]
  g.exclude "dry-run" ["printer"]
  let tries ← g.read? "retries" uint32?
  let timeout ← g.read? "timeout" uint64?
  let usual : Delivery.Settings := {}
  if g.has "dry-run" then return .dryRun
  match g.value? "to-file", g.value? "printer" with
  | some path, _ => return .file path
  | none, some address =>
    return .printer address
      { timeouts := { usual.timeouts with
          connect := (timeout.map Time.Duration.ofSeconds).getD usual.timeouts.connect }
        retry := { usual.retry with
          maxAttempts := max (tries.getD usual.retry.maxAttempts) 1 } }
  | none, none => .error (.missing "printer")

def drawer (g : Given) : Except Misuse Drawer := do
  g.exclude "helper" ["labelary-url"]
  match g.value? "helper" with
  | some program => return .helper program
  | none => return .service (g.value? "labelary-url")

/-! ## Commands -/

def templateCommand (name : String) (g : Given) : Except Misuse Command := do
  let archive ← g.required "archive"
  match name with
  | "list" => return .listTemplates archive
  | "render" =>
    let context := NameMap.ofList (← assignments (g.values "set"))
    return .renderTemplate archive (← g.required "name") context (g.has "raw")
      (← mediaChoice g) (← configChoice g)
  | "add" => return .addTemplate archive (← g.required "name") (← g.required "from")
  | "remove" => return .removeTemplate archive (← g.required "name")
  | _ => .error (.unknownCommand name)

def markupLayout (g : Given) : Except Misuse MarkupLayout := do
  g.exclude "pretty" ["minify"]
  if g.has "pretty" then return .pretty
  else if g.has "minify" then return .minified
  else return .asIs

def formatTask (g : Given) : Except Misuse FormatTask := do
  g.exclude "write" ["check"]
  if g.has "check" then return .check
  else if g.has "write" then return .write
  else return .output

def fileCommand (name : String) (g : Given) : Except Misuse Command := do
  let file ← g.operand "file"
  match name with
  | "tokens" => return .tokens file
  | "estimate" => return .estimate file (← assumptions g)
  | "render" => return .render file (← mediaChoice g) (← configChoice g) (← markupLayout g)
  | "format" => return .format file (g.has "minify") (← formatTask g)
  | "print" => return .print file (← destination g) (← mediaChoice g) (← configChoice g)
  | "preview" =>
    let timeout := ((← g.read? "timeout" uint64?).map Time.Duration.ofSeconds).getD Preview.usualTimeout
    return .preview file (← g.required "out") (← drawer g) timeout
      (← mediaChoice g) (← configChoice g)
  | _ => .error (.unknownCommand name)

def Line.toCommand : Line → Except Misuse Command
  | .group _ _ (.group _ name (.command g)) => templateCommand name g
  | .group _ name (.command g) => fileCommand name g
  | _ => .error .noCommand

def Line.mode : Line → Except Misuse (Option OutputMode)
  | .command g => g.read? "output" OutputMode.ofName?
  | .group g _ rest => do
    let outer ← g.read? "output" OutputMode.ofName?
    let inner ← rest.mode
    return inner <|> outer

def invocation (words : List String) : Except Misuse Invocation := do
  let line ← form.read words
  return ⟨← line.toCommand, ← line.mode⟩

end LabelPress.CommandLine
