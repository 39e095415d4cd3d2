import LabelPress.CommandLine.Step
import LabelPress.CommandLine.Usage
import LabelPress.Delivery.Destination
import LabelPress.Delivery.Target
import LabelPress.Preview.Helper
import LabelPress.Preview.Service

/-!
# Running commands

A command reads first and writes last, one file at most. So a command that fails before it writes
leaves every file as it was.

What is not decided here is given to a command in its `Surroundings`: what files hold, how helper
programs, printers and the picture service answer, how host names are looked up, and in which words a
fault of a document is told. Nothing is said about the time that these take, nor about log lines, nor
about the words of what is wrong with a command line.
-/

namespace LabelPress.CommandLine

open Files Text

/-! ## Surroundings -/

/-- The session with the printer at an endpoint, if it can be reached. -/
abbrev Printers :=
  Network.Endpoint → Delivery.Settings → Except Delivery.Error Delivery.Session

def noPrinters : Printers := fun e _ =>
  .error (.connectionFailed (String.ofList e.text) "there is no network")

structure Surroundings where
  files : Store
  /-- What stands in the standard input. -/
  input : List UInt8 := []
  programs : Preview.Programs := fun _ => .error .notFound
  printers : Printers := noPrinters
  /-- The picture service at an address. -/
  service : List Char → Preview.Rasterizer := Preview.offlineService
  /-- How host names are looked up. Usually only numbers are known. -/
  lookUp : Delivery.LookUp := Network.hostEndpoint?
  /-- How a fault of a document is told. Usually its kind is named. -/
  wording : Json.Wording := Json.Fault.kind

namespace Surroundings

open Step

variable (w : Surroundings)

def readInput (file : String) : Except Failure (List Char) :=
  let content :=
    if file = standardInput then
      match ofUtf8? w.input with
      | some s => .ok s
      | none => .error .notText
    else w.files.readText file
  content.mapError (.unreadable file)

/-! ## Markup -/

def tokens (mode : OutputMode) (file : String) : Step Unit := do
  let s ← attempt (w.readInput file)
  emit (mode.report (.tokens (Markup.tokenize {} s)))

def estimate (mode : OutputMode) (file : String) (a : Estimate.Assumptions) : Step Unit := do
  let s ← attempt (w.readInput file)
  emit (mode.report (.estimate (Estimate.ofMarkup a s) a))

/-- The format of a file: its last line ends too. -/
def formatted (minified : Bool) (s : List Char) : List Char :=
  line (if minified then Markup.minify s else Markup.pretty s)

def overwrite (file : String) (s : List Char) : Step Unit := do
  let left ← attempt ((w.files.write file (utf8 s)).mapError (.unwritable file))
  modify fun p => { p with files := left }

/-- Formats a label. A file that has its format is not written, and one that is checked and lacks it
ends the command with an exit code of its own. -/
def format (mode : OutputMode) (file : String) (minified : Bool) (task : FormatTask) :
    Step Unit := do
  attempt (if task = .write ∧ file = standardInput then .error .noFile else .ok ())
  let s ← attempt (w.readInput file)
  let t := formatted minified s
  match task with
  | .output => emit (mode.report (.formatted t))
  | .check =>
    emit (mode.report (.status (.checked (t = s)) file))
    if t = s then pure () else exit 1
  | .write =>
    (if t = s then pure () else w.overwrite file t)
    emit (mode.report (.status (.written (t = s)) file))

/-! ## Finished labels -/

/-- A finished label, what it is printed on, and how it was finished. -/
structure Finished where
  markup : List Char
  setup : Media.Setup
  config : Finish.Config

def finished (file : String) (media : MediaChoice) (choice : ConfigChoice) :
    Except Failure Finished := do
  let setup ← media.setup w.files
  let config ← choice.config w.files
  let s ← w.readInput file
  let markup ← (config.finish setup s).mapError (.unfinished file)
  return ⟨markup, setup, config⟩

def render (mode : OutputMode) (file : String) (media : MediaChoice) (choice : ConfigChoice)
    (layout : MarkupLayout) : Step Unit := do
  let l ← attempt (w.finished file media choice)
  emit (mode.report (.markup (layout.apply l.markup) l.setup.device.name l.setup.surface.dpi))

def sendTo (address : String) (settings : Delivery.Settings) (native : UInt32) (strict : Bool)
    (p : Delivery.Payload) : Except Failure Unit := do
  let endpoint ← (Delivery.resolve address.toList w.lookUp).mapError (.unconnected address)
  let session ← (w.printers endpoint settings).mapError (.unconnected address)
  let printer := Delivery.Printer.reconnecting .direct settings.retry
  (printer.deliver native strict p session).1.mapError (.unprinted address)

def print (mode : OutputMode) (file : String) (destination : Destination) (media : MediaChoice)
    (choice : ConfigChoice) : Step Unit := do
  let l ← attempt (w.finished file media choice)
  let size := byteLength l.markup
  let payload := .markup l.markup l.setup.surface.dpi
  let native := l.setup.device.resolution.dpi
  let strict := l.config.strict
  match destination with
  | .dryRun =>
    let (writer, outcome) := Delivery.Writer.deliver {} (some native) strict payload
    attempt (outcome.mapError .undelivered)
    emit (mode.report (.shown size (ofUtf8Lossy writer.stored)))
  | .file path =>
    change (Delivery.deliverToFile w.files path (some native) strict payload) .undelivered
    emit (mode.report (.delivered size path))
  | .printer address settings =>
    attempt (w.sendTo address settings native strict payload)
    emit (mode.report (.delivered size address))

/-! ## Previews -/

def rasterizer : Drawer → Preview.Rasterizer
  | .helper program => Preview.helper w.programs program
  | .service base => w.service ((base.map String.toList).getD Preview.defaultBase)

def drawn (file : String) (drawer : Drawer) (timeout : Time.Duration) (media : MediaChoice)
    (choice : ConfigChoice) : Except Failure (List UInt8 × Media.Setup × Finish.Config) := do
  let setup ← media.setup w.files
  let config ← choice.config w.files
  let s ← w.readInput file
  let png ← (Preview.picture (w.rasterizer drawer) config setup setup.surface timeout
    (.ok s)).mapError (.noPreview file)
  return (png, setup, config)

def preview (mode : OutputMode) (file picture : String) (drawer : Drawer) (timeout : Time.Duration)
    (media : MediaChoice) (choice : ConfigChoice) : Step Unit := do
  let (png, setup, config) ← attempt (w.drawn file drawer timeout media choice)
  change (Delivery.deliverToFile w.files picture (some setup.device.resolution.dpi) config.strict
    (.image png setup.surface.dpi)) .undelivered
  emit (mode.report (.previewed png.length picture))

/-! ## Templates -/

def archive (path : String) : Except Failure Label.Archive :=
  (Label.Archive.load w.files path).mapError .archive

def listTemplates (mode : OutputMode) (path : String) : Step Unit := do
  let a ← attempt (w.archive path)
  emit (mode.report (.templates path a.names))

def rendered (path name : String) (context : Label.Context) (raw : Bool) (media : MediaChoice)
    (choice : ConfigChoice) : Except Failure (List Char × Media.Setup) := do
  let a ← w.archive path
  let setup ← media.setup w.files
  let config ← choice.config w.files
  let expansion := a.render name context config.placeholder
  let markup := if raw then expansion.mapError .source else config.finishResult setup expansion
  return (← markup.mapError (.unfinishedTemplate name), setup)

def renderTemplate (mode : OutputMode) (path name : String) (context : Label.Context) (raw : Bool)
    (media : MediaChoice) (choice : ConfigChoice) : Step Unit := do
  let (markup, setup) ← attempt (w.rendered path name context raw media choice)
  emit (mode.report (.markup markup setup.device.name setup.surface.dpi))

def saveArchive (mode : OutputMode) (path : String) (a : Label.Archive) (r : Report) : Step Unit := do
  change (a.save w.files path true) .archive
  emit (mode.report r)

def addTemplate (mode : OutputMode) (path name body : String) : Step Unit := do
  let a ← attempt (w.archive path)
  let s ← attempt (w.readInput body)
  w.saveArchive mode path (a.insert name s) (.status (.added (a.get? name).isSome) name)

def removeTemplate (mode : OutputMode) (path name : String) : Step Unit := do
  let a ← attempt (w.archive path)
  attempt (if (a.get? name).isSome then .ok () else .error (.noTemplate name))
  w.saveArchive mode path (a.erase name) (.status .removed name)

/-! ## All commands -/

def run (mode : OutputMode) : Command → Step Unit
  | .tokens file => w.tokens mode file
  | .estimate file a => w.estimate mode file a
  | .render file media choice layout => w.render mode file media choice layout
  | .format file minified task => w.format mode file minified task
  | .listTemplates path => w.listTemplates mode path
  | .renderTemplate path name context raw media choice =>
    w.renderTemplate mode path name context raw media choice
  | .addTemplate path name body => w.addTemplate mode path name body
  | .removeTemplate path name => w.removeTemplate mode path name
  | .print file destination media choice => w.print mode file destination media choice
  | .preview file picture drawer timeout media choice =>
    w.preview mode file picture drawer timeout media choice

end Surroundings

/-! ## Answers -/

structure Answer where
  exitCode : Nat
  prints : List Print
  files : Store

def Answer.streams (a : Answer) : Streams where
  output := a.prints.flatMap (·.streams.output)
  errors := a.prints.flatMap (·.streams.errors)

/-- Takes steps to their end. A failure is printed last. -/
def Surroundings.conclude (w : Surroundings) (mode : OutputMode) (x : Step Unit) : Answer :=
  match x.result { files := w.files } with
  | (.ok (), p) => ⟨0, p.prints, p.files⟩
  | (.error (.exited code), p) => ⟨code, p.prints, p.files⟩
  | (.error (.failed f), p) => ⟨1, p.prints ++ [mode.failure w.wording f], p.files⟩

def Surroundings.perform (w : Surroundings) (mode : OutputMode) (c : Command) : Answer :=
  w.conclude mode (w.run mode c)

/-- The exit code of a command line that makes no sense. -/
def misuseCode : Nat := 2

/-- Answers a command line. `usual` is the mode where the user names none. -/
def answer (w : Surroundings) (usual : OutputMode) (words : List String) : Answer :=
  match invocation words with
  | .error e => ⟨misuseCode, [.errors (line ("error: " ++ e.message).toList)], w.files⟩
  | .ok i => w.perform (i.mode.getD usual) i.command

end LabelPress.CommandLine
