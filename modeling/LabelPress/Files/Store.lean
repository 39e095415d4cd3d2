import LabelPress.Files.Path
import LabelPress.NameMap
import LabelPress.Text.Utf8

/-!
# Files

A store holds files and directories by location. Every operation says why it fails, and a failed one
changes nothing.
-/

namespace LabelPress.Files

open Text

inductive Entry where
  | file (bytes : List UInt8)
  | directory
  deriving DecidableEq

/-- Files and directories by the keys of their locations. -/
structure Store where
  entries : NameMap Entry
  deriving DecidableEq

namespace Store

def empty : Store := ⟨.empty⟩

def put (s : Store) (l : Location) (e : Entry) : Store :=
  ⟨s.entries.insert l.key e⟩

def clear (s : Store) (l : Location) : Store :=
  ⟨s.entries.erase l.key⟩

/-! ## Following a path -/

def entryAt (s : Store) (l : Location) : Except AccessError Entry :=
  if l.isGiven then .ok .directory
  else if l.steps.any (longestStep < ·.utf8ByteSize) then .error .nameTooLong
  else
    match s.entries.get? l.key with
    | some e => .ok e
    | none => .error .notFound

def enter (s : Store) (here : Location) (step : String) : Except AccessError Location :=
  let there := here.step step
  match s.entryAt there with
  | .ok .directory => .ok there
  | .ok (.file _) => .error .notDirectory
  | .error e => .error e

/-- Where a path leads. Something need not stand there. -/
def locate (s : Store) (p : Path) : Except AccessError Location := do
  let here ← p.way.foldlM s.enter p.start
  return here.step p.last

/-! ## Reading -/

def lookup (s : Store) (name : String) : Except AccessError Entry := do
  let p ← Path.ofName name
  match ← s.entryAt (← s.locate p) with
  | .directory => return .directory
  | .file bytes => if p.asksDirectory then throw .notDirectory else return .file bytes

def read (s : Store) (name : String) : Except AccessError (List UInt8) := do
  match ← s.lookup name with
  | .file bytes => return bytes
  | .directory => throw .isDirectory

def readText (s : Store) (name : String) : Except AccessError (List Char) := do
  match ofUtf8? (← s.read name) with
  | some text => return text
  | none => throw .notText

/-! ## Writing -/

/-- The store with the bytes under a name. The file is made if it is not there, but not the
directory that it stands in. -/
def write (s : Store) (name : String) (bytes : List UInt8) : Except AccessError Store := do
  let p ← Path.ofName name
  let l ← s.locate p
  if p.asksDirectory then throw .isDirectory
  match s.entryAt l with
  | .ok .directory => throw .isDirectory
  | .ok (.file _) | .error .notFound => return s.put l (.file bytes)
  | .error e => throw e

/-- The store with a file moved to a name, in the place of a file that has it. -/
def rename (s : Store) (old new : String) : Except AccessError Store := do
  let p ← Path.ofName old
  let q ← Path.ofName new
  let source ← s.locate p
  let target ← s.locate q
  if p.endsInDots || q.endsInDots then throw .busy
  match ← s.entryAt source with
  | .directory => throw .isDirectory
  | .file bytes =>
    if p.asksDirectory || q.asksDirectory then throw .notDirectory
    let moved ← s.write new bytes
    return if source = target then moved else moved.clear source

/-- Takes a step into a directory, which is made if nothing is there. -/
def makeStep (here : Store × Location) (step : String) : Except AccessError (Store × Location) :=
  let there := here.2.step step
  match here.1.enter here.2 step with
  | .ok l => .ok (here.1, l)
  | .error .notFound => .ok (here.1.put there .directory, there)
  | .error e => .error e

/-- The store with a directory, and with those on the way to it. -/
def makeDirectory (s : Store) (name : String) : Except AccessError Store := do
  let p ← Path.ofName name
  return (← (p.way ++ [p.last]).foldlM makeStep (s, p.start)).1

/-! ## Replacing a file -/

structure Failure where
  name : String
  cause : AccessError
  deriving DecidableEq, Repr

/-- Writes the bytes under a temporary name and moves the file into place. So a reader finds the old
file or the new one. Gives the store that is left, whether or not it went well. -/
def replace (s : Store) (temporary name : String) (bytes : List UInt8) :
    Store × Except Failure Unit :=
  match s.write temporary bytes with
  | .error e => (s, .error ⟨temporary, e⟩)
  | .ok written =>
    match written.rename temporary name with
    | .error e => (written, .error ⟨name, e⟩)
    | .ok moved => (moved, .ok ())

end Store

end LabelPress.Files
