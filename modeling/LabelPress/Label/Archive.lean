import LabelPress.Json.Record
import LabelPress.Label.Template

/-!
# Template archives

An archive keeps templates by name. It is stored as a JSON document and replaced as a whole.
-/

namespace LabelPress.Label

open Files Json

def currentVersion : UInt32 := 1

structure Archive where
  version : UInt32 := currentVersion
  templates : NameMap (List Char) := .empty
  deriving DecidableEq

namespace Archive

/-! ## Templates -/

def names (a : Archive) : List String := a.templates.names

def get? (a : Archive) (name : String) : Option (List Char) := a.templates.get? name

def insert (a : Archive) (name : String) (body : List Char) : Archive :=
  { a with templates := a.templates.insert name body }

def erase (a : Archive) (name : String) : Archive :=
  { a with templates := a.templates.erase name }

/-- What the length tag gives way to unless another text is asked for. -/
def defaultPlaceholder : List Char := "<<LL_MARKER>>".toList

def render (a : Archive) (name : String) (context : Context) (placeholder : List Char) :
    Except SourceError (List Char) :=
  match a.get? name with
  | some body => expand context placeholder body
  | none => .error (.templateNotFound name)

/-! ## Stored form -/

def toJson (a : Archive) : Value :=
  .object [("version", .uint32 a.version),
    ("templates", .object (a.templates.toList.map fun (name, body) => (name, .text body)))]

/-- Reads templates. Of two with the same name the later stays. -/
def templatesDecoder : Decoder (NameMap (List Char)) := fun v =>
  (members text v).map NameMap.ofList

def record : Record Archive :=
  Archive.mk <$> .optional "version" uint32 currentVersion
    <*> .optional "templates" templatesDecoder .empty

def ofText (s : List Char) : Except SourceError Archive :=
  (decode record.decoder s).mapError .archive

/-- The document of an archive, on one line or with a line for each member. -/
def document (a : Archive) (pretty : Bool) : List Char :=
  if pretty then a.toJson.pretty else a.toJson.compact

/-! ## Files -/

def temporaryName (path : String) : String := path ++ ".tmp"

/-- The archive in a file. A file that is not there is an archive without templates. -/
def load (files : Store) (path : String) : Except SourceError Archive :=
  match files.readText path with
  | .ok s => ofText s
  | .error .notFound => .ok {}
  | .error e => .error (.access ⟨path, e⟩)

/-- Puts the archive into a file. Gives the files that are left. -/
def save (a : Archive) (files : Store) (path : String) (pretty : Bool) :
    Store × Except SourceError Unit :=
  match files.replace (temporaryName path) path (Text.utf8 (a.document pretty)) with
  | (left, .ok ()) => (left, .ok ())
  | (left, .error f) => (left, .error (.access f))

end Archive

end LabelPress.Label
