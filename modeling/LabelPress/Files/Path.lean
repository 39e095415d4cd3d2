import LabelPress.Files.Access
import LabelPress.Text.Search

/-!
# Paths

A name of a file is a path: steps between slashes, from the directory in which all names start or
from the root. A step is the name of what stands in a directory, or it stays (`.`), or it goes up
(`..`). A location is where the steps have led. Each place has one location, though many paths lead
to it.
-/

namespace LabelPress.Files

open Text

/-- A place. Its steps begin with an empty one if they lead from the root, and else with those that
go up from where names start. All others are names. -/
structure Location where
  steps : List String
  deriving DecidableEq, Repr

namespace Location

/-- The directory in which names start. -/
def start : Location := ⟨[]⟩

/-- The directory in which names start that begin with a slash. -/
def root : Location := ⟨[""]⟩

/-- Whether the place is a directory whatever files there are: the root, the start, or one above
it. -/
def isGiven (l : Location) : Bool :=
  l = root || l.steps.all (· == "..")

/-- The directory above. The root has none above it. -/
def above (l : Location) : Location :=
  if l = root then root
  else if l.isGiven then ⟨l.steps ++ [".."]⟩
  else ⟨l.steps.dropLast⟩

def step (l : Location) (s : String) : Location :=
  if s = "." then l
  else if s = ".." then l.above
  else ⟨l.steps ++ [s]⟩

/-- The shortest name of the place. -/
def key (l : Location) : String :=
  "/".intercalate l.steps

end Location

/-- The most bytes of a name. -/
def longestName : Nat := 4095

def longestStep : Nat := 255

/-- A name, taken apart. -/
structure Path where
  start : Location
  /-- The steps before the last one. Each has to lead into a directory. -/
  way : List String
  last : String
  /-- Whether it ends in a slash. Then only a directory will do. -/
  asksDirectory : Bool
  deriving DecidableEq, Repr

namespace Path

/-- The path that a name gives. A slash that follows another one says nothing. -/
def ofName (name : String) : Except AccessError Path :=
  let s := name.toList
  if s.contains '\x00' then .error .nulInName
  else if s = [] then .error .notFound
  else if longestName < name.utf8ByteSize then .error .nameTooLong
  else
    let steps := ((fields '/' s).filter (· ≠ [])).map String.ofList
    .ok ⟨if s.head? = some '/' then .root else .start, steps.dropLast, steps.getLast?.getD ".",
      s.getLast? = some '/'⟩

def endsInDots (p : Path) : Bool :=
  p.last = "." || p.last = ".."

def through (here : Location) : List String → List Location
  | [] => []
  | s :: steps => here.step s :: through (here.step s) steps

/-- The places that the path leads through, and the one that it leads to. -/
def places (p : Path) : List Location :=
  through p.start (p.way ++ [p.last])

end Path

end LabelPress.Files
