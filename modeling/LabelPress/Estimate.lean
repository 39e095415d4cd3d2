import LabelPress.Markup.Lexer
import LabelPress.Number.Saturating

/-!
# The length of a label

A walk over the commands follows the home position, the field origin and the font, and keeps how far
down anything reaches. The length the label asks for itself is kept apart, and the longer of the two
is the estimate.
-/

namespace LabelPress.Estimate

open Markup Number Text

/-! ## What the walk assumes and what it finds -/

/-- Sizes in dots where the label leaves them open. -/
structure Assumptions where
  fontHeight : UInt32 := 30
  lineGap : UInt32 := 2
  barcodeHeight : UInt32 := 100
  deriving DecidableEq, Repr

/-- How long a label is, in dots. -/
structure Extent where
  /-- How far down its contents reach. -/
  structural : UInt32
  /-- The length it asks for. -/
  explicit : Option UInt32
  /-- The longer of the two. -/
  dots : UInt32
  deriving DecidableEq, Repr

/-- Where the walk stands. Coordinates are 64 bit integers. -/
structure Layout where
  /-- The height of the home position, which every field origin adds. -/
  homeY : Int := 0
  fieldY : Int := 0
  fontHeight : Int
  bottom : Int := 0
  explicit : Option Int := none
  deriving DecidableEq, Repr

/-! ## Parameters -/

/-- The parameters between commas that are whole numbers. -/
def numbers (params : List Char) : List (Option Int) :=
  (fields ',' params).map fun f => int64? (trim f)

def number? (params : List Char) (index : Nat) : Option Int :=
  ((numbers params)[index]?).join

/-- The first parameter that is a number. -/
def firstNumber? (params : List Char) : Option Int :=
  (numbers params).findSome? id

/-- How many lines a payload has: the escape for a line break counts as one, and so does each way
to write a real one. -/
def lineCount (payload : List Char) : Nat :=
  let escapes := replaceAll ['\\', '&'] ['\n'] payload
  let pairs := replaceAll ['\r', '\n'] ['\n'] escapes
  (fields '\n' (replaceAll ['\r'] ['\n'] pairs)).length

/-! ## The walk -/

/-- Contents of a height reach down from the field origin. -/
def Layout.extend (y : Layout) (height : Int) : Layout :=
  { y with bottom := max y.bottom (addInt64 y.fieldY height) }

def Layout.textHeight (y : Layout) (a : Assumptions) (lines : Nat) : Int :=
  addInt64 (mulInt64 lines y.fontHeight) (mulInt64 (lines - 1) a.lineGap.toNat)

/-- The height that a bar code states. A first parameter of at most one character is its
orientation, and the height follows it. -/
def barcodeHeight? (params : List Char) : Option Int :=
  let orientation := trim ((fields ',' params).headD [])
  if orientation.length ≤ 1 then number? params 1 else number? params 0

/-- One command of the walk. Commands that place nothing change nothing. -/
def Layout.step (a : Assumptions) (y : Layout) (t : Token) : Layout :=
  if t.name = ['L', 'H'] then { y with homeY := (number? t.params 1).getD 0 }
  else if t.name = ['F', 'O'] then
    { y with fieldY := addInt64 ((number? t.params 1).getD 0) y.homeY }
  else if t.name = ['A'] ∨ t.name = ['A', '@'] ∨ t.name = ['C', 'F'] then
    { y with fontHeight := (firstNumber? t.params).getD y.fontHeight }
  else if t.name = ['B', 'C'] then
    y.extend ((barcodeHeight? t.params).getD a.barcodeHeight.toNat)
  else if t.name = ['G', 'B'] then
    match number? t.params 1 with
    | some h => y.extend h
    | none => y
  else if t.name = ['L', 'L'] then
    match number? t.params 0 with
    | some n => { y with explicit := some (max n (y.explicit.getD n)) }
    | none => y
  else if t.name = fieldData then y.extend (y.textHeight a (lineCount t.params))
  else y

def Layout.extent (y : Layout) : Extent :=
  let structural := clampUInt32 y.bottom
  let explicit := y.explicit.map clampUInt32
  ⟨structural, explicit, max structural (explicit.getD 0)⟩

def ofTokens (a : Assumptions) (ts : List Token) : Extent :=
  (ts.foldl (Layout.step a) { fontHeight := a.fontHeight.toNat }).extent

def ofMarkup (a : Assumptions) (s : List Char) : Extent :=
  ofTokens a (tokenize {} s)

end LabelPress.Estimate
