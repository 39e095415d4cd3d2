import LabelPress.Label.Error
import LabelPress.Text.Blank
import LabelPress.Text.Bytes

/-!
# Templates

A template is text with tags. A variable stands between double braces and gives way to its value. The
length tag marks where the length of the label goes.
-/

namespace LabelPress.Label

open Text

abbrev Context := NameMap (List Char)

/-- The two kinds of tags. -/
inductive TagKind where
  /-- Gives way to the value of a variable. -/
  | variable
  /-- Gives way to what its name stands for. -/
  | block
  deriving DecidableEq, Repr

def TagKind.sign : TagKind → Char
  | .variable => '{'
  | .block => '%'

def TagKind.closing : TagKind → List Char
  | .variable => ['}', '}']
  | .block => ['%', '}']

/-- The kind of the tag that begins with a brace and this character. -/
def TagKind.ofSign? (c : Char) : Option TagKind :=
  if c = '{' then some .variable else if c = '%' then some .block else none

/-- The block that stands for the length of the label. -/
def lengthTag : List Char := ['l', 'l']

/-- What a tag with this name gives way to. A variable without value gives way to nothing. -/
def TagKind.value (context : Context) (placeholder : List Char) (name : List Char) :
    TagKind → Except SourceError (List Char)
  | .variable => .ok ((context.get? (String.ofList name)).getD [])
  | .block => if name = lengthTag then .ok placeholder else .error (.unknownTag name)

/-- The text with its tags expanded, from an offset in the template on. -/
def expandFrom (context : Context) (placeholder : List Char) (offset : Nat) :
    List Char → Except SourceError (List Char)
  | [] => .ok []
  | [c] => .ok [c]
  | c :: d :: s =>
    match if c = '{' then TagKind.ofSign? d else none with
    | none => (expandFrom context placeholder (offset + c.utf8Size) (d :: s)).map (c :: ·)
    | some kind =>
      match _h : cut? kind.closing s with
      | none => .error (.unterminatedTag offset)
      | some (inner, rest) => do
        let value ← kind.value context placeholder (trim inner)
        let next := offset + byteLength (c :: d :: inner ++ kind.closing)
        return value ++ (← expandFrom context placeholder next rest)
termination_by s => s.length
decreasing_by
  · simp
  · have := congrArg List.length (eq_append_of_cut? _h)
    simp at this ⊢
    omega

def expand (context : Context) (placeholder template : List Char) :
    Except SourceError (List Char) :=
  expandFrom context placeholder 0 template

end LabelPress.Label
