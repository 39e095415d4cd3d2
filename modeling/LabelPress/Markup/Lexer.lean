import LabelPress.Markup.Token
import LabelPress.Text.Alphanumeric
import LabelPress.Text.Blank
import LabelPress.Text.Bytes
import LabelPress.Text.Search

/-!
# Reading commands

`tokenize` reads any text and never fails. Text before a leader is skipped, and so is a leader
without mnemonic. Field data without terminator runs to the end of the text.
-/

namespace LabelPress.Markup

open Text

/-- The mnemonic at the beginning of the text and what follows it. A mnemonic is one or two letters
or digits, and `A` stands alone or with an `@`. -/
def mnemonic? : List Char → Option (List Char × List Char)
  | [] => none
  | c :: s =>
    if !isAlphanumeric c then none
    else if c = 'A' then
      match s with
      | '@' :: t => some (['A', '@'], t)
      | _ => some (['A'], s)
    else
      match s with
      | d :: t => if isAlphanumeric d then some ([c, d], t) else some ([c], s)
      | [] => some ([c], [])

theorem eq_append_of_mnemonic? {s name t : List Char} (h : mnemonic? s = some (name, t)) :
    s = name ++ t := by
  unfold mnemonic? at h
  grind

/-- What stands after a mnemonic: the parameters as written, what closes them, and the rest of the
text. -/
structure Body where
  params : List Char
  closing : List Char
  rest : List Char

/-- What stands after the mnemonic `name`. Field data is closed by its terminator, all else by the
next leader, which begins the rest. -/
def body (l : Leaders) (name s : List Char) : Body :=
  if name = fieldData then
    match cut? l.terminator s with
    | some (payload, t) => ⟨payload, l.terminator, t⟩
    | none => ⟨s, [], []⟩
  else ⟨s.takeWhile (!l.isLeader ·), [], s.dropWhile (!l.isLeader ·)⟩

theorem body_append (l : Leaders) (name s : List Char) :
    (body l name s).params ++ (body l name s).closing ++ (body l name s).rest = s := by
  unfold body
  split
  · split
    · next h => exact (eq_append_of_cut? h).symm
    · simp
  · simp

theorem length_rest_le (l : Leaders) (name s : List Char) :
    (body l name s).rest.length ≤ s.length := by
  have := congrArg List.length (body_append l name s)
  simp at this
  omega

/-- The command with this mnemonic and these parameters as written: blanks around parameters do not
count, field data is kept as it is. -/
def command (name params : List Char) (start stop : Nat) : Token :=
  ⟨name, if name = fieldData then params else trim params, start, stop⟩

/-- The commands of a text that begins at an offset. -/
def scan (l : Leaders) (offset : Nat) : List Char → List Token
  | [] => []
  | c :: s =>
    let next := offset + c.utf8Size
    if l.isLeader c then
      match _h : mnemonic? s with
      | none => scan l next s
      | some (name, t) =>
        let b := body l name t
        let stop := next + byteLength (name ++ b.params ++ b.closing)
        command name b.params offset stop :: scan l stop b.rest
    else scan l next s
termination_by s => s.length
decreasing_by
  · simp
  · have := congrArg List.length (eq_append_of_mnemonic? _h)
    have := length_rest_le l name t
    simp at *
    omega
  · simp

/-- The commands of a text. -/
def tokenize (l : Leaders) (s : List Char) : List Token :=
  scan l 0 s

end LabelPress.Markup
