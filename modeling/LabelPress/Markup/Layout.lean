import LabelPress.Markup.Token
import LabelPress.Text.Blank
import LabelPress.Text.Search

/-!
# Laying out a label

A label is laid out with one line for each command, or with no blank at all. Both layouts keep field
data as it is and leave out what belongs to no command.
-/

namespace LabelPress.Markup

open Text

inductive Style where
  /-- One command on each line. -/
  | pretty
  /-- No blanks outside field data. -/
  | minified
  deriving DecidableEq, Repr

/-- The most letters of a mnemonic here. -/
def longestCode : Nat := 3

/-- The letters that begin the text, up to the longest mnemonic. -/
def letters (s : List Char) : List Char :=
  (s.takeWhile Char.isUpper).take longestCode

/-- The mnemonic of these letters. Letters after the mnemonic of field data are its payload. -/
def codeOf (code : List Char) : List Char :=
  if fieldData.isPrefixOf code then fieldData else code

/-- Runs of two or more blanks become one space. A single blank stays as it is. -/
def squeeze : List Char → List Char
  | [] => []
  | [c] => [c]
  | c :: d :: s =>
    if isBlank c && isBlank d then ' ' :: squeeze (s.dropWhile isBlank)
    else c :: squeeze (d :: s)
termination_by s => s.length
decreasing_by
  · have := (List.dropWhile_suffix isBlank (l := s)).length_le
    simp
    omega
  · simp

def Style.params : Style → List Char → List Char
  | .pretty, s => [','].intercalate ((fields ',' s).map fun f => squeeze (trim f))
  | .minified, s => dropBlanks s

/-- The line of a command and the text after the command. -/
def line (style : Style) (leader : Char) (code s : List Char) : List Char × List Char :=
  if code = fieldData then
    match cut? ({} : Leaders).terminator s with
    | some (payload, t) => (trim (leader :: code ++ payload ++ ({} : Leaders).terminator), t)
    | none => (trim (leader :: code ++ s), [])
  else
    let params := s.takeWhile (!({} : Leaders).isLeader ·)
    (leader :: code ++ style.params params, s.dropWhile (!({} : Leaders).isLeader ·))

theorem length_line_le (style : Style) (leader : Char) (code s : List Char) :
    (line style leader code s).2.length ≤ s.length := by
  unfold line
  split
  · split
    · next h =>
      have := congrArg List.length (eq_append_of_cut? h)
      simp at this ⊢
      omega
    · simp
  · exact (List.dropWhile_suffix _).length_le

/-- The lines of a text without carriage returns before line feeds. -/
def linesOf (style : Style) : List Char → List (List Char)
  | [] => []
  | c :: s =>
    if ({} : Leaders).isLeader c then
      let code := codeOf (letters s)
      if code = [] then linesOf style s
      else
        let l := line style c code (s.drop code.length)
        l.1 :: linesOf style l.2
    else linesOf style s
termination_by s => s.length
decreasing_by
  · simp
  · have := length_line_le style c (codeOf (letters s)) (s.drop (codeOf (letters s)).length)
    simp at *
    omega
  · simp

def lines (style : Style) (s : List Char) : List (List Char) :=
  linesOf style (replaceAll ['\r', '\n'] ['\n'] s)

def pretty (s : List Char) : List Char :=
  ['\n'].intercalate (lines .pretty s)

def minify (s : List Char) : List Char :=
  (lines .minified s).flatten

end LabelPress.Markup
