import LabelPress.Json.Numeral
import LabelPress.Text.Bytes

/-!
# JSON text as it is met

A reader goes through a text once and stops at the first thing it cannot use. What counts as the
first depends on what it looks for, so the text becomes a tree that holds its own faults: each stands
where a reader would meet it.
-/

namespace LabelPress.Json

open Number

inductive Fault where
  | malformed
  | truncated
  | mismatched
  deriving DecidableEq, Repr

/-- What a reader says of a fault. It tells where the reader was and what it had expected there, so the words
are left to the program that reads. -/
abbrev Wording := Fault → String

/-- The plainest wording: the kind of the fault alone. -/
def Fault.kind : Wording
  | malformed => "malformed"
  | truncated => "truncated"
  | mismatched => "mismatched"

/-- A token read with care, and what a reader meets that only passes over it. -/
structure Scan (α : Type) where
  value : Except Fault α
  passing : Option Fault

def Scan.good (a : α) : Scan α := ⟨.ok a, none⟩

def Scan.bad (f : Fault) : Scan α := ⟨.error f, some f⟩

inductive Word where
  | null
  | bool (b : Bool)
  deriving DecidableEq, Repr

inductive Node where
  | absent (fault : Fault)
  | word (w : Except Fault Word)
  | numeral (n : Scan Numeral)
  | string (s : Scan String)
  /-- Items, and a fault where the array should go on or end. -/
  | array (items : List Node) (ending : Option Fault)
  /-- Members, and a fault where the object should go on or end. -/
  | object (members : List (Scan String × Node)) (ending : Option Fault)

/-! ## Strings -/

/-- A piece of a string: a character, or an escape by number. -/
inductive Piece where
  | char (c : Char)
  | unit (n : Nat)
  deriving DecidableEq, Repr

def hexUnit? (a b c d : Char) : Option Nat := do
  let a ← hexDigit? a
  let b ← hexDigit? b
  let c ← hexDigit? c
  let d ← hexDigit? d
  return 0x1000 * a + 0x100 * b + 0x10 * c + d

def unescape? (c : Char) : Option Char :=
  if c = '"' ∨ c = '\\' ∨ c = '/' then some c
  else if c = 'b' then some '\x08'
  else if c = 'f' then some '\x0C'
  else if c = 'n' then some '\n'
  else if c = 'r' then some '\r'
  else if c = 't' then some '\t'
  else none

/-- The pieces of a string up to its closing quote, a fault if there is one, and the text after the
string. -/
def pieces : List Char → List Piece × Option Fault × List Char
  | [] => ([], some .truncated, [])
  | '"' :: s => ([], none, s)
  | '\\' :: 'u' :: a :: b :: c :: d :: s =>
    match hexUnit? a b c d with
    | none => ([], some .malformed, [])
    | some n =>
      let (ps, fault, t) := pieces s
      (.unit n :: ps, fault, t)
  | '\\' :: 'u' :: s => ([], some (if Text.byteLength s < 4 then .truncated else .malformed), [])
  | ['\\'] => ([], some .truncated, [])
  | '\\' :: c :: s =>
    match unescape? c with
    | none => ([], some .malformed, [])
    | some d =>
      let (ps, fault, t) := pieces s
      (.char d :: ps, fault, t)
  | c :: s =>
    if c.toNat < 0x20 then ([], some .malformed, [])
    else
      let (ps, fault, t) := pieces s
      (.char c :: ps, fault, t)

def isHigh (n : Nat) : Bool := 0xD800 ≤ n && n < 0xDC00

def isLow (n : Nat) : Bool := 0xDC00 ≤ n && n < 0xE000

def pairChar (high low : Nat) : Char :=
  Char.ofNat (0x10000 + 0x400 * (high - 0xD800) + (low - 0xDC00))

/-- The characters of the pieces. Half of a pair is a fault. -/
def assemble (fault : Option Fault) : List Piece → Except Fault (List Char)
  | [] =>
    match fault with
    | none => .ok []
    | some f => .error f
  | .char c :: ps => (assemble fault ps).map (c :: ·)
  | .unit n :: ps =>
    if isLow n then .error .malformed
    else if isHigh n then
      match ps with
      | .unit m :: qs =>
        if isLow m then (assemble fault qs).map (pairChar n m :: ·) else .error .malformed
      | .char _ :: _ => .error .malformed
      | [] => .error (fault.getD .malformed)
    else (assemble fault ps).map (Char.ofNat n :: ·)

/-- The string after its opening quote, and the text after it. -/
def scanString (s : List Char) : Scan String × List Char :=
  let (ps, fault, t) := pieces s
  (⟨(assemble fault ps).map String.ofList, fault⟩, t)

/-! ## Numbers and words -/

/-- A fault in a number: at the end of the text it is cut short, unless it is only passed over. -/
def numeralFault : List Char → Scan Numeral
  | [] => ⟨.error .truncated, some .malformed⟩
  | _ :: _ => .bad .malformed

/-- The power of ten of a number, and the text after it. -/
def scanExponent (n : Numeral) (s : List Char) : Scan Numeral × List Char :=
  let (minus, t) : Bool × List Char :=
    match s with
    | '+' :: t => (false, t)
    | '-' :: t => (true, t)
    | t => (false, t)
  let digits := t.takeWhile Char.isDigit
  let u := t.dropWhile Char.isDigit
  if digits = [] then (numeralFault u, [])
  else (.good { n with exponent := some (minus, digits) }, u)

/-- The power of ten of a number, if one stands here. -/
def scanPower (n : Numeral) : List Char → Scan Numeral × List Char
  | [] => (.good n, [])
  | c :: s => if c = 'e' ∨ c = 'E' then scanExponent n s else (.good n, c :: s)

def scanFraction (n : Numeral) : List Char → Scan Numeral × List Char
  | '.' :: s =>
    let digits := s.takeWhile Char.isDigit
    let t := s.dropWhile Char.isDigit
    if digits = [] then (numeralFault t, []) else scanPower { n with fraction := some digits } t
  | s => scanPower n s

/-- A number without its sign, and the text after it. A zero in front stands alone. -/
def scanNumeral (negative : Bool) (s : List Char) : Scan Numeral × List Char :=
  let digits := s.takeWhile Char.isDigit
  let t := s.dropWhile Char.isDigit
  if digits = [] then (numeralFault t, [])
  else if digits.head? = some '0' ∧ digits ≠ ['0'] then (.bad .malformed, [])
  else scanFraction ⟨negative, digits, none, none⟩ t

def scanWord (w : Word) : List Char → List Char → Except Fault Word × List Char
  | [], s => (.ok w, s)
  | _ :: _, [] => (.error .truncated, [])
  | c :: cs, d :: s => if c = d then scanWord w cs s else (.error .malformed, [])

/-! ## Values -/

/-- The four blanks of JSON. -/
def isSpace (c : Char) : Bool :=
  c == ' ' || c == '\n' || c == '\t' || c == '\r'

def skip (s : List Char) : List Char :=
  s.dropWhile isSpace

/-- The fault of text that does not go on as it should. -/
def endFault : List Char → Fault
  | [] => .truncated
  | _ :: _ => .malformed

mutual

/-- The value at the beginning of the text, and the text after it. The fuel bounds the number of
steps. -/
def scanValue : Nat → List Char → Node × List Char
  | 0, _ => (.absent .truncated, [])
  | fuel + 1, s =>
    match skip s with
    | [] => (.absent .truncated, [])
    | '"' :: t =>
      let (str, u) := scanString t
      (.string str, u)
    | '[' :: t =>
      match skip t with
      | [] => (.array [] (some .truncated), [])
      | ']' :: u => (.array [] none, u)
      | u =>
        let (items, ending, v) := scanItems fuel u
        (.array items ending, v)
    | '{' :: t =>
      match skip t with
      | [] => (.object [] (some .truncated), [])
      | '}' :: u => (.object [] none, u)
      | '"' :: u =>
        let (members, ending, v) := scanMembers fuel u
        (.object members ending, v)
      | _ => (.object [] (some .malformed), [])
    | 'n' :: t =>
      let (w, u) := scanWord .null "ull".toList t
      (.word w, u)
    | 't' :: t =>
      let (w, u) := scanWord (.bool true) "rue".toList t
      (.word w, u)
    | 'f' :: t =>
      let (w, u) := scanWord (.bool false) "alse".toList t
      (.word w, u)
    | '-' :: t =>
      let (n, u) := scanNumeral true t
      (.numeral n, u)
    | c :: t =>
      if c.isDigit then
        let (n, u) := scanNumeral false (c :: t)
        (.numeral n, u)
      else (.absent .malformed, [])

/-- The items of an array from the next one on, a fault if it does not end, and the text after it. -/
def scanItems : Nat → List Char → List Node × Option Fault × List Char
  | 0, _ => ([], some .truncated, [])
  | fuel + 1, s =>
    let (v, t) := scanValue fuel s
    match skip t with
    | ']' :: u => ([v], none, u)
    | ',' :: u =>
      let (items, ending, w) := scanItems fuel u
      (v :: items, ending, w)
    | u => ([v], some (endFault u), [])

/-- The members of an object after the opening quote of the next name, a fault if it does not end,
and the text after it. -/
def scanMembers : Nat → List Char → List (Scan String × Node) × Option Fault × List Char
  | 0, _ => ([], some .truncated, [])
  | fuel + 1, s =>
    let (name, t) := scanString s
    match skip t with
    | ':' :: u =>
      let (v, w) := scanValue fuel u
      match skip w with
      | '}' :: x => ([(name, v)], none, x)
      | ',' :: x =>
        match skip x with
        | '"' :: y =>
          let (members, ending, z) := scanMembers fuel y
          ((name, v) :: members, ending, z)
        | y => ([(name, v), (.bad (endFault y), .absent (endFault y))], none, [])
      | x => ([(name, v)], some (endFault x), [])
    | u => ([(name, .absent (endFault u))], none, [])

end

def scan (s : List Char) : Node × List Char :=
  scanValue (s.length + 1) s

end LabelPress.Json
