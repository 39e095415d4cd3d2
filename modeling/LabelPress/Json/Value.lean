import LabelPress.Number.Integer

/-!
# JSON values and their text

A value is written on one line, or with a line for each item and two spaces for each level.
-/

namespace LabelPress.Json

open Number

/-- The number `mantissa * 10 ^ exponent`. -/
structure Decimal where
  mantissa : Int
  exponent : Int := 0
  deriving DecidableEq, Repr

/-- A JSON value. Members of an object keep the order they are written in. -/
inductive Value where
  | null
  | bool (b : Bool)
  | number (d : Decimal)
  | string (s : String)
  | array (items : List Value)
  | object (members : List (String × Value))
  deriving Repr

namespace Value

def int (n : Int) : Value := .number ⟨n, 0⟩

def uint32 (n : UInt32) : Value := .int n.toNat

def text (s : List Char) : Value := .string (String.ofList s)

def optional (f : α → Value) : Option α → Value
  | some a => f a
  | none => .null

end Value

/-! ## Strings -/

def hex4 (n : Nat) : List Char :=
  let digits := Nat.toDigits 16 n
  List.replicate (4 - digits.length) '0' ++ digits

def escape (c : Char) : List Char :=
  if c = '"' ∨ c = '\\' then ['\\', c]
  else if c = '\x08' then ['\\', 'b']
  else if c = '\t' then ['\\', 't']
  else if c = '\n' then ['\\', 'n']
  else if c = '\x0C' then ['\\', 'f']
  else if c = '\r' then ['\\', 'r']
  else if c.toNat < 0x20 then ['\\', 'u'] ++ hex4 c.toNat
  else [c]

def quoted (s : String) : List Char :=
  '"' :: s.toList.flatMap escape ++ ['"']

/-! ## Values -/

/-- How a value is laid out: on one line, or with lines of its own at this depth. -/
abbrev Depth := Option Nat

def lineBreak : Depth → List Char
  | none => []
  | some n => '\n' :: List.replicate (2 * n) ' '

def deeper (depth : Depth) : Depth :=
  depth.map (· + 1)

def colon : Depth → List Char
  | none => [':']
  | some _ => [':', ' ']

/-- A number: digits, and a power of ten where there is one. -/
def Decimal.text (d : Decimal) : List Char :=
  if d.exponent = 0 then signedDecimal d.mantissa
  else signedDecimal d.mantissa ++ 'e' :: signedDecimal d.exponent

mutual

def Value.render (depth : Depth) : Value → List Char
  | .null => "null".toList
  | .bool b => if b then "true".toList else "false".toList
  | .number d => d.text
  | .string s => quoted s
  | .array [] => ['[', ']']
  | .array (v :: vs) =>
    '[' :: (lineBreak (deeper depth) ++ v.render (deeper depth) ++ renderItems (deeper depth) vs)
      ++ lineBreak depth ++ [']']
  | .object [] => ['{', '}']
  | .object ((k, v) :: ms) =>
    '{' :: (lineBreak (deeper depth) ++ quoted k ++ colon depth ++ v.render (deeper depth)
      ++ renderMembers (deeper depth) ms) ++ lineBreak depth ++ ['}']

def renderItems (depth : Depth) : List Value → List Char
  | [] => []
  | v :: vs => ',' :: (lineBreak depth ++ v.render depth ++ renderItems depth vs)

def renderMembers (depth : Depth) : List (String × Value) → List Char
  | [] => []
  | (k, v) :: ms =>
    ',' :: (lineBreak depth ++ quoted k ++ colon depth ++ v.render depth ++ renderMembers depth ms)

end

def Value.compact (v : Value) : List Char :=
  v.render none

def Value.pretty (v : Value) : List Char :=
  v.render (some 0)

end LabelPress.Json
