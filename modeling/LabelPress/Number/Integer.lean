/-!
# Whole numbers as text

A whole number is written with decimal digits and may carry a sign. Readers take a range: a number
out of it is refused, not cut.
-/

namespace LabelPress.Number

def digit? (c : Char) : Option Nat :=
  if c.isDigit then some (c.toNat - '0'.toNat) else none

def hexDigit? (c : Char) : Option Nat :=
  if c.isDigit then some (c.toNat - 0x30)
  else if 'a' ≤ c ∧ c ≤ 'f' then some (c.toNat - 0x61 + 10)
  else if 'A' ≤ c ∧ c ≤ 'F' then some (c.toNat - 0x41 + 10)
  else none

/-- The number whose digits follow those of `value`. -/
def digitsFrom (value : Nat) : List Char → Option Nat
  | [] => some value
  | c :: s =>
    match digit? c with
    | some d => digitsFrom (10 * value + d) s
    | none => none

def digits? : List Char → Option Nat
  | [] => none
  | s => digitsFrom 0 s

def signed? : List Char → Option Int
  | '-' :: s => (digits? s).map fun n => -(n : Int)
  | '+' :: s => (digits? s).map fun n => (n : Int)
  | s => (digits? s).map fun n => (n : Int)

def unsigned? : List Char → Option Nat
  | '+' :: s => digits? s
  | s => digits? s

def minInt64 : Int := -9223372036854775808

def maxInt64 : Int := 9223372036854775807

def int64? (s : List Char) : Option Int :=
  (signed? s).filter fun n => minInt64 ≤ n && n ≤ maxInt64

def uint64? (s : List Char) : Option UInt64 :=
  (unsigned? s).bind fun n => if n < UInt64.size then some (UInt64.ofNat n) else none

def uint16? (s : List Char) : Option UInt16 :=
  (unsigned? s).bind fun n => if n < UInt16.size then some (UInt16.ofNat n) else none

/-- A number of 32 bits without sign, written as a signed number. -/
def uint32? (s : List Char) : Option UInt32 :=
  (int64? s).bind fun n =>
    if 0 ≤ n ∧ n < UInt32.size then some (UInt32.ofNat n.toNat) else none

def decimal (n : Nat) : List Char :=
  Nat.toDigits 10 n

def signedDecimal : Int → List Char
  | .ofNat n => decimal n
  | .negSucc n => '-' :: decimal (n + 1)

end LabelPress.Number
