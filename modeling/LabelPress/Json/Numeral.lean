import LabelPress.Json.Value

/-!
# Written numbers

A number in JSON text is kept as it is written, until a reader asks for a whole number or for a
double. A double is read from the leading digits that fit into 64 bits and one power of ten, which
is not always the nearest double.
-/

namespace LabelPress.Json

open Number

/-- A number as written. -/
structure Numeral where
  negative : Bool
  whole : List Char
  fraction : Option (List Char)
  /-- The power of ten, with its sign, if there is one. -/
  exponent : Option (Bool × List Char)
  deriving DecidableEq, Repr

namespace Numeral

def value (digits : List Char) : Nat :=
  (digitsFrom 0 digits).getD 0

/-! ## Whole numbers -/

def isWhole (n : Numeral) : Bool :=
  n.fraction.isNone && n.exponent.isNone

/-- The whole number, if it is written as one and fits into 64 bits. A negative zero is none. -/
def integer? (n : Numeral) : Option Int :=
  let m := value n.whole
  if !n.isWhole then none
  else if n.negative then
    if 0 < m ∧ (m : Int) ≤ -minInt64 then some (-(m : Int)) else none
  else if m < UInt64.size then some m else none

def decimal (n : Numeral) : Decimal :=
  let fraction := n.fraction.getD []
  let m : Int := value (n.whole ++ fraction)
  let e : Int :=
    match n.exponent with
    | none => 0
    | some (minus, digits) => if minus then -(value digits : Int) else value digits
  ⟨if n.negative then -m else m, e - fraction.length⟩

/-! ## Doubles -/

/-- The greatest power of ten that is a double. -/
def maxPower : Nat := 308

def power (n : Nat) : Float :=
  Float.ofScientific 1 false n

/-- `x / 10 ^ n`, through the greatest power of ten as long as `n` is beyond it. -/
def divideByPower (x : Float) (n : Nat) : Float :=
  if n ≤ maxPower then x / power n
  else if x == 0.0 then x
  else divideByPower (x / power maxPower) (n - maxPower)
termination_by n
decreasing_by
  simp only [maxPower] at *
  omega

/-- `significand * 10 ^ exponent`, none if that is too great. -/
def scaled? (significand : Nat) (exponent : Int) : Option Float :=
  let x := (UInt64.ofNat significand).toFloat
  if exponent < 0 then some (divideByPower x exponent.natAbs)
  else if exponent ≤ maxPower then
    let y := x * power exponent.toNat
    if y.isFinite then some y else none
  else if x == 0.0 then some x
  else none

/-- The digits taken into a significand as long as it fits into 64 bits, and those left. -/
def takeDigits (significand : Nat) : List Char → Nat × List Char
  | [] => (significand, [])
  | c :: s =>
    let next := 10 * significand + value [c]
    if next < UInt64.size then takeDigits next s else (significand, c :: s)

/-- The greatest power that is told apart from a greater one. -/
def maxExponent : Nat := 2147483647

/-- The power of ten that scales the significand, when `start` digits have moved the point. -/
def scale (start : Int) (minus : Bool) (digits : Nat) : Int :=
  if minus then max (start - digits) (-(maxExponent : Int) - 1)
  else min (start + digits) maxExponent

/-- The number without sign as a double, none if it is too great. -/
def magnitude? (n : Numeral) : Option Float :=
  let (whole, dropped) := takeDigits 0 n.whole
  let (significand, rest) := takeDigits whole (n.fraction.getD [])
  let used := (n.fraction.getD []).length - rest.length
  let start : Int := dropped.length - used
  match n.exponent with
  | none => scaled? significand start
  | some (minus, digits) =>
    let e := value digits
    if maxExponent < e then if significand ≠ 0 ∧ !minus then none else some 0.0
    else scaled? significand (scale start minus e)

/-- The number as a double, none if it is too great. -/
def float? (n : Numeral) : Option Float :=
  (magnitude? n).map fun x => if n.negative then -x else x

end Numeral

end LabelPress.Json
