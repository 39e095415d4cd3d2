import LabelPress.Number.Integer

/-!
# Binary floating point numbers as text

Reading takes the double nearest to the written number. Writing with a fixed number of places rounds
the exact value of the double, a tie to the even neighbour.
-/

namespace LabelPress.Number

/-! ## Reading -/

/-- The double nearest to `mantissa * 10 ^ exponent`. Far out of the range of doubles the number of
digits decides alone. -/
def nearest (mantissa : Nat) (exponent : Int) : Float :=
  let digits : Int := (Nat.toDigits 10 mantissa).length
  if mantissa = 0 then 0.0
  else if exponent + digits > 400 then 1.0 / 0.0
  else if exponent + digits < -400 then 0.0
  else Float.ofScientific mantissa (exponent < 0) exponent.natAbs

/-- Whole digits, and the digits after a point if there is one. -/
private def mantissaParts (s : List Char) : List Char × List Char × List Char :=
  let whole := s.takeWhile Char.isDigit
  match s.dropWhile Char.isDigit with
  | '.' :: t => (whole, t.takeWhile Char.isDigit, t.dropWhile Char.isDigit)
  | t => (whole, [], t)

private def exponentPart? : List Char → Option Int
  | [] => some 0
  | c :: s => if c = 'e' ∨ c = 'E' then signed? s else none

/-- A number without sign: digits with at most one point, then maybe a power of ten. -/
private def magnitude? (s : List Char) : Option Float :=
  match mantissaParts s with
  | ([], [], _) => none
  | (whole, fraction, t) =>
    match digits? (whole ++ fraction), exponentPart? t with
    | some m, some e => some (nearest m (e - fraction.length))
    | _, _ => none

/-- A number without sign or one of the names of infinity and of no number, in either case. -/
private def named? (s : List Char) : Option Float :=
  let lower := String.ofList (s.map Char.toLower)
  if lower = "inf" ∨ lower = "infinity" then some (1.0 / 0.0)
  else if lower = "nan" then some (0.0 / 0.0)
  else magnitude? s

def float? : List Char → Option Float
  | '-' :: s => (named? s).map fun x => -x
  | '+' :: s => named? s
  | s => named? s

/-! ## Writing -/

/-- The quotient to the nearest whole number, a tie to the even one. -/
def divNearestEven (a b : Nat) : Nat :=
  let q := a / b
  let r := a % b
  if 2 * r < b then q
  else if b < 2 * r then q + 1
  else q + q % 2

/-- The significand and the power of two of a finite double without sign. -/
def significand (x : Float) : Nat × Int :=
  let bits : Nat := x.toBits.toNat
  let fraction : Nat := bits % Nat.pow 2 52
  let exponent : Nat := bits / Nat.pow 2 52 % Nat.pow 2 11
  if exponent = 0 then (fraction, -1074)
  else (Nat.pow 2 52 + fraction, (exponent : Int) - 1075)

def thousandthsText (n : Nat) : List Char :=
  let places := decimal (n % 1000)
  decimal (n / 1000) ++ '.' :: (List.replicate (3 - places.length) '0' ++ places)

def threePlaces (x : Float) : List Char :=
  let (m, e) := significand x
  thousandthsText <|
    if e < 0 then divNearestEven (1000 * m) (Nat.pow 2 e.natAbs)
    else 1000 * m * Nat.pow 2 e.toNat

end LabelPress.Number
