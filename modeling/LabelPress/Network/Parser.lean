import LabelPress.Network.Address

/-!
# Reading network addresses

A reader takes an address from the beginning of a text and gives the text after it. It never tries a
second way once the first has read an address.
-/

namespace LabelPress.Network

open Number

abbrev Reader (α : Type) := List Char → Option (α × List Char)

def char (c : Char) : Reader Unit
  | d :: s => if c = d then some ((), s) else none
  | [] => none

def hexNumber (digits : List Char) : Nat :=
  digits.foldl (fun n c => 16 * n + (hexDigit? c).getD 0) 0

/-- Reads all digits here as a number up to a limit. -/
def decimalUpTo (limit : Nat) : Reader Nat := fun s =>
  match digits? (s.takeWhile Char.isDigit) with
  | some n => if n ≤ limit then some (n, s.dropWhile Char.isDigit) else none
  | none => none

/-- Reads a byte of at most three digits. A zero in front stands alone. -/
def octet : Reader UInt8 := fun s =>
  let digits := s.takeWhile Char.isDigit
  if digits.length ≤ 3 ∧ (digits.head? = some '0' → digits = ['0']) then
    (decimalUpTo 255 s).map fun (n, t) => (UInt8.ofNat n, t)
  else none

def ipv4 : Reader Ipv4 := fun s => do
  let (a, s) ← octet s
  let (_, s) ← char '.' s
  let (b, s) ← octet s
  let (_, s) ← char '.' s
  let (c, s) ← octet s
  let (_, s) ← char '.' s
  let (d, s) ← octet s
  return (⟨a, b, c, d⟩, s)

def hexGroup : Reader UInt16 := fun s =>
  let digits := s.takeWhile fun c => (hexDigit? c).isSome
  if 1 ≤ digits.length ∧ digits.length ≤ 4 then
    some (UInt16.ofNat (hexNumber digits), s.dropWhile fun c => (hexDigit? c).isSome)
  else none

def separator (first : Bool) : Reader Unit := fun s =>
  if first then some ((), s) else char ':' s

/-- Reads up to `room` groups, and whether they end in a version 4 address, which takes the place of
two groups. -/
def hexGroups (first : Bool) : Nat → List Char → List UInt16 × Bool × List Char
  | 0, s => ([], false, s)
  | room + 1, s =>
    let embedded : Option (Ipv4 × List Char) :=
      if 1 ≤ room then (separator first s).bind fun (_, t) => ipv4 t else none
    match embedded with
    | some (v4, t) => ([group v4.a v4.b, group v4.c v4.d], true, t)
    | none =>
      match (separator first s).bind fun (_, t) => hexGroup t with
      | some (g, t) =>
        let (gs, closed, u) := hexGroups false room t
        (g :: gs, closed, u)
      | none => ([], false, s)

/-- The address of these groups with zeros between them, if there are eight in all. -/
def fillZeros (head tail : List UInt16) : Option Ipv6 :=
  let groups := head ++ List.replicate (8 - head.length - tail.length) 0 ++ tail
  if h : groups.length = 8 then some ⟨groups, h⟩ else none

def ipv6 : Reader Ipv6 := fun s =>
  let (head, closed, t) := hexGroups true 8 s
  if head.length = 8 then (fillZeros head []).map (·, t)
  else if closed then none
  else do
    let (_, t) ← char ':' t
    let (_, t) ← char ':' t
    let (tail, _, u) := hexGroups true (7 - head.length) t
    let ip ← fillZeros head tail
    return (ip, u)

def port : Reader UInt16 := fun s => do
  let (_, s) ← char ':' s
  let (n, s) ← decimalUpTo 65535 s
  return (UInt16.ofNat n, s)

def scope : Reader UInt32 := fun s =>
  match s with
  | '%' :: t =>
    match decimalUpTo 4294967295 t with
    | some (n, u) => some (UInt32.ofNat n, u)
    | none => some (0, s)
  | _ => some (0, s)

def endpointV4 : Reader Endpoint := fun s => do
  let (ip, s) ← ipv4 s
  let (p, s) ← port s
  return (.v4 ip p, s)

/-- Reads a version 6 endpoint: the address stands between brackets. -/
def endpointV6 : Reader Endpoint := fun s => do
  let (_, s) ← char '[' s
  let (ip, s) ← ipv6 s
  let (n, s) ← scope s
  let (_, s) ← char ']' s
  let (p, s) ← port s
  return (.v6 ip n p, s)

def whole (r : Reader α) (s : List Char) : Option α :=
  match r s with
  | some (a, []) => some a
  | _ => none

def Endpoint.ofText? (s : List Char) : Option Endpoint :=
  whole (fun s => (endpointV4 s).or (endpointV6 s)) s

def Ip.ofText? (s : List Char) : Option Ip :=
  whole (fun s => ((ipv4 s).map fun (ip, t) => (.v4 ip, t)).or
    ((ipv6 s).map fun (ip, t) => (.v6 ip, t))) s

end LabelPress.Network
