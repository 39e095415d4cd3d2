import LabelPress.Number.Integer

/-!
# Network addresses

Addresses of the two versions of the internet protocol, and their text. The text of a version 6
address writes `::` for its longest run of zero groups, and an address that maps a version 4 address
ends in it.
-/

namespace LabelPress.Network

open Number

/-! ## Addresses -/

structure Ipv4 where
  a : UInt8
  b : UInt8
  c : UInt8
  d : UInt8
  deriving DecidableEq, Repr

structure Ipv6 where
  groups : List UInt16
  length_groups : groups.length = 8
  deriving DecidableEq, Repr

inductive Ip where
  | v4 (ip : Ipv4)
  | v6 (ip : Ipv6)
  deriving DecidableEq, Repr

/-- An address and a port. A version 6 address may name the interface it is reached through. -/
inductive Endpoint where
  | v4 (ip : Ipv4) (port : UInt16)
  | v6 (ip : Ipv6) (scope : UInt32) (port : UInt16)
  deriving DecidableEq, Repr

def Endpoint.ip : Endpoint → Ip
  | v4 ip _ => .v4 ip
  | v6 ip _ _ => .v6 ip

def Endpoint.port : Endpoint → UInt16
  | v4 _ p | v6 _ _ p => p

def Ip.at (port : UInt16) : Ip → Endpoint
  | v4 ip => .v4 ip port
  | v6 ip => .v6 ip 0 port

/-! ## Text -/

def Ipv4.text (ip : Ipv4) : List Char :=
  decimal ip.a.toNat ++ '.' :: decimal ip.b.toNat ++ '.' :: decimal ip.c.toNat ++
    '.' :: decimal ip.d.toNat

def groupsText (groups : List UInt16) : List Char :=
  [':'].intercalate (groups.map fun g => Nat.toDigits 16 g.toNat)

def group (high low : UInt8) : UInt16 :=
  high.toUInt16 * 256 + low.toUInt16

def groupBytes (g : UInt16) : UInt8 × UInt8 :=
  ((g / 256).toUInt8, g.toUInt8)

def Ipv6.mapped? (ip : Ipv6) : Option Ipv4 :=
  match ip.groups with
  | [0, 0, 0, 0, 0, 0xFFFF, g, h] =>
    some ⟨(groupBytes g).1, (groupBytes g).2, (groupBytes h).1, (groupBytes h).2⟩
  | _ => none

def zeroRun (groups : List UInt16) : Nat :=
  (groups.takeWhile (· == 0)).length

/-- Where the first of the longest runs of zero groups begins, and its length. -/
def longestZeros : List UInt16 → Nat × Nat
  | [] => (0, 0)
  | g :: gs =>
    let (start, length) := longestZeros gs
    let here := zeroRun (g :: gs)
    if length ≤ here then (0, here) else (start + 1, length)

/-- The text of a version 6 address. One zero group alone is written. -/
def Ipv6.text (ip : Ipv6) : List Char :=
  match ip.mapped? with
  | some v4 => "::ffff:".toList ++ v4.text
  | none =>
    let (start, length) := longestZeros ip.groups
    if 1 < length then
      groupsText (ip.groups.take start) ++ [':', ':'] ++ groupsText (ip.groups.drop (start + length))
    else groupsText ip.groups

def Ip.text : Ip → List Char
  | v4 ip => ip.text
  | v6 ip => ip.text

/-- The text of an endpoint. Scope 0 is none. -/
def Endpoint.text : Endpoint → List Char
  | v4 ip port => ip.text ++ ':' :: decimal port.toNat
  | v6 ip scope port =>
    '[' :: ip.text ++ (if scope = 0 then [] else '%' :: decimal scope.toNat) ++ "]:".toList ++
      decimal port.toNat

end LabelPress.Network
