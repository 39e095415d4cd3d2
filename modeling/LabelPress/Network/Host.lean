import LabelPress.Network.Parser
import LabelPress.Text.Search

/-!
# Hosts that are numbers

A host is looked up by its name unless it is an address itself. Here a version 4 address may also be
written in an older way: with fewer numbers, of which the last fills the bytes that are left, and with
octal and hexadecimal numbers. A version 6 address may name its interface.
-/

namespace LabelPress.Network

open Number Text

/-- The number of these digits in a base up to sixteen. -/
def inBase? (base : Nat) (s : List Char) : Option Nat :=
  if s ≠ [] ∧ s.all fun c => (hexDigit? c).any (· < base) then
    some (s.foldl (fun n c => base * n + (hexDigit? c).getD 0) 0)
  else none

/-- A number that is hexadecimal after `0x`, octal after a zero, and decimal otherwise. -/
def anyBase? : List Char → Option Nat
  | '0' :: 'x' :: s | '0' :: 'X' :: s => inBase? 16 s
  | '0' :: s => inBase? 8 ('0' :: s)
  | s => inBase? 10 s

/-- The number that is made of single bytes and a last number, which fills what is left of `room`
bytes. -/
def join? : Nat → List Nat → Option Nat
  | room + 1, [n] => if n < Nat.pow 256 (room + 1) then some n else none
  | room + 1, a :: b :: ns =>
    if a < 256 then (join? room (b :: ns)).map (a * Nat.pow 256 room + ·) else none
  | _, _ => none

def Ipv4.ofNat (n : Nat) : Ipv4 :=
  ⟨UInt8.ofNat (n / 16777216), UInt8.ofNat (n / 65536), UInt8.ofNat (n / 256), UInt8.ofNat n⟩

def Ipv4.ofHost? (s : List Char) : Option Ipv4 := do
  let ns ← (fields '.' s).mapM anyBase?
  return .ofNat (← join? 4 ns)

/-- The version 6 address and the interface that a host is. -/
def Ipv6.ofHost? (s : List Char) : Option (Ipv6 × UInt32) :=
  match splitOnce? '%' s with
  | none => (whole ipv6 s).map (·, 0)
  | some (a, b) => do
    let ip ← whole ipv6 a
    let scope ← whole (decimalUpTo 4294967295) b
    return (ip, UInt32.ofNat scope)

def hostEndpoint? (host : List Char) (port : UInt16) : Option Endpoint :=
  match Ipv4.ofHost? host, Ipv6.ofHost? host with
  | some ip, _ => some (.v4 ip port)
  | none, some (ip, scope) => some (.v6 ip scope port)
  | none, none => none

/-- The host and the port after the last colon, if it is a port and there is a host. -/
def splitPort? (s : List Char) : Option (List Char × UInt16) :=
  match splitLast? ':' s with
  | some (host, p) => if host = [] then none else (uint16? p).map (host, ·)
  | none => none

end LabelPress.Network
