import LabelPress.Delivery.Error
import LabelPress.Network.Host
import LabelPress.Text.Blank

/-!
# Addresses of printers

A printer is named by an address with or without a port. A host that is not an address is looked up
by the system, of whose answers the first one counts.
-/

namespace LabelPress.Delivery

open Network Text

def rawPort : UInt16 := 9100

/-- How the system looks up a host at a port. -/
abbrev LookUp := List Char → UInt16 → Option Endpoint

/-- The endpoint of a printer. Blanks around an address do not count, and an address without port has
the port of raw printing. -/
def resolve (input : List Char) (lookUp : LookUp := hostEndpoint?) : Except Error Endpoint :=
  let s := trim input
  if s = [] then .error (.invalidAddress "empty address")
  else
    match Endpoint.ofText? s, Ip.ofText? s with
    | some e, _ => .ok e
    | none, some ip => .ok (ip.at rawPort)
    | none, none =>
      let (host, port) := (splitPort? s).getD (s, rawPort)
      match lookUp host port with
      | some e => .ok e
      | none => .error (.noAddressFound (String.ofList s))

end LabelPress.Delivery
