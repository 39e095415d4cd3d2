import LabelPress.Time.Duration

/-!
# Failed deliveries

An error says where a delivery failed. Those of the connection may pass and are worth another try.
-/

namespace LabelPress.Delivery

open Time

/-- Why a delivery failed. A `cause` is the wording of the error below. -/
inductive Error where
  | connectionRefused (address cause : String)
  | connectionTimeout (address : String) (timeout : Duration) (cause : String)
  | connectionFailed (address cause : String)
  | invalidAddress (text : String)
  | noAddressFound (host : String)
  | writeFailed (cause : String)
  | fileWrite (path cause : String)
  | resolutionMismatch (payload target : UInt32)
  | unsupportedPayload
  | retriesExhausted (attempts : Nat) (last : Error)
  | invalidConfig (text : String)
  deriving DecidableEq, Repr, Inhabited

namespace Error

def message : Error → String
  | connectionRefused a _ => "connection refused: " ++ a
  | connectionTimeout a d _ =>
    "connection timed out: " ++ a ++ " (" ++ String.ofList d.text ++ ")"
  | connectionFailed a _ => "connection failed: " ++ a
  | invalidAddress t => "invalid address: " ++ t
  | noAddressFound h => "no address found for hostname: " ++ h
  | writeFailed c => "write failed: " ++ c
  | fileWrite p c => "failed to write '" ++ p ++ "': " ++ c
  | resolutionMismatch p t =>
    "resolution mismatch: payload is " ++ toString p.toNat ++ " dpi, target is " ++
      toString t.toNat ++ " dpi"
  | unsupportedPayload => "printer target cannot send image payloads"
  | retriesExhausted n _ => "retries exhausted after " ++ toString n ++ " attempts"
  | invalidConfig t => "invalid configuration: " ++ t

/-- The wordings of the errors below, the nearest first. -/
def causes : Error → List String
  | connectionRefused _ c | connectionTimeout _ _ c | connectionFailed _ c | writeFailed c
  | fileWrite _ c => [c]
  | retriesExhausted _ last => last.message :: last.causes
  | invalidAddress _ | noAddressFound _ | resolutionMismatch .. | unsupportedPayload
  | invalidConfig _ => []

def isRetryable : Error → Bool
  | connectionTimeout .. | writeFailed _ => true
  | _ => false

end Error

end LabelPress.Delivery
