import LabelPress.Json.Record
import LabelPress.Text.Utf8

/-!
# What is delivered

A delivery carries the markup of a label, or a picture of it, and the resolution it was made for.
-/

namespace LabelPress.Delivery

open Json

inductive Payload where
  | markup (text : List Char) (dpi : UInt32)
  | image (bytes : List UInt8) (dpi : UInt32)
  deriving DecidableEq, Repr

namespace Payload

def dpi : Payload → UInt32
  | markup _ n | image _ n => n

def kind : Payload → String
  | markup .. => "markup"
  | image .. => "image"

def bytes : Payload → List UInt8
  | markup s _ => Text.utf8 s
  | image bs _ => bs

/-! ## Stored form -/

def toJson : Payload → Value
  | markup s n => .object [("kind", .string "markup"), ("markup", .text s), ("dpi", .uint32 n)]
  | image bs n =>
    .object [("kind", .string "image"), ("bytes", .array (bs.map fun b => .int b.toNat)),
      ("dpi", .uint32 n)]

def kindField : String := "kind"

def record? : String → Option (Record Payload)
  | "markup" => some (Payload.markup <$> .required "markup" text <*> .required "dpi" uint32)
  | "image" => some (Payload.image <$> .required "bytes" (items uint8) <*> .required "dpi" uint32)
  | _ => none

def kindDecoder : Decoder (Record Payload) :=
  refine string record?

/-- The kind among the members, and the other members. Each is read before the shape of the kind is
asked for. -/
def splitKind (ending : Option Fault) (found : Option (Record Payload)) :
    List (Scan String × Node) → Except Fault (Option (Record Payload) × List (Scan String × Node))
  | [] => do
    orFault ending
    return (found, [])
  | (key, v) :: ms => do
    if (← key.value) = kindField then
      if found.isSome then .error .mismatched
      splitKind ending (some (← kindDecoder v)) ms
    else
      v.keep 1
      let (r, others) ← splitKind ending found ms
      return (r, (key, v) :: others)

/-- Reads a payload: an object with its kind, or an array that begins with it. -/
def decoder : Decoder Payload
  | .object ms ending => do
    match ← splitKind ending none ms with
    | (some r, others) => r.decoderWith .pass .mismatched (.object others none)
    | (none, _) => .error .mismatched
  | .array [] ending => do
    orFault ending
    .error .mismatched
  | .array (v :: vs) ending => do
    let r ← kindDecoder v
    keepItems 1 ending vs
    r.decoderWith .pass .mismatched (.array vs none)
  | v => .error v.misfit

end Payload

end LabelPress.Delivery
