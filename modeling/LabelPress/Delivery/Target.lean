import LabelPress.Delivery.Payload
import LabelPress.Delivery.Printer
import LabelPress.Files.Store
import LabelPress.Number.Integer

/-!
# Where labels go

A label goes to a printer, into a file, or to a writer that shows it. A strict target that knows its
resolution refuses a label made for another one, before it puts out anything.
-/

namespace LabelPress.Delivery

open Files Number Text

def checkResolution (native : Option UInt32) (strict : Bool) (p : Payload) : Outcome :=
  match native with
  | some target =>
    if strict ∧ p.dpi ≠ target then .error (.resolutionMismatch p.dpi target) else .ok ()
  | none => .ok ()

/-! ## Printers -/

def Printer.deliver (printer : Printer) (native : UInt32) (strict : Bool) (p : Payload) : Action :=
  fun s =>
    match checkResolution (some native) strict p, p with
    | .error e, _ => (.error e, s)
    | .ok (), .markup text _ => printer.send (utf8 text) s
    | .ok (), .image .. => (.error .unsupportedPayload, s)

/-! ## Files -/

def partialName (path : String) : String := path ++ ".part"

/-- Puts a label into a file, in the place of what it held. Gives the files that are left. -/
def deliverToFile (files : Store) (path : String) (native : Option UInt32) (strict : Bool)
    (p : Payload) : Store × Outcome :=
  match checkResolution native strict p with
  | .error e => (files, .error e)
  | .ok () =>
    match files.replace (partialName path) path p.bytes with
    | (left, .ok ()) => (left, .ok ())
    | (left, .error f) => (left, .error (.fileWrite f.name f.cause.message))

/-! ## Writers -/

/-- A writer that keeps what it gets, up to a limit. -/
structure Writer where
  stored : List UInt8 := []
  limit : Option Nat := none
  /-- Why it cannot pass on what it has got, if it cannot. -/
  flushError : Option String := none
  deriving DecidableEq, Repr

def diskFull : String := "disk full"

/-- Writes the bytes, or as many as there is room for. -/
def Writer.write (w : Writer) (bytes : List UInt8) : Writer × Outcome :=
  match w.limit with
  | none => ({ w with stored := w.stored ++ bytes }, .ok ())
  | some limit =>
    let room := limit - w.stored.length
    ({ w with stored := w.stored ++ bytes.take room },
      if bytes.length ≤ room then .ok () else .error (.writeFailed diskFull))

def Writer.flush (w : Writer) : Outcome :=
  match w.flushError with
  | some cause => .error (.writeFailed cause)
  | none => .ok ()

/-- How a label is shown: markup as it is, a picture by its size. -/
def Payload.line : Payload → List Char
  | .markup text _ => text ++ ['\n']
  | .image bytes dpi =>
    "PNG ".toList ++ decimal bytes.length ++ " bytes @ ".toList ++ decimal dpi.toNat ++
      " dpi\n".toList

def Writer.deliver (w : Writer) (native : Option UInt32) (strict : Bool) (p : Payload) :
    Writer × Outcome :=
  match checkResolution native strict p with
  | .error e => (w, .error e)
  | .ok () =>
    match w.write (utf8 p.line) with
    | (w, .ok ()) => (w, w.flush)
    | (w, .error e) => (w, .error e)

end LabelPress.Delivery
