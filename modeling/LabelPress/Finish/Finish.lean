import LabelPress.Finish.Config
import LabelPress.Finish.Error

/-!
# Finishing labels

A label is finished for a printer: it gets its frame, the length command in the place of each
placeholder, and on request its width. Then its size is checked against the printer.
-/

namespace LabelPress.Finish

open Number Text

/-! ## The frame -/

def opening : List Char := ['^', 'X', 'A']

def ending : List Char := ['^', 'X', 'Z']

/-- The text with an opening in front, unless it has one anywhere. -/
def opened (s : List Char) : List Char :=
  if occurs opening s then s else opening ++ '\n' :: s

/-- The text with an ending behind, unless it has one anywhere. -/
def closed (s : List Char) : List Char :=
  if occurs ending s then s else s ++ '\n' :: ending

def frame (s : List Char) : List Char :=
  closed (opened s)

/-! ## Length and width -/

/-- The command that sets the length of a label. -/
def lengthCommand (n : UInt32) : List Char :=
  ['^', 'L', 'L'] ++ decimal n.toNat

def widthLeader : List Char := ['^', 'P', 'W']

def widthCommand (n : UInt32) : List Char :=
  widthLeader ++ decimal n.toNat

/-- The length of a label with its margin, whatever its placeholders. -/
def Config.length (c : Config) (s : List Char) : UInt32 :=
  addUInt32 (Estimate.ofMarkup c.assumptions (replaceAll c.placeholder [] s)).dots c.margin

/-- The text with the length command in the place of each placeholder. -/
def Config.putLength (c : Config) (s : List Char) : List Char :=
  replaceAll c.placeholder (lengthCommand (c.length s)) s

/-- The text with a width after its opening, unless it sets one anywhere. -/
def insertWidth (n : UInt32) (s : List Char) : List Char :=
  if occurs widthLeader s then s
  else
    match cut? opening s with
    | some (a, b) => a ++ opening ++ widthCommand n ++ b
    | none => s

/-- The text that goes to the printer, before its size is checked. -/
def Config.fill (c : Config) (width : UInt32) (framed : List Char) : List Char :=
  if c.addWidth then insertWidth width (c.putLength framed) else c.putLength framed

/-! ## Finishing -/

def Config.finish (c : Config) (setup : Media.Setup) (s : List Char) : Except Error (List Char) :=
  let device := setup.device
  if c.strict ∧ setup.surface.dpi ≠ device.resolution.dpi then
    .error (.resolutionMismatch setup.surface.dpi device.resolution.dpi)
  else
    let framed := frame s
    let width := setup.stock.width.toDots device.resolution
    let length := c.length framed
    if device.maxWidth < width then .error (.overflow .width width device.maxWidth)
    else if device.maxLength < length then .error (.overflow .length length device.maxLength)
    else .ok (c.fill width framed)

/-- Finishes a label that a source gives, or fails as the source does. -/
def Config.finishResult (c : Config) (setup : Media.Setup)
    (markup : Except Label.SourceError (List Char)) : Except Error (List Char) :=
  match markup with
  | .ok s => c.finish setup s
  | .error e => .error (.source e)

end LabelPress.Finish
