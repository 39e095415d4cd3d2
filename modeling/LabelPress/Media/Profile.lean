import LabelPress.Json.Record
import LabelPress.Media.Device
import LabelPress.Text.Blank

/-!
# Profiles

Printers and stock come from profiles, which are JSON texts, or from the known models. A profile is
checked after it is read.
-/

namespace LabelPress.Media

open Json

inductive ProfileError where
  | document (fault : Fault)
  | unknownResolution (dpi : UInt32)
  | noName
  | noMaxWidth
  | noMaxLength
  | noWidth
  | notMade (model : Model) (resolution : Resolution)
  deriving DecidableEq, Repr

def ProfileError.field? : ProfileError → Option String
  | unknownResolution _ => some "dpi"
  | noName => some "name"
  | noMaxWidth => some "max_width_dots"
  | noMaxLength => some "max_length_dots"
  | noWidth => some "width"
  | document _ | notMade .. => none

def listText (ns : List UInt32) : String :=
  "[" ++ ", ".intercalate (ns.map fun n => toString n.toNat) ++ "]"

def ProfileError.message (e : ProfileError) (wording : Wording := Fault.kind) : String :=
  match e with
  | document f => "invalid profile JSON: " ++ wording f
  | unknownResolution n =>
    "invalid dpi: " ++ toString n.toNat ++ " is not a supported resolution (203, 300, 600)"
  | noName => "invalid name: must not be empty"
  | noMaxWidth => "invalid max_width_dots: must be > 0"
  | noMaxLength => "invalid max_length_dots: must be > 0"
  | noWidth => "invalid width: must be > 0"
  | notMade m r =>
    "DPI " ++ toString r.dpi.toNat ++ " is not valid for " ++ m.name ++ "; allowed: " ++
      listText (m.resolutions.map (·.dpi))

/-! ## From numbers and models -/

def resolution (dpi : UInt32) : Except ProfileError Resolution :=
  match Resolution.ofDpi? dpi with
  | some r => .ok r
  | none => .error (.unknownResolution dpi)

def device (m : Model) (r : Resolution) : Except ProfileError Device :=
  match Device.ofModel? m r with
  | some d => .ok d
  | none => .error (.notMade m r)

/-! ## Stored forms -/

def Resolution.decoder : Decoder Resolution :=
  refine uint32 Resolution.ofDpi?

def Model.decoder : Decoder Model :=
  choice Model.ofName? fun name =>
    (Model.ofName? name).map fun m v => (Json.unit v).map fun _ => m

def Device.toJson (d : Device) : Value :=
  .object [("name", .string d.name), ("native_dpi", .uint32 d.resolution.dpi),
    ("max_width_dots", .uint32 d.maxWidth), ("max_length_dots", .uint32 d.maxLength)]

def Device.record : Record Device :=
  Device.mk <$> .required "name" string <*> .required "native_dpi" Resolution.decoder
    <*> .required "max_width_dots" uint32 <*> .required "max_length_dots" uint32

def Measure.decoder : Decoder Measure :=
  choice (fun _ => none) fun
    | "dots" => some fun v => (uint32 v).map .dots
    | "inches" => some fun v => (double v).map .inches
    | "millimeters" => some fun v => (double v).map .millimetres
    | _ => none

def Stock.record : Record Stock :=
  Stock.mk <$> .required "width" Measure.decoder <*> .required "height" Measure.decoder
    <*> .required "gap" Measure.decoder <*> .optional "continuous" bool false

def Surface.toJson (s : Surface) : Value :=
  .object [("dpi", .uint32 s.dpi), ("width_dots", .optional .uint32 s.width),
    ("height_dots", .optional .uint32 s.height)]

def Surface.record : Record Surface :=
  Surface.mk <$> .required "dpi" uint32 <*> .optional "width_dots" (nullable uint32) none
    <*> .optional "height_dots" (nullable uint32) none

def Setup.record : Record Setup :=
  Setup.mk <$> .required "geometry" Surface.record.decoder
    <*> .required "stock" Stock.record.decoder <*> .required "device" Device.record.decoder

/-! ## Loading -/

def readProfile (d : Decoder α) (s : List Char) : Except ProfileError α :=
  (decode d s).mapError .document

/-- The printer of a profile. It has a name and room to print. -/
def loadDevice (s : List Char) : Except ProfileError Device := do
  let d ← readProfile Device.record.decoder s
  if (Text.trim d.name.toList).isEmpty then .error .noName
  else if d.maxWidth = 0 then .error .noMaxWidth
  else if d.maxLength = 0 then .error .noMaxLength
  else .ok d

/-- The stock of a profile. It has a width. -/
def loadStock (s : List Char) : Except ProfileError Stock := do
  let stock ← readProfile Stock.record.decoder s
  if stock.width.isPositive then .ok stock else .error .noWidth

end LabelPress.Media
