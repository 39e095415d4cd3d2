import LabelPress.Estimate
import LabelPress.Json.Record

/-!
# Assumptions as settings

The assumptions of an estimate are stored as a record. A field that is left out has its usual value.
-/

namespace LabelPress.Estimate

open Json

def Assumptions.toJson (a : Assumptions) : Value :=
  .object [("default_font_height", .uint32 a.fontHeight),
    ("default_line_gap", .uint32 a.lineGap),
    ("default_barcode_height", .uint32 a.barcodeHeight)]

def Assumptions.record : Record Assumptions :=
  let usual : Assumptions := {}
  Assumptions.mk <$> .optional "default_font_height" uint32 usual.fontHeight
    <*> .optional "default_line_gap" uint32 usual.lineGap
    <*> .optional "default_barcode_height" uint32 usual.barcodeHeight

def Extent.toJson (e : Extent) : Value :=
  .object [("structural", .uint32 e.structural), ("explicit", .optional .uint32 e.explicit),
    ("dots", .uint32 e.dots)]

end LabelPress.Estimate
