import LabelPress.Estimate.Settings
import LabelPress.Label.Archive
import LabelPress.Media.Device

/-!
# How labels are finished

The settings of the last step before a label is delivered. Each has a usual value, which stands in
for one that is left out.
-/

namespace LabelPress.Finish

open Json

structure Config where
  /-- What is added to the estimated length, in dots. -/
  margin : UInt32 := 150
  /-- What gives way to the length command. If it is empty, nothing does. -/
  placeholder : List Char := Label.Archive.defaultPlaceholder
  /-- Whether a surface must have the printer's own resolution. -/
  strict : Bool := false
  /-- Whether a label that sets no width is given one. -/
  addWidth : Bool := false
  assumptions : Estimate.Assumptions := {}
  deriving DecidableEq, Repr

def Config.toJson (c : Config) : Value :=
  .object [("margin_dots", .uint32 c.margin), ("length_placeholder", .text c.placeholder),
    ("strict_resolution", .bool c.strict), ("inject_print_width", .bool c.addWidth),
    ("estimator", c.assumptions.toJson)]

def Config.record : Record Config :=
  let usual : Config := {}
  Config.mk <$> .optional "margin_dots" uint32 usual.margin
    <*> .optional "length_placeholder" text usual.placeholder
    <*> .optional "strict_resolution" bool usual.strict
    <*> .optional "inject_print_width" bool usual.addWidth
    <*> .optional "estimator" Estimate.Assumptions.record.decoder usual.assumptions

end LabelPress.Finish
