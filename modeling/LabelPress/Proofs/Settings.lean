import LabelPress.Delivery.Settings
import LabelPress.Finish.Config
import LabelPress.Proofs.Json.Records

/-!
# Settings that are stored in part

A stored setting that is taken out of its document has its usual value when the document is read again, and every other
one is what it was (`overlays_usual`). A duration is stored as a whole: its parts have no usual values.
-/

namespace LabelPress

open Json

/-! ## Durations -/

namespace Time.Duration

theorem seconds_lt (d : Duration) : d.seconds < UInt64.size := by
  apply Nat.div_lt_of_lt_mul
  rw [Nat.mul_comm]
  exact d.nanos_lt

theorem subsecond_lt (d : Duration) : d.subsecond < UInt32.size := by
  have hlt : d.subsecond < nanosPerSecond := Nat.mod_lt _ (by decide)
  exact hlt.trans (by decide)

theorem ofParts?_parts (d : Duration) : ofParts? (UInt64.ofNat d.seconds) (UInt32.ofNat d.subsecond) = some d := by
  have hnanos : (UInt64.ofNat d.seconds).toNat * nanosPerSecond + (UInt32.ofNat d.subsecond).toNat = d.nanos := by
    rw [UInt64.toNat_ofNat_of_lt' d.seconds_lt, UInt32.toNat_ofNat_of_lt' d.subsecond_lt]
    exact Nat.div_add_mod' d.nanos nanosPerSecond
  unfold ofParts?
  simp only [hnanos, dif_pos d.nanos_lt]

theorem decoder_toJson (d : Duration) : decoder d.toJson.node = .ok d := by
  have hseconds := Record.Written.required (uint64_int d.seconds_lt) (fun _ => false) "secs" rfl
  have hnanos := Record.Written.required (uint32_int d.subsecond_lt) (fun _ => false) "nanos" rfl
  have hparts := (hseconds.map ofParts?).seq hnanos
  have hrecord : Record.Written (fun _ => false) record [("secs", .int d.seconds), ("nanos", .int d.subsecond)] d := by
    -- The parts are read as they were written, and they make a duration again.
    refine ⟨hparts.fields, fun look hlook => ?_⟩
    have hbuild : parts.build look = .ok (some d) := by
      rw [← ofParts?_parts d]
      exact hparts.build look hlook
    simp only [record, hbuild]
    rfl
  exact hrecord.decode_whole (by simp) .refuse .malformed

end Time.Duration

/-! ## Assumptions of an estimate -/

namespace Estimate

def Assumptions.reset (gone : String → Bool) (a : Assumptions) : Assumptions :=
  let usual : Assumptions := {}
  { fontHeight := if gone "default_font_height" then usual.fontHeight else a.fontHeight
    lineGap := if gone "default_line_gap" then usual.lineGap else a.lineGap
    barcodeHeight := if gone "default_barcode_height" then usual.barcodeHeight else a.barcodeHeight }

theorem Assumptions.decoder_without (gone : String → Bool) (a : Assumptions) :
    record.decoder (a.toJson.without gone).node = .ok (a.reset gone) := by
  let usual : Assumptions := {}
  have hfont := Record.Written.optional (uint32_uint32 a.fontHeight) gone "default_font_height" usual.fontHeight
  have hgap := Record.Written.optional (uint32_uint32 a.lineGap) gone "default_line_gap" usual.lineGap
  have hbarcode := Record.Written.optional (uint32_uint32 a.barcodeHeight) gone "default_barcode_height"
    usual.barcodeHeight
  exact (((hfont.map Assumptions.mk).seq hgap).seq hbarcode).decode (by simp) .pass .malformed

end Estimate

/-! ## How labels are finished -/

namespace Finish

/-- The settings with the usual value for each that is gone. -/
def Config.reset (gone : List String → Bool) (c : Config) : Config :=
  let usual : Config := {}
  { margin := if gone ["margin_dots"] then usual.margin else c.margin
    placeholder := if gone ["length_placeholder"] then usual.placeholder else c.placeholder
    strict := if gone ["strict_resolution"] then usual.strict else c.strict
    addWidth := if gone ["inject_print_width"] then usual.addWidth else c.addWidth
    assumptions :=
      if gone ["estimator"] then usual.assumptions else c.assumptions.reset fun name => gone ["estimator", name] }

theorem Config.decoder_thinned (gone : List String → Bool) (c : Config) :
    record.decoder (c.toJson.thinned gone).node = .ok (c.reset gone) := by
  let usual : Config := {}
  let top : String → Bool := fun name => gone [name]
  have hmargin := Record.Written.optional (uint32_uint32 c.margin) top "margin_dots" usual.margin
  have hplaceholder := Record.Written.optional (text_text c.placeholder) top "length_placeholder" usual.placeholder
  have hstrict := Record.Written.optional (bool_bool c.strict) top "strict_resolution" usual.strict
  have hwidth := Record.Written.optional (bool_bool c.addWidth) top "inject_print_width" usual.addWidth
  have hestimator := Record.Written.optional (c.assumptions.decoder_without fun name => gone ["estimator", name]) top
    "estimator" usual.assumptions
  have hconfig := ((((hmargin.map Config.mk).seq hplaceholder).seq hstrict).seq hwidth).seq hestimator
  exact hconfig.decode (by simp) .pass .malformed

end Finish

/-! ## Printer connections -/

namespace Delivery

def RetryPolicy.reset (gone : String → Bool) (p : RetryPolicy) : RetryPolicy :=
  let usual : RetryPolicy := {}
  { maxAttempts := if gone "max_attempts" then usual.maxAttempts else p.maxAttempts
    initialDelay := if gone "initial_delay" then usual.initialDelay else p.initialDelay
    maxDelay := if gone "max_delay" then usual.maxDelay else p.maxDelay
    jitter := if gone "jitter" then usual.jitter else p.jitter }

def Timeouts.reset (gone : String → Bool) (t : Timeouts) : Timeouts :=
  let usual : Timeouts := {}
  { connect := if gone "connect" then usual.connect else t.connect
    write := if gone "write" then usual.write else t.write }

/-- The settings with the usual value for each that is gone. -/
def Settings.reset (gone : List String → Bool) (s : Settings) : Settings :=
  let usual : Settings := {}
  { timeouts := if gone ["timeouts"] then usual.timeouts else s.timeouts.reset fun name => gone ["timeouts", name]
    retry := if gone ["retry"] then usual.retry else s.retry.reset fun name => gone ["retry", name] }

theorem RetryPolicy.decoder_without (gone : String → Bool) (p : RetryPolicy) :
    record.decoder (p.toJson.without gone).node = .ok (p.reset gone) := by
  let usual : RetryPolicy := {}
  have hattempts := Record.Written.optional (uint32_uint32 p.maxAttempts) gone "max_attempts" usual.maxAttempts
  have hinitial := Record.Written.optional p.initialDelay.decoder_toJson gone "initial_delay" usual.initialDelay
  have hmax := Record.Written.optional p.maxDelay.decoder_toJson gone "max_delay" usual.maxDelay
  have hjitter := Record.Written.optional (bool_bool p.jitter) gone "jitter" usual.jitter
  exact ((((hattempts.map RetryPolicy.mk).seq hinitial).seq hmax).seq hjitter).decode (by simp) .pass .malformed

theorem Timeouts.decoder_without (gone : String → Bool) (t : Timeouts) :
    record.decoder (t.toJson.without gone).node = .ok (t.reset gone) := by
  let usual : Timeouts := {}
  have hconnect := Record.Written.optional t.connect.decoder_toJson gone "connect" usual.connect
  have hwrite := Record.Written.optional t.write.decoder_toJson gone "write" usual.write
  exact ((hconnect.map Timeouts.mk).seq hwrite).decode (by simp) .pass .malformed

theorem Settings.decoder_thinned (gone : List String → Bool) (s : Settings) :
    record.decoder (s.toJson.thinned gone).node = .ok (s.reset gone) := by
  let usual : Settings := {}
  let top : String → Bool := fun name => gone [name]
  have htimeouts := Record.Written.optional (s.timeouts.decoder_without fun name => gone ["timeouts", name]) top
    "timeouts" usual.timeouts
  have hretry := Record.Written.optional (s.retry.decoder_without fun name => gone ["retry", name]) top "retry"
    usual.retry
  exact ((htimeouts.map Settings.mk).seq hretry).decode (by simp) .pass .malformed

end Delivery

/-! ## Documents -/

/-- Settings that are stored in part overlay the usual ones, for finishing labels and for printer connections. -/
theorem overlays_usual : Finish.Config.record.Overlays Finish.Config.toJson Finish.Config.reset ∧
    Delivery.Settings.record.Overlays Delivery.Settings.toJson Delivery.Settings.reset := by
  constructor
  · exact Record.overlays_of_decoder Finish.Config.decoder_thinned fun _ => rfl
  · exact Record.overlays_of_decoder Delivery.Settings.decoder_thinned fun _ => rfl

example : decode Delivery.Settings.record.decoder "\x7b\"retry\": \x7b\"max_attempts\": 5\x7d\x7d".toList =
    .ok { retry := { maxAttempts := 5 } } := by decide +kernel

end LabelPress
