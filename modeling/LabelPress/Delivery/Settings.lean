import LabelPress.Time.Duration

/-!
# Settings of a printer connection

Every setting has a usual value, which stands in for one that is left out.
-/

namespace LabelPress.Delivery

open Json Time

/-- How often and how fast a failed delivery is tried again. -/
structure RetryPolicy where
  /-- How many tries there are, the first included. -/
  maxAttempts : UInt32 := 3
  initialDelay : Duration := .ofMillis 500
  maxDelay : Duration := .ofMillis 10000
  jitter : Bool := true
  deriving DecidableEq, Repr

structure Timeouts where
  connect : Duration := .ofMillis 5000
  write : Duration := .ofMillis 30000
  deriving DecidableEq, Repr

structure Settings where
  timeouts : Timeouts := {}
  retry : RetryPolicy := {}
  deriving DecidableEq, Repr

/-! ## Stored forms -/

def RetryPolicy.toJson (p : RetryPolicy) : Value :=
  .object [("max_attempts", .uint32 p.maxAttempts), ("initial_delay", p.initialDelay.toJson),
    ("max_delay", p.maxDelay.toJson), ("jitter", .bool p.jitter)]

def RetryPolicy.record : Record RetryPolicy :=
  let usual : RetryPolicy := {}
  RetryPolicy.mk <$> .optional "max_attempts" uint32 usual.maxAttempts
    <*> .optional "initial_delay" Duration.decoder usual.initialDelay
    <*> .optional "max_delay" Duration.decoder usual.maxDelay
    <*> .optional "jitter" bool usual.jitter

def Timeouts.toJson (t : Timeouts) : Value :=
  .object [("connect", t.connect.toJson), ("write", t.write.toJson)]

def Timeouts.record : Record Timeouts :=
  let usual : Timeouts := {}
  Timeouts.mk <$> .optional "connect" Duration.decoder usual.connect
    <*> .optional "write" Duration.decoder usual.write

def Settings.toJson (s : Settings) : Value :=
  .object [("timeouts", s.timeouts.toJson), ("retry", s.retry.toJson)]

def Settings.record : Record Settings :=
  Settings.mk <$> .optional "timeouts" Timeouts.record.decoder {}
    <*> .optional "retry" RetryPolicy.record.decoder {}

end LabelPress.Delivery
