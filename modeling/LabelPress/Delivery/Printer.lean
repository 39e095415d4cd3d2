import LabelPress.Delivery.Error
import LabelPress.Delivery.Settings

/-!
# Printers and retries

What happens between a printer and its users is a session: the printer's answers to come, the calls
it has got, the warnings that were given, and the pauses that were made. A retrying printer is a
printer again, so one may wrap another.
-/

namespace LabelPress.Delivery

open Time

/-! ## Sessions -/

inductive Call where
  | send (data : List UInt8)
  | reconnect
  deriving DecidableEq, Repr

inductive Warning where
  /-- An attempt failed, and the next one is to follow after a pause. -/
  | retrying (attempt maxAttempts : Nat) (delay : Duration) (error : Error)
  | reconnectFailed (error : Error)
  deriving DecidableEq, Repr

abbrev Outcome := Except Error Unit

structure Session where
  /-- How the sends to come end. Beyond the list they succeed. -/
  sends : List Outcome := []
  /-- How the reconnects to come end. Beyond the list they succeed. -/
  reconnects : List Outcome := []
  calls : List Call := []
  warnings : List Warning := []
  /-- How long nothing was done before one retry after the other. -/
  pauses : List Duration := []
  /-- What jitter is drawn from. -/
  seed : Nat := 0

abbrev Action := Session → Outcome × Session

def Session.warn (s : Session) (w : Warning) : Session :=
  { s with warnings := s.warnings ++ [w] }

def Session.pause (s : Session) (d : Duration) : Session :=
  { s with pauses := s.pauses ++ [d] }

structure Printer where
  send : List UInt8 → Action
  reconnect : Action

def nextOutcome (os : List Outcome) : Outcome :=
  os.headD (.ok ())

def Printer.direct : Printer where
  send data s :=
    (nextOutcome s.sends, { s with sends := s.sends.tail, calls := s.calls ++ [.send data] })
  reconnect s :=
    (nextOutcome s.reconnects,
      { s with reconnects := s.reconnects.tail, calls := s.calls ++ [.reconnect] })

/-! ## Pauses -/

/-- The pause before a retry, without jitter. The first retry is number 0. The factor stops at the
greatest number of 32 bits and the product at the longest duration. -/
def RetryPolicy.plainDelay (p : RetryPolicy) (retry : Nat) : Duration :=
  (p.initialDelay.scale (min (Nat.pow 2 retry) (UInt32.size - 1))).shorter p.maxDelay

/-- A duration between one half and the whole. -/
def jittered (d : Duration) (seed : Nat) : Duration :=
  let half := d.nanos / 2
  let width := d.nanos - half
  if width = 0 then d else .ofNanos (half + seed % width)

def RetryPolicy.delay (p : RetryPolicy) (retry seed : Nat) : Duration :=
  if p.jitter then jittered (p.plainDelay retry) seed else p.plainDelay retry

/-! ## Retries -/

/-- Warns of a retry and pauses before it. -/
def RetryPolicy.backOff (p : RetryPolicy) (attempt : Nat) (e : Error) (s : Session) : Session :=
  let delay := p.delay attempt s.seed
  (s.warn (.retrying (attempt + 1) p.maxAttempts.toNat delay e)).pause delay

/-- Tries until it succeeds or fails for good, with `left` more tries after the next one. `between`
runs after each pause, before the retry. -/
def attempts (p : RetryPolicy) (send : Action) (between : Session → Session) (attempt : Nat) :
    Nat → Action
  | left, s =>
    match send s with
    | (.ok (), s) => (.ok (), s)
    | (.error e, s) =>
      if !e.isRetryable then (.error e, s)
      else
        match left with
        | 0 => (.error (.retriesExhausted (attempt + 1) e), s)
        | left + 1 =>
          attempts p send between (attempt + 1) left (between (p.backOff attempt e s))

def RetryPolicy.run (p : RetryPolicy) (send : Action) (between : Session → Session) : Action :=
  fun s =>
    if p.maxAttempts = 0 then (.error (.invalidConfig "max_attempts must be >= 1"), s)
    else attempts p send between 0 (p.maxAttempts.toNat - 1) s

def Printer.retrying (inner : Printer) (p : RetryPolicy) : Printer where
  send data := p.run (inner.send data) id
  reconnect := inner.reconnect

/-- Makes the connection again. A failure is a warning only: the next try shows it. -/
def Printer.refresh (inner : Printer) (s : Session) : Session :=
  match inner.reconnect s with
  | (.ok (), s) => s
  | (.error e, s) => s.warn (.reconnectFailed e)

def Printer.reconnecting (inner : Printer) (p : RetryPolicy) : Printer where
  send data := p.run (inner.send data) inner.refresh
  reconnect := inner.reconnect

end LabelPress.Delivery
