import LabelPress.Json.Record

/-!
# Durations

A duration is a whole number of nanoseconds with at most 64 bits of seconds.
-/

namespace LabelPress.Time

open Json Number

def nanosPerSecond : Nat := 1000000000

/-- More nanoseconds than any duration has. -/
def durationBound : Nat := UInt64.size * nanosPerSecond

structure Duration where
  nanos : Nat
  nanos_lt : nanos < durationBound
  deriving DecidableEq, Repr

namespace Duration

def longest : Duration := ⟨durationBound - 1, by decide⟩

instance : Inhabited Duration := ⟨⟨0, by decide⟩⟩

/-- So many nanoseconds, or the longest duration if there are more. -/
def ofNanos (n : Nat) : Duration :=
  if h : n < durationBound then ⟨n, h⟩ else longest

def ofMillis (n : Nat) : Duration := ofNanos (1000000 * n)

def ofSeconds (n : UInt64) : Duration :=
  ⟨n.toNat * nanosPerSecond, Nat.mul_lt_mul_of_pos_right n.toNat_lt (by decide)⟩

def seconds (d : Duration) : Nat := d.nanos / nanosPerSecond

def subsecond (d : Duration) : Nat := d.nanos % nanosPerSecond

/-- The whole milliseconds, at most 64 bits of them. -/
def millis (d : Duration) : Nat := min (d.nanos / 1000000) (UInt64.size - 1)

def scale (d : Duration) (n : Nat) : Duration := ofNanos (d.nanos * n)

def shorter (d e : Duration) : Duration := if d.nanos ≤ e.nanos then d else e

/-! ## Text -/

/-- A number with a fraction of so many digits, without the zeros that it ends with. -/
def fixedText (whole fraction digits : Nat) : List Char :=
  let places := List.replicate (digits - (decimal fraction).length) '0' ++ decimal fraction
  if fraction = 0 then decimal whole
  else decimal whole ++ '.' :: (places.reverse.dropWhile (· = '0')).reverse

/-- A duration in the greatest unit that it has one of. -/
def text (d : Duration) : List Char :=
  let n := d.nanos
  if nanosPerSecond ≤ n then
    fixedText (n / nanosPerSecond) (n % nanosPerSecond) 9 ++ ['s']
  else if 1000000 ≤ n then fixedText (n / 1000000) (n % 1000000) 6 ++ ['m', 's']
  else if 1000 ≤ n then fixedText (n / 1000) (n % 1000) 3 ++ ['µ', 's']
  else decimal n ++ ['n', 's']

/-! ## Stored form -/

def toJson (d : Duration) : Value :=
  .object [("secs", .int d.seconds), ("nanos", .int d.subsecond)]

/-- The duration of whole seconds and nanoseconds. Nanoseconds beyond a second carry. -/
def ofParts? (seconds : UInt64) (nanos : UInt32) : Option Duration :=
  let n := seconds.toNat * nanosPerSecond + nanos.toNat
  if h : n < durationBound then some ⟨n, h⟩ else none

def parts : Record (Option Duration) :=
  ofParts? <$> .required "secs" uint64 <*> .required "nanos" uint32

def record : Record Duration where
  fields := parts.fields
  build look := do
    match ← parts.build look with
    | some d => .ok d
    | none => .error .mismatched

def decoder : Decoder Duration :=
  record.strictDecoder

end Duration

end LabelPress.Time
