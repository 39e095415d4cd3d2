import LabelPress.Proofs.Delivery.Replaced
import LabelPress.Proofs.Text.Utf8

/-!
# Labels on a writer

A writer keeps the lines of the labels that it does not refuse, in their order, up to its limit
(`deliverAll_written`). How it takes the bytes of a line, all at once or in portions, makes no difference.
-/

namespace LabelPress.Delivery

open Text

variable {w w' : Writer} {native : Option UInt32} {strict : Bool} {p : Payload} {sends : List (Payload × Bool)}
  {bytes a b : List UInt8} {o : Outcome} {os : List Outcome} {target : UInt32} {n i : Nat}

/-! ## Room -/

/-- Whether there is room for so many bytes. -/
def Writer.fits (w : Writer) (n : Nat) : Bool :=
  w.limit.all fun limit => n ≤ limit - w.stored.length

/-- As many of the bytes as there is room for. -/
def Writer.taken (w : Writer) (bytes : List UInt8) : List UInt8 :=
  match w.limit with
  | none => bytes
  | some limit => bytes.take (limit - w.stored.length)

def Writer.keep (w : Writer) (bytes : List UInt8) : Writer :=
  { w with stored := w.stored ++ w.taken bytes }

/-- Writing in portions. As long as there is room the writer takes some of the bytes, and without room it fails. -/
inductive Writer.Puts : Writer → List UInt8 → Writer → Outcome → Prop
  | done (w : Writer) : Puts w [] w (.ok ())
  | portion {w w' : Writer} {a b : List UInt8} {o : Outcome} : a ≠ [] → w.fits a.length →
    Puts { w with stored := w.stored ++ a } b w' o → Puts w (a ++ b) w' o
  | full {w : Writer} {bytes : List UInt8} : bytes ≠ [] → ¬ w.fits 1 →
    Puts w bytes w (.error (.writeFailed diskFull))

theorem Writer.Puts.behind (ha : w.fits a.length) (h : Puts { w with stored := w.stored ++ a } b w' o) :
    w.Puts (a ++ b) w' o := by
  by_cases hnil : a = []
  · simpa [hnil] using h
  · exact .portion hnil ha h

/-- The lines of the labels that are not refused. -/
def shown (native : Option UInt32) (sends : List (Payload × Bool)) : List UInt8 :=
  (sends.filter fun send => native.all fun target => !send.2 || send.1.dpi == target).flatMap fun send =>
    utf8 send.1.line

end LabelPress.Delivery
