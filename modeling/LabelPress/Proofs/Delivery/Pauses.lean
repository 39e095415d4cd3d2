import LabelPress.Proofs.Delivery.Retries
import Mathlib.Algebra.Group.Nat.Defs

/-!
# How long the pauses are

A pause doubles from one retry to the next, up to the longest one, as long as 32 bits hold the factor
(`pauses_wrapped_send`).
-/

/-! ## Durations -/

namespace LabelPress.Time.Duration

theorem nanos_ofNanos (n : Nat) : (ofNanos n).nanos = min n (durationBound - 1) := by
  unfold ofNanos
  split_ifs with h
  · exact (min_eq_left (Nat.le_sub_one_of_lt h)).symm
  · exact (min_eq_right (Nat.sub_le_of_le_add (by omega))).symm

theorem nanos_shorter (d e : Duration) : (d.shorter e).nanos = min d.nanos e.nanos := by
  unfold shorter
  split_ifs with h
  · exact (min_eq_left h).symm
  · exact (min_eq_right (by omega)).symm

theorem nanos_shorter_scale (d e : Duration) (n : Nat) : ((d.scale n).shorter e).nanos = min (d.nanos * n) e.nanos := by
  have hlt := e.nanos_lt
  rw [nanos_shorter, scale, nanos_ofNanos]
  omega

end LabelPress.Time.Duration

namespace LabelPress.Delivery

open Time

/-! ## One pause -/

/-- The pause that is asked for: the first one doubled before every further retry, and the longest one at most. -/
def RetryPolicy.doubled (p : RetryPolicy) (retry : Nat) : Nat :=
  min (p.initialDelay.nanos * 2 ^ retry) p.maxDelay.nanos

/-- Whether the factor of a retry is too great for 32 bits and the longest pause does not hide it. -/
def RetryPolicy.FallsShort (p : RetryPolicy) (retry : Nat) : Prop :=
  32 ≤ retry ∧ 0 < p.initialDelay.nanos ∧ p.initialDelay.nanos * (2 ^ 32 - 1) < p.maxDelay.nanos

theorem nanos_plainDelay (p : RetryPolicy) (retry : Nat) :
    (p.plainDelay retry).nanos = min (p.initialDelay.nanos * min (2 ^ retry) (2 ^ 32 - 1)) p.maxDelay.nanos :=
  Duration.nanos_shorter_scale _ _ _

theorem nanos_plainDelay_eq_iff (p : RetryPolicy) (retry : Nat) :
    (p.plainDelay retry).nanos = p.doubled retry ↔ ¬ p.FallsShort retry := by
  rw [nanos_plainDelay, RetryPolicy.doubled, RetryPolicy.FallsShort]
  by_cases hr : retry < 32
  · have hpow : 2 ^ retry ≤ 2 ^ 31 := Nat.pow_le_pow_right (by decide) (Nat.le_of_lt_succ hr)
    have hfactor : min (2 ^ retry) (2 ^ 32 - 1) = 2 ^ retry := min_eq_left (le_trans hpow (by decide))
    rw [hfactor]
    simp [Nat.not_le.mpr hr]
  · have hpow : 2 ^ 32 ≤ 2 ^ retry := Nat.pow_le_pow_right (by decide) (Nat.not_lt.mp hr)
    have hfactor : min (2 ^ retry) (2 ^ 32 - 1) = 2 ^ 32 - 1 := min_eq_right (by omega)
    rw [hfactor]
    rcases Nat.eq_zero_or_pos p.initialDelay.nanos with hzero | hpos
    · simp [hzero]
    · -- The factor that was cut gives less, and so does the whole unless the longest pause is less still.
      have hless : p.initialDelay.nanos * (2 ^ 32 - 1) < p.initialDelay.nanos * 2 ^ retry :=
        Nat.mul_lt_mul_of_pos_left (by omega) hpos
      omega

/-! ## The pauses of a job -/

def Call.isSend : Call → Bool
  | .send _ => true
  | .reconnect => false

def Session.tries (s : Session) : Nat := s.calls.countP Call.isSend

theorem tries_tried (s : Session) (p : RetryPolicy) (fresh : Bool) (data : List UInt8) (n : Nat) :
    (s.tried p fresh data n).tries = s.tries + n := by
  have hnew : (triesOf fresh data n).countP Call.isSend = n := by
    cases n with
    | zero => cases fresh <;> rfl
    | succ n =>
      rw [triesOf_succ]
      cases fresh <;> simp [List.countP_flatten, List.countP_replicate, List.countP_cons, Call.isSend]
  rw [Session.tries, Session.tried, Session.used, List.countP_append, hnew, Session.tries]

/-- What a job leaves behind: nothing, or its tries with a pause between two of them. -/
theorem wrapped_send_cases (p : RetryPolicy) (fresh : Bool) (data : List UInt8) (s : Session) :
    ((Printer.direct.wrapped fresh p).send data s).2 = s ∨
      ∃ n, ((Printer.direct.wrapped fresh p).send data s).2 = s.tried p fresh data (n + 1) := by
  rcases exists_settled_or p.maxAttempts.toNat s.sendOutcome with ⟨k, hk, hsettled, hbefore⟩ | hall
  · refine .inr ⟨k, ?_⟩
    rw [wrapped_send_of_settled hk hsettled hbefore]
  · cases hm : p.maxAttempts.toNat with
    | zero =>
      rw [wrapped_send_of_no_attempts (UInt32.toNat_inj.mp hm)]
      exact .inl rfl
    | succ k =>
      rw [hm] at hall
      obtain ⟨e, -, hsend⟩ := wrapped_send_of_exhausted hm hall fresh data
      refine .inr ⟨k, ?_⟩
      rw [hsend]

/-- There is one pause between two tries. Without jitter, pause number `r` is the doubled one exactly if the factor
of that retry does not fall short. -/
theorem pauses_wrapped_send (p : RetryPolicy) (hjitter : p.jitter = false) (fresh : Bool) (data : List UInt8)
    (s : Session) :
    let t := ((Printer.direct.wrapped fresh p).send data s).2
    ∃ ds, t.pauses = s.pauses ++ ds ∧ ds.length = t.tries - s.tries - 1 ∧
      ∀ r d, ds[r]? = some d → (d.nanos = p.doubled r ↔ ¬ p.FallsShort r) := by
  intro t
  rcases wrapped_send_cases p fresh data s with ht | ⟨n, ht⟩
  · exact ⟨[], by simp [t, ht], by simp [t, ht], by simp⟩
  · refine ⟨s.pausesOf p n, ?_, ?_, ?_⟩
    · simp only [t, ht]
      rfl
    · unfold Session.pausesOf
      rw [List.length_map, List.length_range]
      simp only [t, ht, tries_tried]
      omega
    · intro r d hd
      unfold Session.pausesOf at hd
      obtain ⟨hr, rfl⟩ := List.getElem?_eq_some_iff.mp hd
      rw [List.getElem_map, List.getElem_range, RetryPolicy.delay, hjitter, if_neg Bool.false_ne_true]
      exact nanos_plainDelay_eq_iff p r

/-- A printer that is busy for a while, and a policy that waits for it with pauses from one nanosecond on. -/
def busy : Session where
  sends := List.replicate 34 (.error (.writeFailed "busy"))

def patient : RetryPolicy where
  maxAttempts := 35
  initialDelay := .ofNanos 1
  jitter := false

theorem pauses_wrapped_send_busy :
    patient.jitter = false ∧
      ∃ ds, ((Printer.direct.wrapped true patient).send [88] busy).2.pauses = busy.pauses ++ ds ∧ ds.length = 34 ∧
        ∀ r < 32, ∀ d, ds[r]? = some d → d.nanos = patient.doubled r := by
  refine ⟨rfl, ?_⟩
  obtain ⟨ds, hds, hlength, hpause⟩ := pauses_wrapped_send patient rfl true [88] busy
  refine ⟨ds, hds, ?_, fun r hr d hd => (hpause r d hd).mpr fun h => Nat.not_le.mpr hr h.1⟩
  rw [hlength]
  decide +kernel

/-- The factor of the last retry stops at 32 bits, far from the longest pause. -/
theorem not_doubled : ¬ ∀ (p : RetryPolicy) (s : Session) (fresh : Bool) (data : List UInt8), p.jitter = false →
    s.pauses = [] → ∀ r d, ((Printer.direct.wrapped fresh p).send data s).2.pauses[r]? = some d →
      d.nanos = p.doubled r := by
  intro h
  have hpause : ((Printer.direct.wrapped true patient).send [88] busy).2.pauses[33]? =
      some ⟨4294967295, by decide⟩ := by decide +kernel
  have hdoubled := h patient busy true [88] rfl rfl 33 _ hpause
  exact absurd hdoubled (by decide)

end LabelPress.Delivery
