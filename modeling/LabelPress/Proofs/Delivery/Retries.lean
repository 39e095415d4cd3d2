import LabelPress.Delivery.Printer
import Mathlib.Data.List.Basic
import Mathlib.Data.Nat.Find

/-!
# How often a job is tried

A job is sent until an outcome settles it: success, or a failure that no further try can mend. Nothing else
ends the tries but the limit of the policy (`wrapped_send`). What comes out is settled itself, so a second
policy around the first one has nothing left to do.
-/

namespace LabelPress.Delivery

variable {p q : RetryPolicy} {send : Action} {between : Session → Session} {s t : Session} {data : List UInt8}
  {fresh : Bool} {e : Error} {left i k : Nat}

/-- Whether the outcome ends the tries. -/
def settled : Outcome → Bool
  | .ok () => true
  | .error e => !e.isRetryable

theorem exists_error_of_not_settled {r : Outcome} (h : ¬ settled r) : ∃ e, r = .error e ∧ e.isRetryable := by
  match r with
  | .ok () => exact absurd rfl h
  | .error e => exact ⟨e, rfl, by simpa [settled] using h⟩

/-! ## One try -/

theorem attempts_of_settled (h : settled (send s).1) (p : RetryPolicy) (between : Session → Session) (i left : Nat) :
    attempts p send between i left s = send s := by
  rw [attempts.eq_def]
  match hsend : send s with
  | (.ok (), t) => simp only [hsend]
  | (.error e, t) =>
    rw [hsend] at h
    simp only [hsend]
    exact if_pos h

theorem attempts_last (h : send s = (.error e, t)) (he : e.isRetryable) (p : RetryPolicy)
    (between : Session → Session) (i : Nat) :
    attempts p send between i 0 s = (.error (.retriesExhausted (i + 1) e), t) := by
  simp only [attempts, h, he, Bool.not_true, Bool.false_eq_true, if_false]

theorem attempts_next (h : send s = (.error e, t)) (he : e.isRetryable) (p : RetryPolicy)
    (between : Session → Session) (i left : Nat) :
    attempts p send between i (left + 1) s = attempts p send between (i + 1) left (between (p.backOff i e t)) := by
  rw [attempts]
  simp only [h, he, Bool.not_true, Bool.false_eq_true, if_false]

/-! ## All tries -/

/-- Tries in a row. Try number `i` begins in one session, ends with an outcome and leaves another session. -/
structure Course (p : RetryPolicy) (send : Action) (between : Session → Session) (begins leaves : Nat → Session)
    (o : Nat → Outcome) : Prop where
  send : ∀ i, send (begins i) = (o i, leaves i)
  next : ∀ i e, o i = .error e → between (p.backOff i e (leaves i)) = begins (i + 1)

namespace Course

variable {begins leaves : Nat → Session} {o : Nat → Outcome}

theorem attempts_settled (h : Course p send between begins leaves o) (hk : settled (o (i + k)))
    (hbefore : ∀ j < k, ¬ settled (o (i + j))) (hleft : k ≤ left) :
    attempts p send between i left (begins i) = (o (i + k), leaves (i + k)) := by
  -- On the failures to come. Each retry begins where the course says that the next try does.
  induction k generalizing i left with
  | zero => rw [attempts_of_settled (by rw [h.send]; exact hk), h.send, Nat.add_zero]
  | succ k ih =>
    obtain ⟨left, rfl⟩ := Nat.exists_eq_add_of_le' (Nat.one_le_of_lt hleft)
    obtain ⟨e, ho, he⟩ := exists_error_of_not_settled (hbefore 0 (Nat.succ_pos k))
    have hsend := h.send i
    rw [Nat.add_zero] at ho
    rw [ho] at hsend
    have hnext : i + (k + 1) = i + 1 + k := by omega
    rw [attempts_next hsend he, h.next i e ho, hnext]
    refine ih (hnext ▸ hk) (fun j hj => ?_) (by omega)
    have := hbefore (j + 1) (by omega)
    rwa [Nat.add_comm j 1, ← Nat.add_assoc] at this

theorem attempts_exhausted (h : Course p send between begins leaves o)
    (hall : ∀ j ≤ left, ¬ settled (o (i + j))) :
    ∃ e, o (i + left) = .error e ∧
      attempts p send between i left (begins i) = (.error (.retriesExhausted (i + left + 1) e), leaves (i + left)) := by
  induction left generalizing i with
  | zero =>
    obtain ⟨e, ho, he⟩ := exists_error_of_not_settled (hall 0 (Nat.le_refl 0))
    have hsend := h.send i
    rw [Nat.add_zero] at ho
    rw [ho] at hsend
    exact ⟨e, ho, attempts_last hsend he p between i⟩
  | succ left ih =>
    obtain ⟨e, ho, he⟩ := exists_error_of_not_settled (hall 0 (Nat.zero_le _))
    have hsend := h.send i
    rw [Nat.add_zero] at ho
    rw [ho] at hsend
    have hnext : i + (left + 1) = i + 1 + left := by omega
    rw [attempts_next hsend he, h.next i e ho, hnext]
    refine ih fun j hj => ?_
    have := hall (j + 1) (by omega)
    rwa [Nat.add_comm j 1, ← Nat.add_assoc] at this

end Course

/-! ## What comes out -/

theorem settled_attempts (p : RetryPolicy) (send : Action) (between : Session → Session) (i left : Nat)
    (s : Session) :
    settled (attempts p send between i left s).1 := by
  induction left generalizing i s with
  | zero =>
    by_cases h : settled (send s).1
    · rwa [attempts_of_settled h]
    · obtain ⟨e, ho, he⟩ := exists_error_of_not_settled h
      rw [attempts_last (Prod.ext ho rfl) he]
      rfl
  | succ left ih =>
    by_cases h : settled (send s).1
    · rwa [attempts_of_settled h]
    · obtain ⟨e, ho, he⟩ := exists_error_of_not_settled h
      rw [attempts_next (Prod.ext ho rfl) he]
      exact ih _ _

theorem settled_run (p : RetryPolicy) (send : Action) (between : Session → Session) (s : Session) :
    settled (p.run send between s).1 := by
  rw [RetryPolicy.run]
  split_ifs
  · rfl
  · exact settled_attempts ..

theorem run_of_settled (h : settled (send s).1) (hp : p.maxAttempts ≠ 0) (between : Session → Session) :
    p.run send between s = send s := by
  rw [RetryPolicy.run, if_neg hp, attempts_of_settled h]

/-! ## Around a printer -/

/-- A printer that tries again, with a new connection before each retry if that is asked for. -/
def Printer.wrapped (inner : Printer) (fresh : Bool) (p : RetryPolicy) : Printer :=
  if fresh then inner.reconnecting p else inner.retrying p

def Printer.beforeRetry (inner : Printer) (fresh : Bool) : Session → Session :=
  if fresh then inner.refresh else id

theorem Printer.wrapped_send_eq (inner : Printer) (fresh : Bool) (p : RetryPolicy) (data : List UInt8) :
    (inner.wrapped fresh p).send data = p.run (inner.send data) (inner.beforeRetry fresh) := by
  cases fresh <;> rfl

/-! ## A printer with given answers -/

/-- How the send after `i` others ends. -/
def Session.sendOutcome (s : Session) (i : Nat) : Outcome := s.sends.getD i (.ok ())

def Session.reconnectOutcome (s : Session) (i : Nat) : Outcome := s.reconnects.getD i (.ok ())

def triesOf (fresh : Bool) (data : List UInt8) (n : Nat) : List Call :=
  if fresh then (List.replicate n (.send data)).intersperse .reconnect else List.replicate n (.send data)

/-- The warnings between try `i` and the next one. -/
def Session.warningsAfter (s : Session) (p : RetryPolicy) (fresh : Bool) (i : Nat) : List Warning :=
  match s.sendOutcome i, fresh, s.reconnectOutcome i with
  | .ok (), _, _ => []
  | .error e, true, .error f =>
    [.retrying (i + 1) p.maxAttempts.toNat (p.delay i s.seed) e, .reconnectFailed f]
  | .error e, _, _ => [.retrying (i + 1) p.maxAttempts.toNat (p.delay i s.seed) e]

/-- The pauses before the first retries. -/
def Session.pausesOf (s : Session) (p : RetryPolicy) (n : Nat) : List Time.Duration :=
  (List.range n).map (p.delay · s.seed)

/-- The session with the answers used up, and with what was done since. -/
def Session.used (s : Session) (sends reconnects : Nat) (calls : List Call) (warnings : List Warning)
    (pauses : List Time.Duration) : Session :=
  { s with
    sends := s.sends.drop sends
    reconnects := s.reconnects.drop reconnects
    calls := s.calls ++ calls
    warnings := s.warnings ++ warnings
    pauses := s.pauses ++ pauses }

def Session.tried (s : Session) (p : RetryPolicy) (fresh : Bool) (data : List UInt8) (n : Nat) : Session :=
  s.used n (if fresh then n - 1 else 0) (triesOf fresh data n)
    ((List.range (n - 1)).flatMap (s.warningsAfter p fresh)) (s.pausesOf p (n - 1))

/-- The session before the retry that follows `n` tries. -/
def Session.retried (s : Session) (p : RetryPolicy) (fresh : Bool) (data : List UInt8) (n : Nat) : Session :=
  s.used n (if fresh then n else 0)
    (List.replicate n (if fresh then [.send data, .reconnect] else [.send data])).flatten
    ((List.range n).flatMap (s.warningsAfter p fresh)) (s.pausesOf p n)

theorem intersperse_replicate_succ {α : Type} (a b : α) (n : Nat) :
    (List.replicate (n + 1) a).intersperse b = (List.replicate n [a, b]).flatten ++ [a] := by
  induction n with
  | zero => rfl
  | succ n ih =>
    rw [List.replicate_succ, List.replicate_succ, List.intersperse_cons_cons, ← List.replicate_succ, ih,
      List.replicate_succ]
    rfl

theorem triesOf_succ (fresh : Bool) (data : List UInt8) (n : Nat) :
    triesOf fresh data (n + 1) =
      (List.replicate n (if fresh then [.send data, .reconnect] else [.send data])).flatten ++ [.send data] := by
  cases fresh with
  | true => exact intersperse_replicate_succ _ _ n
  | false => simp [triesOf, List.replicate_succ']

theorem send_retried (s : Session) (p : RetryPolicy) (fresh : Bool) (data : List UInt8) (i : Nat) :
    Printer.direct.send data (s.retried p fresh data i) = (s.sendOutcome i, s.tried p fresh data (i + 1)) := by
  have hnext : nextOutcome (s.sends.drop i) = s.sendOutcome i := by
    rw [nextOutcome, List.headD_eq_head?_getD, List.head?_drop, Session.sendOutcome, List.getD_eq_getElem?_getD]
  rw [Session.tried, triesOf_succ]
  simp [Printer.direct, Session.retried, Session.used, hnext]

theorem beforeRetry_tried (s : Session) (p : RetryPolicy) (fresh : Bool) (data : List UInt8) (i : Nat) (e : Error)
    (he : s.sendOutcome i = .error e) :
    Printer.direct.beforeRetry fresh (p.backOff i e (s.tried p fresh data (i + 1))) =
      s.retried p fresh data (i + 1) := by
  have hnext : nextOutcome (s.reconnects.drop i) = s.reconnectOutcome i := by
    rw [nextOutcome, List.headD_eq_head?_getD, List.head?_drop, Session.reconnectOutcome, List.getD_eq_getElem?_getD]
  rw [Session.tried, triesOf_succ]
  unfold RetryPolicy.backOff Session.retried Session.used Session.pausesOf Session.warn Session.pause
  cases fresh with
  | false =>
    simp [Printer.beforeRetry, Session.warningsAfter, he, List.range_succ, List.replicate_succ']
  | true =>
    cases hr : s.reconnectOutcome i with
    | ok u =>
      simp [Printer.beforeRetry, Printer.refresh, Printer.direct, Session.warningsAfter, he, hr, hnext, List.range_succ,
        List.replicate_succ']
    | error f =>
      simp [Printer.beforeRetry, Printer.refresh, Printer.direct, Session.warn, Session.warningsAfter, he, hr, hnext,
        List.range_succ, List.replicate_succ']

theorem course_direct (s : Session) (p : RetryPolicy) (fresh : Bool) (data : List UInt8) :
    Course p (Printer.direct.send data) (Printer.direct.beforeRetry fresh) (s.retried p fresh data)
      (fun i => s.tried p fresh data (i + 1)) s.sendOutcome where
  send i := send_retried s p fresh data i
  next i e he := beforeRetry_tried s p fresh data i e he

def Warning.retry? : Warning → Option Nat
  | .retrying n .. => some n
  | .reconnectFailed _ => none

theorem retries_warningsAfter (p : RetryPolicy) (fresh : Bool) (h : ¬ settled (s.sendOutcome i)) :
    (s.warningsAfter p fresh i).filterMap Warning.retry? = [1 + i] := by
  obtain ⟨e, he, -⟩ := exists_error_of_not_settled h
  unfold Session.warningsAfter
  rw [he, Nat.add_comm]
  cases fresh with
  | false => rfl
  | true => cases s.reconnectOutcome i <;> rfl

theorem retries_tried (p : RetryPolicy) (fresh : Bool) (data : List UInt8) {n : Nat}
    (h : ∀ i < n, ¬ settled (s.sendOutcome i)) :
    (s.tried p fresh data (n + 1)).warnings.filterMap Warning.retry? =
      s.warnings.filterMap Warning.retry? ++ List.range' 1 n := by
  have hflat : ((List.range n).flatMap (s.warningsAfter p fresh)).filterMap Warning.retry? = List.range' 1 n := by
    rw [List.filterMap_flatMap, List.range'_eq_map_range, List.map_eq_flatMap]
    exact List.flatMap_congr fun i hi => retries_warningsAfter p fresh (h i (List.mem_range.mp hi))
  rw [Session.tried, Session.used, List.filterMap_append, Nat.add_sub_cancel, hflat]

/-! ## The policy -/

theorem retried_zero (s : Session) (p : RetryPolicy) (fresh : Bool) (data : List UInt8) :
    s.retried p fresh data 0 = s := by
  simp [Session.retried, Session.used, Session.pausesOf]

theorem wrapped_send_eq_attempts (hp : p.maxAttempts ≠ 0) (fresh : Bool) (data : List UInt8) (s : Session) :
    (Printer.direct.wrapped fresh p).send data s =
      attempts p (Printer.direct.send data) (Printer.direct.beforeRetry fresh) 0 (p.maxAttempts.toNat - 1)
        (s.retried p fresh data 0) := by
  rw [Printer.wrapped_send_eq, RetryPolicy.run, if_neg hp, retried_zero]

theorem wrapped_send_of_settled (hk : k < p.maxAttempts.toNat) (hsettled : settled (s.sendOutcome k))
    (hbefore : ∀ i < k, ¬ settled (s.sendOutcome i)) (fresh : Bool) (data : List UInt8) :
    (Printer.direct.wrapped fresh p).send data s = (s.sendOutcome k, s.tried p fresh data (k + 1)) := by
  have hp : p.maxAttempts ≠ 0 := by
    intro h
    rw [h] at hk
    exact absurd hk (Nat.not_lt_zero k)
  have hleft : k ≤ p.maxAttempts.toNat - 1 := by omega
  have h := (course_direct s p fresh data).attempts_settled (i := 0) (by rwa [Nat.zero_add])
    (fun j hj => by rw [Nat.zero_add]; exact hbefore j hj) hleft
  rw [Nat.zero_add] at h
  rw [wrapped_send_eq_attempts hp]
  exact h

theorem wrapped_send_of_exhausted (hm : p.maxAttempts.toNat = k + 1)
    (hall : ∀ i < k + 1, ¬ settled (s.sendOutcome i)) (fresh : Bool) (data : List UInt8) :
    ∃ e, s.sendOutcome k = .error e ∧ (Printer.direct.wrapped fresh p).send data s =
      (.error (.retriesExhausted (k + 1) e), s.tried p fresh data (k + 1)) := by
  have hp : p.maxAttempts ≠ 0 := by
    intro h
    rw [h] at hm
    exact absurd hm (Nat.succ_ne_zero k).symm
  have hfailed : ∀ j ≤ k, ¬ settled (s.sendOutcome (0 + j)) := fun j hj => by
    rw [Nat.zero_add]
    exact hall j (Nat.lt_succ_of_le hj)
  have h := (course_direct s p fresh data).attempts_exhausted hfailed
  simp only [Nat.zero_add] at h
  rw [wrapped_send_eq_attempts hp, hm, Nat.add_sub_cancel]
  exact h

theorem wrapped_send_of_no_attempts (hp : p.maxAttempts = 0) (inner : Printer) (fresh : Bool) (data : List UInt8)
    (s : Session) :
    (inner.wrapped fresh p).send data s = (.error (.invalidConfig "max_attempts must be >= 1"), s) := by
  rw [Printer.wrapped_send_eq, RetryPolicy.run, if_pos hp]

theorem exists_settled_or (m : Nat) (o : Nat → Outcome) :
    (∃ k < m, settled (o k) ∧ ∀ i < k, ¬ settled (o i)) ∨ ∀ i < m, ¬ settled (o i) := by
  classical
  by_cases h : ∃ k, k < m ∧ settled (o k)
  · refine .inl ⟨Nat.find h, (Nat.find_spec h).1, (Nat.find_spec h).2, fun i hi hsettled => ?_⟩
    exact Nat.find_min h hi ⟨Nat.lt_trans hi (Nat.find_spec h).1, hsettled⟩
  · exact .inr fun i hi hsettled => h ⟨i, hi, hsettled⟩

theorem wrapped_send_reconnects (p : RetryPolicy) (fresh : Bool) (data : List UInt8) (s : Session)
    (reconnects : List Outcome) :
    ((Printer.direct.wrapped fresh p).send data { s with reconnects }).1 =
        ((Printer.direct.wrapped fresh p).send data s).1 ∧
      ((Printer.direct.wrapped fresh p).send data { s with reconnects }).2.calls =
        ((Printer.direct.wrapped fresh p).send data s).2.calls := by
  have hsame : Session.sendOutcome { s with reconnects } = s.sendOutcome := rfl
  rcases exists_settled_or p.maxAttempts.toNat s.sendOutcome with ⟨k, hk, hsettled, hbefore⟩ | hall
  · rw [wrapped_send_of_settled hk hsettled hbefore,
      wrapped_send_of_settled hk (hsame ▸ hsettled) (hsame ▸ hbefore)]
    exact ⟨rfl, rfl⟩
  · cases hm : p.maxAttempts.toNat with
    | zero =>
      have hp : p.maxAttempts = 0 := UInt32.toNat_inj.mp hm
      rw [wrapped_send_of_no_attempts hp, wrapped_send_of_no_attempts hp]
      exact ⟨rfl, rfl⟩
    | succ k =>
      rw [hm] at hall
      obtain ⟨e, he, hsend⟩ := wrapped_send_of_exhausted hm hall fresh data
      obtain ⟨e', he', hsend'⟩ := wrapped_send_of_exhausted (s := { s with reconnects }) hm hall fresh data
      obtain rfl : e = e' := Except.error.inj (he.symm.trans he')
      rw [hsend, hsend']
      exact ⟨rfl, rfl⟩

/-- A job is sent, complete, up to the first outcome that settles it, which is the result; if the policy allows
fewer tries, the last failure is part of the result. Between two tries there is one numbered warning, and one new
connection if that is asked for. However those end, tries and result stay the same. A policy without tries
calls nothing. And since no result asks for another try, a policy around another one changes nothing. -/
theorem wrapped_send (p : RetryPolicy) (fresh : Bool) (data : List UInt8) (s : Session) (o : Nat → Outcome)
    (ho : ∀ i < p.maxAttempts.toNat, s.sendOutcome i = o i) :
    let m := p.maxAttempts.toNat
    let send := (Printer.direct.wrapped fresh p).send data
    (∀ k < m, settled (o k) → (∀ i < k, ¬ settled (o i)) → send s = (o k, s.tried p fresh data (k + 1))) ∧
      (0 < m → (∀ i < m, ¬ settled (o i)) → ∃ e, o (m - 1) = .error e ∧
        send s = (.error (.retriesExhausted m e), s.tried p fresh data m)) ∧
      (m = 0 → send s = (.error (.invalidConfig "max_attempts must be >= 1"), s)) ∧
      (∀ n < m, (∀ i < n, ¬ settled (o i)) → (s.tried p fresh data (n + 1)).warnings.filterMap Warning.retry? =
        s.warnings.filterMap Warning.retry? ++ List.range' 1 n) ∧
      (∀ reconnects, (send { s with reconnects }).1 = (send s).1 ∧
        (send { s with reconnects }).2.calls = (send s).2.calls) ∧
      ∀ (inner : Printer) (t : Session), settled ((inner.wrapped fresh p).send data t).1 ∧
        ∀ q outer, q.maxAttempts ≠ 0 →
          ((inner.wrapped fresh p).wrapped outer q).send data t = (inner.wrapped fresh p).send data t := by
  intro m send
  have hsettled : ∀ i < m, settled (s.sendOutcome i) = settled (o i) := fun i hi => by rw [ho i hi]
  refine ⟨?_, ?_, ?_, ?_, wrapped_send_reconnects p fresh data s, fun inner t => ?_⟩
  · intro k hk hk' hbefore
    rw [← ho k hk]
    exact wrapped_send_of_settled hk (hsettled k hk ▸ hk')
      (fun i hi => hsettled i (Nat.lt_trans hi hk) ▸ hbefore i hi) fresh data
  · intro hm hall
    obtain ⟨k, hk⟩ := Nat.exists_eq_add_of_le' hm
    obtain ⟨e, he, hsend⟩ := wrapped_send_of_exhausted hk
      (fun i hi => hsettled i (hk ▸ hi) ▸ hall i (hk ▸ hi)) fresh data
    refine ⟨e, ?_, ?_⟩
    · rw [← ho (m - 1) (by omega), hk, Nat.add_sub_cancel, he]
    · rw [hk]
      exact hsend
  · exact fun hm => wrapped_send_of_no_attempts (UInt32.toNat_inj.mp hm) Printer.direct fresh data s
  · exact fun n hn hall => retries_tried p fresh data fun i hi => hsettled i (Nat.lt_trans hi hn) ▸ hall i hi
  · have hrun := settled_run p (inner.send data) (inner.beforeRetry fresh) t
    rw [← Printer.wrapped_send_eq] at hrun
    exact ⟨hrun, fun q outer hq => by rw [Printer.wrapped_send_eq, run_of_settled hrun hq]⟩

/-- A printer that fails once and then cannot be reached anew. -/
def flaky : Session where
  sends := [.error (.writeFailed "broken pipe"), .ok ()]
  reconnects := [.error (.connectionRefused "press:9100" "refused")]

theorem wrapped_send_flaky :
    (∀ i < 3, flaky.sendOutcome i = if i = 0 then .error (.writeFailed "broken pipe") else .ok ()) ∧
      (Printer.direct.wrapped true { maxAttempts := 3, jitter := false }).send [88] flaky =
        (.ok (), { calls := [.send [88], .reconnect, .send [88]],
                   warnings := [.retrying 1 3 (.ofMillis 500) (.writeFailed "broken pipe"),
                     .reconnectFailed (.connectionRefused "press:9100" "refused")],
                   pauses := [.ofMillis 500] }) ∧
      (Printer.direct.wrapped true { maxAttempts := 1 }).send [88] flaky =
        (.error (.retriesExhausted 1 (.writeFailed "broken pipe")), flaky.tried { maxAttempts := 1 } true [88] 1) := by
  have ho : ∀ i < 3, flaky.sendOutcome i = if i = 0 then .error (.writeFailed "broken pipe") else .ok () := by
    decide
  refine ⟨ho, ?_, ?_⟩
  · have h := (wrapped_send { maxAttempts := 3, jitter := false } true [88] flaky _ ho).1 1 (by decide) (by decide)
      (by decide)
    rw [h]
    rfl
  · obtain ⟨e, he, hsend⟩ := (wrapped_send { maxAttempts := 1 } true [88] flaky _
      fun i hi => ho i (Nat.lt_trans hi (by decide))).2.1 (by decide) (by decide)
    obtain rfl : .writeFailed "broken pipe" = e := Except.error.inj he
    exact hsend

end LabelPress.Delivery
