import LabelPress.Proofs.Markup.Mnemonic
import LabelPress.Proofs.Text.Search

/-!
# Commands as they are written

A text is read from left to right: a character is passed over, or a command opens and is read as a
whole. `Span.Opens` says which characters are one command, whatever reads them, and `text_induction`
is the induction along a reading.
-/

namespace LabelPress.Markup

open Text

/-- The characters of one command. -/
structure Span where
  leader : Char
  name : List Char
  /-- What follows the mnemonic. -/
  raw : List Char
  /-- The terminator of field data, if there is one. -/
  closing : List Char
  deriving DecidableEq, Repr

namespace Span

def text (p : Span) : List Char := p.leader :: (p.name ++ p.raw ++ p.closing)

/-- Blanks around parameters do not count, field data is kept as it is. -/
def params (p : Span) : List Char :=
  if p.name = fieldData then p.raw else trim p.raw

def token (p : Span) (start : Nat) : Token :=
  ⟨p.name, p.params, start, start + byteLength p.text⟩

/-- Field data ends with its first terminator or runs to the end of the text. All else ends at the
first leader or at the end of the text. -/
def Ends (l : Leaders) (p : Span) (rest : List Char) : Prop :=
  if p.name = fieldData then
    (p.closing = l.terminator ∧
      ∀ u v, p.raw ++ l.terminator ++ rest = u ++ l.terminator ++ v → p.raw.length ≤ u.length) ∨
    (p.closing = [] ∧ rest = [] ∧ ¬ l.terminator <:+: p.raw)
  else
    p.closing = [] ∧ (∀ c ∈ p.raw, ¬ l.isLeader c) ∧ ∀ c ∈ rest.head?, l.isLeader c

/-- The command that a text begins with, where `rest` follows it. -/
structure Opens (l : Leaders) (p : Span) (rest : List Char) : Prop where
  leader : l.isLeader p.leader
  name : LongestMnemonic p.name (p.name ++ p.raw ++ p.closing ++ rest)
  ends : p.Ends l rest

end Span

variable {l : Leaders} {p : Span} {c : Char} {name s t rest : List Char}

/-! ## What follows a mnemonic -/

theorem split_at_leader (hs : ∀ d ∈ s, ¬ l.isLeader d) (hrest : ∀ d ∈ rest.head?, l.isLeader d) :
    (s ++ rest).takeWhile (!l.isLeader ·) = s ∧ (s ++ rest).dropWhile (!l.isLeader ·) = rest :=
  takeWhile_append_of_head (by simpa using hs) (by simpa using hrest)

theorem Span.ends_body (l : Leaders) (c : Char) (name s : List Char) :
    (Span.mk c name (body l name s).params (body l name s).closing).Ends l (body l name s).rest := by
  unfold Span.Ends body
  split_ifs with hname
  · cases hcut : cut? l.terminator s with
    | none => exact .inr ⟨rfl, rfl, cut?_eq_none_iff.mp hcut⟩
    | some o =>
      obtain ⟨hs, hfirst⟩ := cut?_eq_some_iff.mp hcut
      exact .inl ⟨rfl, fun u v huv => hfirst u v (hs.trans huv)⟩
  · refine ⟨rfl, ?_, ?_⟩
    · intro d hd
      simpa using List.mem_takeWhile_imp hd
    · intro d hd
      have := List.head?_dropWhile_not (!l.isLeader ·) s
      rw [Option.mem_def] at hd
      simpa [hd] using this

theorem Span.Ends.body_eq (h : p.Ends l rest) :
    body l p.name (p.raw ++ p.closing ++ rest) = ⟨p.raw, p.closing, rest⟩ := by
  unfold Span.Ends at h
  unfold body
  split_ifs at h ⊢ with hname
  · rcases h with ⟨hc, hfirst⟩ | ⟨hc, hrest, hnone⟩
    · rw [hc, cut?_eq_some_iff.mpr ⟨rfl, hfirst⟩]
    · rw [hc, hrest, List.append_nil, List.append_nil, cut?_eq_none_iff.mpr hnone]
  · obtain ⟨hc, hraw, hrest⟩ := h
    obtain ⟨htake, hdrop⟩ := split_at_leader hraw hrest
    rw [hc, List.append_nil, htake, hdrop]

/-! ## The command at the beginning of a text -/

theorem Span.Opens.mnemonic? (h : p.Opens l rest) :
    mnemonic? (p.name ++ (p.raw ++ p.closing ++ rest)) = some (p.name, p.raw ++ p.closing ++ rest) := by
  refine mnemonic?_eq_some_iff.mpr ⟨?_, rfl⟩
  have := h.name
  rwa [List.append_assoc, List.append_assoc, ← List.append_assoc p.raw] at this

theorem opens_body (hc : l.isLeader c) (hm : mnemonic? s = some (name, t)) :
    (Span.mk c name (body l name t).params (body l name t).closing).Opens l (body l name t).rest := by
  obtain ⟨hlong, rfl⟩ := mnemonic?_eq_some_iff.mp hm
  refine ⟨hc, ?_, Span.ends_body l c name t⟩
  rw [List.append_assoc, List.append_assoc, ← List.append_assoc (body l name t).params]
  rwa [body_append l name t]

theorem exists_opens (hc : l.isLeader c) (hm : mnemonic? s = some (name, t)) :
    ∃ p : Span, ∃ rest, p.Opens l rest ∧ p.leader = c ∧ p.name = name ∧ c :: s = p.text ++ rest := by
  refine ⟨_, _, opens_body hc hm, rfl, rfl, ?_⟩
  obtain ⟨-, rfl⟩ := mnemonic?_eq_some_iff.mp hm
  conv_lhs => rw [← body_append l name t]
  simp [Span.text]

theorem Span.Opens.unique {q : Span} {rest' : List Char} (hp : p.Opens l rest) (hq : q.Opens l rest')
    (h : p.text ++ rest = q.text ++ rest') : q = p ∧ rest' = rest := by
  have hm := hp.mnemonic?
  obtain ⟨pl, pn, pr, pc⟩ := p
  obtain ⟨ql, qn, qr, qc⟩ := q
  simp only [Span.text, List.cons_append, List.cons.injEq, List.append_assoc] at h hm
  obtain ⟨rfl, h⟩ := h
  -- The same text has one longest mnemonic, and that mnemonic one end.
  have hm' := hq.mnemonic?
  simp only [List.append_assoc] at hm'
  rw [h, hm', Option.some.injEq, Prod.mk.injEq] at hm
  obtain ⟨rfl, hrest⟩ := hm
  have hbp := hp.ends.body_eq
  have hbq := hq.ends.body_eq
  simp only [List.append_assoc] at hbp hbq
  rw [← hrest, hbq, Body.mk.injEq] at hbp
  obtain ⟨rfl, rfl, rfl⟩ := hbp
  exact ⟨rfl, rfl⟩

theorem not_opens (h : l.isLeader c → mnemonic? s = none) (hs : c :: s = p.text ++ rest) : ¬ p.Opens l rest := by
  intro hp
  have hm := hp.mnemonic?
  simp only [Span.text, List.cons_append, List.cons.injEq, List.append_assoc] at hs hm
  have hnone := h (hs.1 ▸ hp.leader)
  rw [hs.2, hm] at hnone
  simp at hnone

/-- Induction along a reading: a character at which no command opens is passed over, and a command is
read as a whole. -/
@[elab_as_elim]
theorem text_induction {motive : List Char → Prop} (nil : motive [])
    (skip : ∀ c s, (l.isLeader c → mnemonic? s = none) → motive s → motive (c :: s))
    (span : ∀ (p : Span) rest, p.Opens l rest → motive rest → motive (p.text ++ rest)) :
    ∀ s, motive s := by
  intro s
  induction hn : s.length using Nat.strong_induction_on generalizing s with
  | _ n ih =>
    cases s with
    | nil => exact nil
    | cons c s =>
      subst hn
      by_cases h : l.isLeader c → mnemonic? s = none
      · exact skip c s h (ih s.length (by simp) s rfl)
      · rw [Classical.not_imp] at h
        obtain ⟨⟨name, t⟩, hm⟩ := Option.ne_none_iff_exists'.mp h.2
        obtain ⟨p, rest, hp, -, -, hs⟩ := exists_opens h.1 hm
        have hlen := congrArg List.length hs
        simp only [Span.text, List.cons_append, List.length_cons, List.length_append] at hlen
        rw [hs]
        exact span p rest hp (ih rest.length (by simp; omega) rest rfl)

/-! ## Reading -/

theorem scan_nil (offset : Nat) : scan l offset [] = [] := by
  rw [scan]

theorem scan_skip (h : l.isLeader c → mnemonic? s = none) (offset : Nat) :
    scan l offset (c :: s) = scan l (offset + c.utf8Size) s := by
  rw [scan]
  split_ifs with hc
  · split
    · rfl
    · next hm => simp [h hc] at hm
  · rfl

theorem scan_span (h : p.Opens l rest) (offset : Nat) :
    scan l offset (p.text ++ rest) = p.token offset :: scan l (offset + byteLength p.text) rest := by
  have htext : p.text ++ rest = p.leader :: (p.name ++ (p.raw ++ p.closing ++ rest)) := by simp [Span.text]
  have hstop : offset + p.leader.utf8Size + byteLength (p.name ++ p.raw ++ p.closing) =
      offset + byteLength p.text := by
    simp [Span.text, Nat.add_assoc]
  rw [htext, scan, if_pos h.leader]
  split
  · next hm =>
    rw [h.mnemonic?] at hm
    simp at hm
  · next hm =>
    rw [h.mnemonic?, Option.some.injEq, Prod.mk.injEq] at hm
    obtain ⟨rfl, rfl⟩ := hm
    simp only [h.ends.body_eq]
    rw [hstop]
    rfl

end LabelPress.Markup
