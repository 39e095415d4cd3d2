import LabelPress.Proofs.Markup.Span
import LabelPress.Proofs.Text.Slice

/-!
# The commands of a text

`Commands` says which tokens a text has, without any reader: each stands where its command is
written, they do not overlap, and no leader outside them begins a command. There is one such list,
and `tokenize` gives it (`tokenize_eq_iff`).
-/

namespace LabelPress.Markup

open Text

/-- The token of a command that is written in the text. The text begins at an offset. -/
def Token.StandsIn (l : Leaders) (offset : Nat) (s : List Char) (t : Token) : Prop :=
  ∃ (before : List Char) (p : Span) (rest : List Char),
    s = before ++ p.text ++ rest ∧ p.Opens l rest ∧ t = p.token (offset + byteLength before)

/-- The tokens of a text that begins at an offset. -/
structure Commands (l : Leaders) (offset : Nat) (s : List Char) (ts : List Token) : Prop where
  stand : ∀ t ∈ ts, t.StandsIn l offset s
  bounds : ∀ t ∈ ts, t.start < t.stop ∧ t.stop ≤ offset + byteLength s
  ordered : ts.Pairwise fun t u => t.stop ≤ u.start
  complete : ∀ before leader c after, s = before ++ leader :: c :: after →
    l.isLeader leader → isAlphanumeric c →
    ∃ t ∈ ts, t.start ≤ offset + byteLength before ∧ offset + byteLength before < t.stop

variable {l : Leaders} {p : Span} {c : Char} {s rest : List Char} {t : Token} {ts : List Token} {offset : Nat}

theorem Span.byteLength_text_pos (p : Span) : 0 < byteLength p.text := by
  have := p.leader.utf8Size_pos
  rw [Span.text, byteLength_cons]
  omega

theorem Token.StandsIn.bounds (h : t.StandsIn l offset s) :
    offset ≤ t.start ∧ t.start < t.stop ∧ t.stop ≤ offset + byteLength s := by
  obtain ⟨before, p, rest, rfl, -, rfl⟩ := h
  have := p.byteLength_text_pos
  simp only [Span.token, byteLength_append]
  omega

theorem Token.StandsIn.append_left (h : t.StandsIn l (offset + byteLength s) rest) :
    t.StandsIn l offset (s ++ rest) := by
  obtain ⟨before, p, rest, rfl, hp, rfl⟩ := h
  exact ⟨s ++ before, p, rest, by simp, hp, by simp [Nat.add_assoc]⟩

theorem Token.StandsIn.of_append (h : t.StandsIn l offset (s ++ rest)) (hstart : offset + byteLength s ≤ t.start) :
    t.StandsIn l (offset + byteLength s) rest := by
  obtain ⟨before, p, after, hs, hp, rfl⟩ := h
  simp only [Span.token, Nat.add_le_add_iff_left] at hstart
  obtain ⟨w, rfl⟩ := exists_append_of_byteLength_le (hs.trans (List.append_assoc _ _ _)) hstart
  rw [List.append_assoc, List.append_assoc] at hs
  exact ⟨w, p, after, by rw [List.append_cancel_left hs, List.append_assoc], hp, by simp [Nat.add_assoc]⟩

theorem commands_nil_iff : Commands l offset [] ts ↔ ts = [] := by
  constructor
  · intro h
    by_contra hne
    obtain ⟨t, ht⟩ := List.exists_mem_of_ne_nil ts hne
    have := (h.stand t ht).bounds
    simp at this
    omega
  · rintro rfl
    exact ⟨by simp, by simp, .nil, by simp⟩

theorem commands_skip_iff (h : l.isLeader c → mnemonic? s = none) :
    Commands l offset (c :: s) ts ↔ Commands l (offset + c.utf8Size) s ts := by
  have hlen : offset + c.utf8Size = offset + byteLength [c] := by simp
  constructor
  · intro hts
    have hstand : ∀ t ∈ ts, t.StandsIn l (offset + byteLength [c]) s := by
      intro t ht
      obtain ⟨before, p, rest, hs, hp, rfl⟩ := hts.stand t ht
      cases before with
      | nil => exact absurd hp (not_opens h hs)
      | cons d before =>
        apply Token.StandsIn.of_append (s := [c]) (hts.stand _ ht)
        simp only [List.cons_append, List.cons.injEq] at hs
        simp [hs.1, Span.token]
    rw [hlen]
    refine ⟨hstand, fun t ht => (hstand t ht).bounds.2, hts.ordered, ?_⟩
    intro before leader d after hs hleader hd
    obtain ⟨t, ht, hcover⟩ := hts.complete (c :: before) leader d after (by simp [hs]) hleader hd
    exact ⟨t, ht, by simpa [Nat.add_assoc] using hcover⟩
  · intro hts
    rw [hlen] at hts
    have hstand : ∀ t ∈ ts, t.StandsIn l offset ([c] ++ s) := fun t ht => (hts.stand t ht).append_left
    refine ⟨hstand, fun t ht => (hstand t ht).bounds.2, hts.ordered, ?_⟩
    intro before leader d after hs hleader hd
    cases before with
    | nil =>
      -- The leader at the beginning opens no command.
      simp only [List.nil_append, List.cons.injEq] at hs
      have := mnemonic?_eq_none_iff.mp (h (hs.1 ▸ hleader)) d (by simp [hs.2])
      exact absurd hd this
    | cons e before =>
      simp only [List.cons_append, List.cons.injEq] at hs
      obtain ⟨t, ht, hcover⟩ := hts.complete before leader d after hs.2 hleader hd
      exact ⟨t, ht, by simpa [hs.1, Nat.add_assoc] using hcover⟩

theorem Token.StandsIn.eq_token (hp : p.Opens l rest) (h : t.StandsIn l offset (p.text ++ rest))
    (hstart : t.start ≤ offset) : t = p.token offset := by
  obtain ⟨before, q, after, hs, hq, rfl⟩ := h
  cases before with
  | nil =>
    obtain ⟨rfl, -⟩ := hp.unique hq hs
    simp [byteLength]
  | cons c before =>
    have := c.utf8Size_pos
    simp only [Span.token, byteLength_cons] at hstart
    omega

theorem commands_span_iff (hp : p.Opens l rest) : Commands l offset (p.text ++ rest) ts ↔
    ∃ us, ts = p.token offset :: us ∧ Commands l (offset + byteLength p.text) rest us := by
  have hpos := p.byteLength_text_pos
  constructor
  · intro hts
    obtain ⟨c, u, hname, hc⟩ := hp.name.mnemonic.exists_cons
    obtain ⟨t, ht, hcover⟩ := hts.complete [] p.leader c (u ++ p.raw ++ p.closing ++ rest)
      (by simp [Span.text, hname]) hp.leader hc
    obtain rfl := (hts.stand t ht).eq_token hp hcover.1
    -- No token stands before the one at the beginning.
    obtain ⟨us, rfl⟩ : ∃ us, ts = p.token offset :: us := by
      cases ts with
      | nil => simp at ht
      | cons u us =>
        rcases List.mem_cons.mp ht with h | h
        · exact ⟨us, by rw [h]⟩
        · have h1 := (List.pairwise_cons.mp hts.ordered).1 _ h
          have h2 := (hts.stand u List.mem_cons_self).bounds
          simp only [Span.token] at h1
          omega
    refine ⟨us, rfl, ?_⟩
    obtain ⟨hfirst, hordered⟩ := List.pairwise_cons.mp hts.ordered
    have hstand : ∀ t ∈ us, t.StandsIn l (offset + byteLength p.text) rest := fun t ht =>
      (hts.stand t (List.mem_cons_of_mem _ ht)).of_append (hfirst t ht)
    refine ⟨hstand, fun t ht => (hstand t ht).bounds.2, hordered, ?_⟩
    intro before leader d after hs hleader hd
    obtain ⟨t, ht, hcover⟩ := hts.complete (p.text ++ before) leader d after (by simp [hs]) hleader hd
    rw [byteLength_append, ← Nat.add_assoc] at hcover
    rcases List.mem_cons.mp ht with rfl | ht
    · have := hcover.2
      simp only [Span.token] at this
      omega
    · exact ⟨t, ht, hcover⟩
  · rintro ⟨us, rfl, hus⟩
    have hstand : ∀ t ∈ p.token offset :: us, t.StandsIn l offset (p.text ++ rest) := by
      intro t ht
      rcases List.mem_cons.mp ht with rfl | ht
      · exact ⟨[], p, rest, rfl, hp, rfl⟩
      · exact (hus.stand t ht).append_left
    refine ⟨hstand, fun t ht => (hstand t ht).bounds.2, ?_, ?_⟩
    · exact List.pairwise_cons.mpr ⟨fun t ht => (hus.stand t ht).bounds.1, hus.ordered⟩
    · intro before leader d after hs hleader hd
      by_cases hlt : byteLength before < byteLength p.text
      · exact ⟨_, List.mem_cons_self, by simp [Span.token], by simp only [Span.token]; omega⟩
      · obtain ⟨w, rfl⟩ := exists_append_of_byteLength_le hs (by omega)
        rw [List.append_assoc] at hs
        obtain ⟨t, ht, hcover⟩ := hus.complete w leader d after (List.append_cancel_left hs) hleader hd
        rw [Nat.add_assoc, ← byteLength_append] at hcover
        exact ⟨t, List.mem_cons_of_mem _ ht, hcover⟩

theorem scan_eq_iff (l : Leaders) (offset : Nat) (s : List Char) (ts : List Token) :
    scan l offset s = ts ↔ Commands l offset s ts := by
  induction s using text_induction (l := l) generalizing offset ts with
  | nil => rw [scan_nil, commands_nil_iff, eq_comm]
  | skip c s hskip ih => rw [scan_skip hskip, ih, commands_skip_iff hskip]
  | span p rest hp ih =>
    rw [scan_span hp, commands_span_iff hp]
    constructor
    · intro h
      exact ⟨_, h.symm, (ih _ _).mp rfl⟩
    · rintro ⟨us, rfl, hus⟩
      rw [(ih _ _).mpr hus]

/-- The reader gives the tokens of the text, all of them and nothing else. -/
theorem tokenize_eq_iff (l : Leaders) (s : List Char) (ts : List Token) :
    tokenize l s = ts ↔ Commands l 0 s ts :=
  scan_eq_iff l 0 s ts

end LabelPress.Markup
