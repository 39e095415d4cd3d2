import LabelPress.Proofs.Markup.Parts

/-!
# Other leaders

Leaders are only names: with others in their place a text is read as before (`forall₂_tokenize_renamed`).
-/

namespace LabelPress.Markup

open Text

variable {l m : Leaders} {f : Char → Char} {p : Span} {c : Char} {name needle s t x rest : List Char}

/-! ## Texts with other characters -/

theorem rest?_map (h : ∀ p ∈ needle, ∀ c ∈ s, f p = f c → p = c) :
    rest? (needle.map f) (s.map f) = (rest? needle s).map (List.map f) := by
  induction needle generalizing s with
  | nil => rfl
  | cons p needle ih =>
    cases s with
    | nil => rfl
    | cons c s =>
      simp only [List.forall_mem_cons] at h
      have hfirst : f p = f c ↔ p = c := ⟨h.1.1, congrArg f⟩
      simp only [List.map_cons, rest?, hfirst]
      split_ifs with hpc
      · exact ih fun p hp c hc => (h.2 p hp).2 c hc
      · rfl

theorem cut?_map (h : ∀ p ∈ needle, ∀ c ∈ s, f p = f c → p = c) :
    cut? (needle.map f) (s.map f) = (cut? needle s).map fun o => (o.1.map f, o.2.map f) := by
  induction s with
  | nil =>
    have hrest := rest?_map h
    rw [List.map_nil] at hrest ⊢
    rw [cut?, cut?, hrest]
    cases rest? needle [] <;> rfl
  | cons c s ih =>
    have hrest := rest?_map h
    rw [List.map_cons] at hrest ⊢
    rw [cut?, cut?, hrest, ih fun p hp c hc => h p hp c (List.mem_cons_of_mem _ hc)]
    cases rest? needle (c :: s) with
    | some t => rfl
    | none => cases cut? needle s <;> rfl

theorem trim_map (h : ∀ c ∈ s, isBlank (f c) = isBlank c) : trim (s.map f) = (trim s).map f := by
  obtain ⟨u, w, hs, hu, hw⟩ := exists_eq_trim s
  have hmem : ∀ c, c ∈ u ∨ c ∈ trim s ∨ c ∈ w → isBlank (f c) = isBlank c := by
    intro c hc
    apply h
    rw [hs]
    simpa [or_assoc] using hc
  obtain ⟨hfirst, hlast⟩ := trimmed_trim s
  refine trim_eq_of_eq_append (u := u.map f) (w := w.map f) ?_ ?_ ?_ ⟨?_, ?_⟩
  · conv_lhs => rw [hs]
    rw [List.map_append, List.map_append]
  · rw [List.forall_mem_map]
    exact fun c hc => hmem c (.inl hc) ▸ hu c hc
  · rw [List.forall_mem_map]
    exact fun c hc => hmem c (.inr (.inr hc)) ▸ hw c hc
  · rw [List.head?_map]
    intro c hc
    obtain ⟨d, hd, rfl⟩ := Option.map_eq_some_iff.mp hc
    exact hmem d (.inr (.inl (List.mem_of_mem_head? hd))) ▸ hfirst d hd
  · rw [List.getLast?_map]
    intro c hc
    obtain ⟨d, hd, rfl⟩ := Option.map_eq_some_iff.mp hc
    exact hmem d (.inr (.inl (List.mem_of_mem_getLast? hd))) ▸ hlast d hd

/-! ## New names for the leaders -/

/-- A leader of `l` becomes the one of `m`, and any other character stays. -/
def Leaders.rename (l m : Leaders) (c : Char) : Char :=
  if c = l.command then m.command else if c = l.control then m.control else c

/-- Whether no new leader is mistaken for the character. -/
def Spared (l m : Leaders) (c : Char) : Prop := m.isLeader c → l.isLeader c

theorem isLeader_iff : l.isLeader c ↔ c = l.command ∨ c = l.control := by
  simp [Leaders.isLeader]

theorem rename_of_not_leader (m : Leaders) (hc : ¬ l.isLeader c) : l.rename m c = c := by
  rw [isLeader_iff, not_or] at hc
  rw [Leaders.rename, if_neg hc.1, if_neg hc.2]

theorem isLeader_rename_of_leader (m : Leaders) (hc : l.isLeader c) : m.isLeader (l.rename m c) := by
  unfold Leaders.rename
  split_ifs with hcommand hcontrol
  · exact isLeader_iff.mpr (.inl rfl)
  · exact isLeader_iff.mpr (.inr rfl)
  · exact absurd (isLeader_iff.mp hc) (not_or.mpr ⟨hcommand, hcontrol⟩)

theorem isLeader_rename_iff (hc : Spared l m c) : m.isLeader (l.rename m c) ↔ l.isLeader c := by
  refine ⟨fun h => ?_, isLeader_rename_of_leader m⟩
  by_contra hleader
  rw [rename_of_not_leader m hleader] at h
  exact hleader (hc h)

theorem rename_injective (hdistinct : m.command ≠ m.control) {d : Char} (hc : Spared l m c) (hd : Spared l m d)
    (h : l.rename m c = l.rename m d) : c = d := by
  by_cases hcl : l.isLeader c
  · have hdl : l.isLeader d := by
      rw [← isLeader_rename_iff hd, ← h]
      exact isLeader_rename_of_leader m hcl
    unfold Leaders.rename at h
    rcases isLeader_iff.mp hcl with rfl | rfl <;> rcases isLeader_iff.mp hdl with rfl | rfl <;> grind
  · have hdl : ¬ l.isLeader d := by rwa [← isLeader_rename_iff hd, ← h, isLeader_rename_iff hc]
    rwa [rename_of_not_leader m hcl, rename_of_not_leader m hdl] at h

theorem rename_congr {q : Char → Bool} (hl : ∀ c, l.isLeader c → ¬ q c) (hm : ∀ c, m.isLeader c → ¬ q c) (c : Char) :
    q (l.rename m c) = q c := by
  by_cases hc : l.isLeader c
  · have hold := hl c hc
    have hnew := hm _ (isLeader_rename_of_leader m hc)
    rw [Bool.not_eq_true] at hold hnew
    rw [hold, hnew]
  · rw [rename_of_not_leader m hc]

section Reading

variable (hl : l.Plain) (hm : m.Plain)

include hl in
theorem rename_mnemonic (h : Mnemonic name) : name.map (l.rename m) = name := by
  rw [List.map_congr_left fun c hc => rename_of_not_leader m (hl.not_leader h c hc), List.map_id']

include hl in
theorem rename_terminator : l.terminator.map (l.rename m) = m.terminator := by
  have hletters : fieldSeparator.map (l.rename m) = fieldSeparator :=
    rename_mnemonic hl (.two (by decide) (by decide) (by decide))
  rw [Leaders.terminator, List.map_cons, hletters, Leaders.rename, if_pos rfl]
  rfl

include hm in
theorem spared_of_mem_terminator : ∀ c ∈ l.terminator, Spared l m c := by
  intro c hc hnew
  rcases List.mem_cons.mp hc with rfl | hletter
  · exact isLeader_iff.mpr (.inl rfl)
  · exact absurd hnew (hm.not_leader (.two (by decide) (by decide) (by decide)) c hletter)

include hl hm in
theorem mnemonic?_rename_eq_none (h : mnemonic? s = none) : mnemonic? (s.map (l.rename m)) = none := by
  rw [mnemonic?_eq_none_iff] at h ⊢
  intro c hc
  rw [List.head?_map] at hc
  obtain ⟨d, hd, rfl⟩ := Option.map_eq_some_iff.mp hc
  rw [rename_congr hl.not_alphanumeric hm.not_alphanumeric]
  exact h d hd

include hl hm in
theorem mnemonic?_rename (h : mnemonic? s = some (name, t)) :
    mnemonic? (s.map (l.rename m)) = some (name, t.map (l.rename m)) := by
  obtain rfl := eq_append_of_mnemonic? h
  obtain ⟨hname, hend⟩ := mnemonic?_append_iff.mp h
  rw [List.map_append, rename_mnemonic hl hname]
  refine mnemonic?_append hname fun c hc hlonger => ?_
  rw [List.head?_map] at hc
  obtain ⟨d, hd, rfl⟩ := Option.map_eq_some_iff.mp hc
  -- What goes on with the mnemonic is no leader, so it has kept its name.
  have hleader : ¬ l.isLeader d := fun hleader =>
    hm.not_leader hlonger _ (by simp) (isLeader_rename_of_leader m hleader)
  rw [rename_of_not_leader m hleader] at hlonger
  exact hend d hd hlonger

include hl hm in
theorem body_rename (hdistinct : m.command ≠ m.control) (hs : ∀ c ∈ s, Spared l m c) (name : List Char) :
    body m name (s.map (l.rename m)) =
      ⟨(body l name s).params.map (l.rename m), (body l name s).closing.map (l.rename m),
        (body l name s).rest.map (l.rename m)⟩ := by
  unfold body
  split_ifs with hname
  · have hcut : cut? (l.terminator.map (l.rename m)) (s.map (l.rename m)) = _ := cut?_map fun p hp c hc =>
      rename_injective hdistinct (spared_of_mem_terminator hm p hp) (hs c hc)
    rw [rename_terminator hl] at hcut
    rw [hcut]
    cases cut? l.terminator s with
    | none => rfl
    | some o => simp [rename_terminator hl]
  · have hparams : ∀ c ∈ (s.takeWhile (!l.isLeader ·)).map (l.rename m), ¬ m.isLeader c := by
      rw [List.forall_mem_map]
      intro c hc
      rw [isLeader_rename_iff (hs c ((List.takeWhile_prefix _).subset hc))]
      simpa using List.mem_takeWhile_imp hc
    have hrest : ∀ c ∈ ((s.dropWhile (!l.isLeader ·)).map (l.rename m)).head?, m.isLeader c := by
      rw [List.head?_map]
      intro c hc
      obtain ⟨d, hd, rfl⟩ := Option.map_eq_some_iff.mp hc
      have hleader := List.head?_dropWhile_not (!l.isLeader ·) s
      exact isLeader_rename_of_leader m (by simpa [hd] using hleader)
    obtain ⟨htake, hdrop⟩ := split_at_leader hparams hrest
    rw [← List.map_append, List.takeWhile_append_dropWhile] at htake hdrop
    rw [htake, hdrop, List.map_nil]

/-- The characters of a command with other leaders. -/
def Span.rename (l m : Leaders) (p : Span) : Span where
  leader := l.rename m p.leader
  name := p.name
  raw := p.raw.map (l.rename m)
  closing := p.closing.map (l.rename m)

include hl in
theorem Span.text_rename (hname : Mnemonic p.name) : (p.rename l m).text = p.text.map (l.rename m) := by
  simp [Span.rename, Span.text, rename_mnemonic hl hname]

include hl hm in
theorem Span.params_rename (p : Span) : (p.rename l m).params = p.params.map (l.rename m) := by
  by_cases hname : p.name = fieldData
  · have hsame : (p.rename l m).name = fieldData := hname
    rw [Span.params, if_pos hsame, Span.params, if_pos hname]
    rfl
  · have hsame : (p.rename l m).name ≠ fieldData := hname
    rw [Span.params, if_neg hsame, Span.params, if_neg hname]
    exact trim_map fun c _ => rename_congr hl.not_blank hm.not_blank c

include hl hm in
theorem Span.Opens.rename (hdistinct : m.command ≠ m.control) (hp : p.Opens l rest)
    (hs : ∀ c ∈ p.text ++ rest, Spared l m c) : (p.rename l m).Opens m (rest.map (l.rename m)) := by
  have hmnemonic := mnemonic?_rename hl hm hp.mnemonic?
  have hbody : ∀ c ∈ p.raw ++ p.closing ++ rest, Spared l m c := by
    intro c hc
    apply hs
    simp only [Span.text, List.mem_append, List.mem_cons] at hc ⊢
    tauto
  have hopens := opens_body (isLeader_rename_of_leader m hp.leader) hmnemonic
  rw [body_rename hl hm hdistinct hbody, hp.ends.body_eq] at hopens
  exact hopens

/-! ## Tokens -/

/-- Two tokens of a text with one and with the other leaders: they have one name, stand between the same characters,
and the parameters differ in the leaders alone. -/
def Token.Renamed (l m : Leaders) (x : List Char) (t u : Token) : Prop :=
  u.name = t.name ∧ u.params = t.params.map (l.rename m) ∧
    ∃ i j, i < j ∧ j ≤ x.length ∧ t.start = byteLength (x.take i) ∧ t.stop = byteLength (x.take j) ∧
      u.start = byteLength ((x.map (l.rename m)).take i) ∧ u.stop = byteLength ((x.map (l.rename m)).take j)

include hl hm in
theorem Span.renamed_token (hname : Mnemonic p.name) (before rest : List Char) :
    Token.Renamed l m (before ++ (p.text ++ rest)) (p.token (byteLength before))
      ((p.rename l m).token (byteLength (before.map (l.rename m)))) := by
  have hpos : 0 < p.text.length := Nat.succ_pos _
  have hstart : (before ++ (p.text ++ rest)).take before.length = before := List.take_left
  have hstop : (before ++ (p.text ++ rest)).take (before ++ p.text).length = before ++ p.text := by
    rw [← List.append_assoc]
    exact List.take_left
  refine ⟨rfl, Span.params_rename hl hm p, before.length, (before ++ p.text).length, by simp [hpos], by simp, ?_⟩
  rw [← List.map_take, ← List.map_take, hstart, hstop, List.map_append, byteLength_append, byteLength_append,
    ← Span.text_rename hl hname]
  exact ⟨rfl, rfl, rfl, rfl⟩

include hl hm in
theorem forall₂_scan_renamed (hdistinct : m.command ≠ m.control) (before s : List Char)
    (hs : ∀ c ∈ s, Spared l m c) :
    List.Forall₂ (Token.Renamed l m (before ++ s)) (scan l (byteLength before) s)
      (scan m (byteLength (before.map (l.rename m))) (s.map (l.rename m))) := by
  induction s using text_induction (l := l) generalizing before with
  | nil =>
    rw [List.map_nil, scan_nil, scan_nil]
    exact .nil
  | skip c s hskip ih =>
    rw [List.forall_mem_cons] at hs
    have hskip' : m.isLeader (l.rename m c) → mnemonic? (s.map (l.rename m)) = none := fun hc =>
      mnemonic?_rename_eq_none hl hm (hskip ((isLeader_rename_iff hs.1).mp hc))
    have hnext := ih (before ++ [c]) hs.2
    rw [List.map_cons, scan_skip hskip, scan_skip hskip']
    simpa using hnext
  | span p rest hp ih =>
    have hnext := ih (before ++ p.text) fun c hc => hs c (List.mem_append_right _ hc)
    rw [List.append_assoc, List.map_append, byteLength_append, byteLength_append,
      ← Span.text_rename hl hp.name.mnemonic] at hnext
    rw [List.map_append, ← Span.text_rename hl hp.name.mnemonic, scan_span hp,
      scan_span (hp.rename hl hm hdistinct hs)]
    exact .cons (Span.renamed_token hl hm hp.name.mnemonic before rest) hnext

end Reading

/-- A text in which two other characters stand in the place of the leaders is read with them as before: the same
commands between the same characters, with parameters that differ in the leaders alone. -/
theorem forall₂_tokenize_renamed (c d : Char) (hdistinct : c ≠ d) (hc : ¬ isAlphanumeric c ∧ c ≠ '@' ∧ ¬ isBlank c)
    (hd : ¬ isAlphanumeric d ∧ d ≠ '@' ∧ ¬ isBlank d) (x : List Char) (hcx : c ∉ x) (hdx : d ∉ x) :
    List.Forall₂ (Token.Renamed {} ⟨c, d⟩ x) (tokenize {} x)
      (tokenize ⟨c, d⟩ (x.map (Leaders.rename {} ⟨c, d⟩))) := by
  have hm : Leaders.Plain ⟨c, d⟩ := by
    refine ⟨?_, ?_, ?_⟩
    · intro e he
      rcases isLeader_iff.mp he with rfl | rfl
      · exact hc.1
      · exact hd.1
    · intro hat
      rcases isLeader_iff.mp hat with h | h
      · exact hc.2.1 h.symm
      · exact hd.2.1 h.symm
    · intro e he
      rcases isLeader_iff.mp he with rfl | rfl
      · exact hc.2.2
      · exact hd.2.2
  refine forall₂_scan_renamed plain_usual hm hdistinct [] x fun e he hnew => ?_
  rcases isLeader_iff.mp hnew with rfl | rfl
  · exact absurd he hcx
  · exact absurd he hdx

/-- A leader that takes four bytes, and the one that was the other leader before. -/
theorem forall₂_tokenize_renamed_tag :
    let x := "é^FDa^b^FS^GB 2 ,^3".toList
    (('🏷' ≠ '~' ∧ '🏷' ∉ x ∧ '~' ∉ x) ∧ (¬ isAlphanumeric '🏷' ∧ '🏷' ≠ '@' ∧ ¬ isBlank '🏷') ∧
      ¬ isAlphanumeric '~' ∧ '~' ≠ '@' ∧ ¬ isBlank '~') ∧
      List.Forall₂ (Token.Renamed {} ⟨'🏷', '~'⟩ x) (tokenize {} x)
        [⟨fieldData, "a🏷b".toList, 2, 20⟩, ⟨['G', 'B'], "2 ,".toList, 20, 30⟩, ⟨['3'], [], 30, 35⟩] := by
  intro x
  have htag : ¬ isAlphanumeric '🏷' ∧ '🏷' ≠ '@' ∧ ¬ isBlank '🏷' := by decide +kernel
  have htilde : ¬ isAlphanumeric '~' ∧ '~' ≠ '@' ∧ ¬ isBlank '~' := by decide +kernel
  have habsent : '🏷' ≠ '~' ∧ '🏷' ∉ x ∧ '~' ∉ x := by decide +kernel
  have hread : tokenize ⟨'🏷', '~'⟩ (x.map (Leaders.rename {} ⟨'🏷', '~'⟩)) =
      [⟨fieldData, "a🏷b".toList, 2, 20⟩, ⟨['G', 'B'], "2 ,".toList, 20, 30⟩, ⟨['3'], [], 30, 35⟩] := by
    decide +kernel
  refine ⟨⟨habsent, htag, htilde⟩, ?_⟩
  rw [← hread]
  exact forall₂_tokenize_renamed '🏷' '~' habsent.1 htag htilde x habsent.2.1 habsent.2.2

end LabelPress.Markup
