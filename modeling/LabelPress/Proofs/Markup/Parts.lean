import LabelPress.Proofs.Markup.Spans

/-!
# Reading a text in parts

A part that leaves no field data open may be read apart from what follows it, if that begins with a
leader (`scan_append`) or with blanks in front of one (`contents_append`). A part that leaves field
data open is read together with what follows (`exists_open_token`).
-/

namespace LabelPress.Markup

open Text

/-- A leader belongs to no mnemonic and is no blank. -/
structure Leaders.Plain (l : Leaders) : Prop where
  not_alphanumeric : ∀ c, l.isLeader c → ¬ isAlphanumeric c
  not_at : ¬ l.isLeader '@'
  not_blank : ∀ c, l.isLeader c → ¬ isBlank c

/-- A leader belongs to no mnemonic. -/
structure Leaders.Apart (l : Leaders) : Prop where
  not_alphanumeric : ∀ c, l.isLeader c → ¬ isAlphanumeric c
  not_at : ¬ l.isLeader '@'

theorem Leaders.Plain.apart {l : Leaders} (hl : l.Plain) : l.Apart := ⟨hl.not_alphanumeric, hl.not_at⟩

theorem isLeader_usual_iff {c : Char} : ({} : Leaders).isLeader c ↔ c = '^' ∨ c = '~' := by
  simp [Leaders.isLeader]

theorem plain_usual : ({} : Leaders).Plain where
  not_alphanumeric := by
    intro c hc
    rcases isLeader_usual_iff.mp hc with rfl | rfl <;> decide
  not_at := by decide
  not_blank := by
    intro c hc
    rcases isLeader_usual_iff.mp hc with rfl | rfl <;> decide

variable {l : Leaders} {p : Span} {c : Char} {name s t u v w rest : List Char}

theorem not_isLeader_of_isDigit (hc : c.isDigit) : ¬ ({} : Leaders).isLeader c := by
  intro h
  rcases isLeader_usual_iff.mp h with rfl | rfl
  · exact absurd hc (by decide)
  · exact absurd hc (by decide)

theorem Leaders.Apart.not_mnemonic (hl : l.Apart) (hc : l.isLeader c) : ¬ Mnemonic (name ++ [c]) := by
  apply not_mnemonic_concat (hl.not_alphanumeric c hc)
  rintro rfl
  exact hl.not_at hc

theorem Leaders.Plain.not_leader (hl : l.Plain) (h : Mnemonic name) : ∀ c ∈ name, ¬ l.isLeader c := by
  intro c hc hleader
  rcases h.mem c hc with ha | rfl
  · exact hl.not_alphanumeric c hleader ha
  · exact hl.not_at hleader

/-! ## What stays when more follows -/

theorem Span.Opens.longest_append (hp : p.Opens l rest)
    (hv : p.raw ++ p.closing ++ rest = [] → ∀ c ∈ v.head?, ¬ Mnemonic (p.name ++ [c])) :
    LongestMnemonic p.name (p.name ++ p.raw ++ p.closing ++ (rest ++ v)) := by
  have hm := hp.mnemonic?
  have h := longestMnemonic_of_append (t := p.raw ++ p.closing ++ rest ++ v) hp.name.mnemonic (by
    intro d hd
    cases ht : p.raw ++ p.closing ++ rest with
    | nil =>
      rw [ht, List.nil_append] at hd
      exact hv ht d hd
    | cons e t =>
      rw [ht] at hd hm
      exact not_mnemonic_of_mnemonic? hm d (by simpa using hd))
  simpa using h

theorem Span.Ends.first_append (hname : p.name = fieldData) (hclosing : p.closing ≠ []) (h : p.Ends l rest) :
    p.Ends l (rest ++ v) := by
  unfold Span.Ends at h ⊢
  rw [if_pos hname] at h ⊢
  rcases h with ⟨hc, hfirst⟩ | ⟨hc, -, -⟩
  · refine .inl ⟨hc, fun x y hxy => ?_⟩
    by_contra hlt
    -- An earlier terminator would end before `v`.
    rw [← List.append_assoc] at hxy
    obtain ⟨z, hz, -⟩ | ⟨z, hz, -⟩ := List.append_eq_append_iff.mp (hxy.symm)
    · exact hlt (hfirst x z (by rw [hz]))
    · have := congrArg List.length hz
      simp at this hlt
      omega
  · exact absurd hc hclosing

theorem Span.Opens.append (hl : l.Apart) (hp : p.Opens l rest) (hseal : p.name = fieldData → p.closing ≠ [])
    (hv : rest = [] → p.closing = [] → ∀ c ∈ v.head?, l.isLeader c) : p.Opens l (rest ++ v) := by
  refine ⟨hp.leader, hp.longest_append ?_, ?_⟩
  · intro hnil c hc
    simp only [List.append_eq_nil_iff] at hnil
    exact hl.not_mnemonic (hv hnil.2 hnil.1.2 c hc)
  · by_cases hname : p.name = fieldData
    · exact hp.ends.first_append hname (hseal hname)
    · have h := hp.ends
      unfold Span.Ends at h ⊢
      rw [if_neg hname] at h ⊢
      obtain ⟨hc, hraw, hrest⟩ := h
      refine ⟨hc, hraw, ?_⟩
      cases rest with
      | nil => exact hv rfl hc
      | cons d rest => simpa using hrest

theorem Span.Opens.closing_iff (hl : l.Apart) (hp : p.Opens l rest) (hname : p.name = fieldData) :
    l.terminator <:+ p.text ↔ p.closing ≠ [] := by
  have h := hp.ends
  rw [Span.Ends, if_pos hname] at h
  rw [Span.text]
  rcases h with ⟨hc, -⟩ | ⟨hc, -, hnone⟩
  · rw [hc]
    exact iff_of_true ⟨p.leader :: (p.name ++ p.raw), by simp⟩ (by simp [Leaders.terminator])
  · simp only [hc, List.append_nil, ne_eq, not_true_eq_false, iff_false, hname]
    -- No end of the mnemonic goes on to the terminator.
    intro hsuffix
    simp only [fieldData, Leaders.terminator, fieldSeparator, List.cons_append, List.nil_append,
      List.suffix_cons_iff] at hsuffix
    rcases hsuffix with h | h | h | h
    · simp at h
    · simp at h
    · have hcommand : l.command = 'D' := (List.cons.inj h).1
      exact hl.not_alphanumeric 'D' (by simp [Leaders.isLeader, hcommand]) (by decide)
    · exact hnone h.isInfix

/-! ## Two parts -/

theorem sealed_nil (l : Leaders) : Sealed l [] := by simp [Sealed]

theorem sealed_skip_iff (h : l.isLeader c → mnemonic? s = none) : Sealed l (c :: s) ↔ Sealed l s := by
  rw [Sealed, Sealed, spans_skip h]

theorem sealed_span_iff (h : p.Opens l rest) :
    Sealed l (p.text ++ rest) ↔ (p.name = fieldData → p.closing ≠ []) ∧ Sealed l rest := by
  rw [Sealed, Sealed, spans_span h, List.forall_mem_cons]

theorem sealed_of_tokens (hl : l.Apart) (h : ∀ t ∈ tokenize l s, t.name = fieldData →
    l.terminator <:+ slice s t.start t.stop) : Sealed l s := by
  have hspans := (forall_tokenize_iff fun o text => o.1 = fieldData → l.terminator <:+ text).mp h
  intro p hp hname
  obtain ⟨before, rest, -, hopens⟩ := opens_of_mem_spans hp
  exact (hopens.closing_iff hl hname).mp (hspans p hp hname)

theorem mnemonic?_append_eq_none (h : mnemonic? s = none) (hv : ∀ c ∈ v.head?, ¬ isAlphanumeric c) :
    mnemonic? (s ++ v) = none := by
  rw [mnemonic?_eq_none_iff] at h ⊢
  cases s with
  | nil => exact hv
  | cons c s => simpa using h

theorem scan_append (hl : l.Apart) (hu : Sealed l u) (hv : ∀ c ∈ v.head?, l.isLeader c) (offset : Nat) :
    scan l offset (u ++ v) = scan l offset u ++ scan l (offset + byteLength u) v := by
  induction u using text_induction (l := l) generalizing offset with
  | nil => simp [scan_nil]
  | skip c s hskip ih =>
    have hskip' : l.isLeader c → mnemonic? (s ++ v) = none := fun hc =>
      mnemonic?_append_eq_none (hskip hc) fun d hd => hl.not_alphanumeric d (hv d hd)
    rw [List.cons_append, scan_skip hskip', scan_skip hskip, ih ((sealed_skip_iff hskip).mp hu), byteLength_cons,
      Nat.add_assoc]
  | span p rest hp ih =>
    obtain ⟨hseal, hrest⟩ := (sealed_span_iff hp).mp hu
    have hp' : p.Opens l (rest ++ v) := hp.append hl hseal fun _ _ => hv
    rw [List.append_assoc, scan_span hp', scan_span hp, ih hrest, List.cons_append, byteLength_append, Nat.add_assoc]

theorem contents_append_leader (hl : l.Plain) (hu : Sealed l u) (hv : ∀ c ∈ v.head?, l.isLeader c) :
    contents l (u ++ v) = contents l u ++ contents l v := by
  rw [← map_content_tokenize, tokenize, scan_append hl.apart hu hv, List.map_append, map_content_scan, map_content_scan]

theorem spans_of_not_leader (hw : ∀ c ∈ w, ¬ l.isLeader c) (s : List Char) : spans l (w ++ s) = spans l s := by
  induction w with
  | nil => rfl
  | cons c w ih =>
    rw [List.forall_mem_cons] at hw
    rw [List.cons_append, spans_skip fun hc => absurd hc hw.1, ih hw.2]

theorem exists_spans_cons (hl : l.Plain) (hc : l.isLeader c) (hm : mnemonic? s = some (name, t))
    (hname : name ≠ fieldData) : ∃ p : Span, p.name = name ∧ spans l (c :: s) = p :: spans l s := by
  obtain ⟨p, rest, hp, -, rfl, hs⟩ := exists_opens hc hm
  have hends := hp.ends
  rw [Span.Ends, if_neg hname] at hends
  refine ⟨p, rfl, ?_⟩
  rw [hs, spans_span hp]
  simp only [Span.text, List.cons_append, List.cons.injEq, hends.1, List.append_nil] at hs
  rw [hs.2, spans_of_not_leader]
  intro d hd
  rcases List.mem_append.mp hd with hd | hd
  · exact hl.not_leader hp.name.mnemonic d hd
  · exact hends.2.1 d hd

/-- A part that does not begin with a letter or digit makes no command before it into field data. -/
theorem sealed_append_iff (hl : l.Plain) (hu : Sealed l u) (hv : ∀ c ∈ v.head?, ¬ isAlphanumeric c) :
    Sealed l (u ++ v) ↔ Sealed l v := by
  induction u using text_induction (l := l) with
  | nil => simp
  | skip c s hskip ih =>
    have hskip' : l.isLeader c → mnemonic? (s ++ v) = none := fun hc => mnemonic?_append_eq_none (hskip hc) hv
    rw [List.cons_append, sealed_skip_iff hskip', ih ((sealed_skip_iff hskip).mp hu)]
  | span p rest hp ih =>
    obtain ⟨hseal, hrest⟩ := (sealed_span_iff hp).mp hu
    by_cases hend : rest = [] ∧ p.closing = []
    · obtain ⟨rfl, hclosing⟩ := hend
      have hname : p.name ≠ fieldData := fun h => hseal h hclosing
      have hends := hp.ends
      rw [Span.Ends, if_neg hname] at hends
      have hplain : ∀ c ∈ p.name ++ p.raw, ¬ l.isLeader c := by
        intro c hc
        rcases List.mem_append.mp hc with hc | hc
        · exact hl.not_leader hp.name.mnemonic c hc
        · exact hends.2.1 c hc
      obtain ⟨c, n, hn, hc⟩ := hp.name.mnemonic.exists_cons
      -- What is read now may have a longer mnemonic, but it is not field data.
      obtain ⟨⟨name', t⟩, hm⟩ : ∃ o, mnemonic? (p.name ++ p.raw ++ v) = some o := by
        rw [← Option.ne_none_iff_exists', ne_eq, mnemonic?_eq_none_iff]
        simpa [hn] using hc
      have hlong := hp.name
      rw [hclosing, List.append_nil, List.append_nil] at hlong
      have hname' : name' ≠ fieldData := by
        rintro rfl
        exact not_fieldData_append hlong hname hv (mnemonic?_eq_some_iff.mp hm).1.begins
      obtain ⟨q, hq, hspans⟩ := exists_spans_cons hl hp.leader hm hname'
      have htext : p.text ++ [] ++ v = p.leader :: (p.name ++ p.raw ++ v) := by simp [Span.text, hclosing]
      rw [htext, Sealed, hspans, spans_of_not_leader hplain, List.forall_mem_cons, ← Sealed]
      simp [hq, hname']
    · have hp' : p.Opens l (rest ++ v) := hp.append hl.apart hseal fun h1 h2 => absurd ⟨h1, h2⟩ hend
      rw [List.append_assoc, sealed_span_iff hp', ih hrest]
      exact and_iff_right hseal

/-- Blanks, and then a leader or the end of the text. -/
def Fresh (l : Leaders) (s : List Char) : Prop := ∀ c ∈ (trimStart s).head?, l.isLeader c

theorem Fresh.exists_blanks (h : Fresh l v) :
    ∃ w s, v = w ++ s ∧ (∀ c ∈ w, isBlank c) ∧ ∀ c ∈ s.head?, l.isLeader c :=
  ⟨v.takeWhile isBlank, trimStart v, List.takeWhile_append_dropWhile.symm,
    fun _ hc => List.mem_takeWhile_imp hc, h⟩

theorem Fresh.head (hl : l.Plain) (h : Fresh l v) : ∀ c ∈ v.head?, ¬ isAlphanumeric c ∧ c ≠ '@' := by
  obtain ⟨w, s, rfl, hw, hs⟩ := h.exists_blanks
  intro c hc
  cases w with
  | nil =>
    refine ⟨hl.not_alphanumeric c (hs c hc), ?_⟩
    rintro rfl
    exact hl.not_at (hs _ hc)
  | cons d w =>
    have hb : isBlank c := by
      rw [List.cons_append, List.head?_cons, Option.mem_some_iff] at hc
      exact hc ▸ hw d List.mem_cons_self
    refine ⟨by simp [isAlphanumeric_of_isBlank hb], ?_⟩
    rintro rfl
    exact absurd hb (by decide)

/-- Blanks between two parts belong to neither. -/
theorem contents_append (hl : l.Plain) (hu : Sealed l u) (hv : Fresh l v) :
    contents l (u ++ v) = contents l u ++ contents l v := by
  simp only [contents]
  induction u using text_induction (l := l) with
  | nil => simp
  | skip c s hskip ih =>
    have hskip' : l.isLeader c → mnemonic? (s ++ v) = none := fun hc =>
      mnemonic?_append_eq_none (hskip hc) fun d hd => (hv.head hl d hd).1
    rw [List.cons_append, spans_skip hskip', spans_skip hskip, ih ((sealed_skip_iff hskip).mp hu)]
  | span p rest hp ih =>
    obtain ⟨hseal, hrest⟩ := (sealed_span_iff hp).mp hu
    by_cases hend : rest = [] ∧ p.closing = []
    · obtain ⟨rfl, hclosing⟩ := hend
      have hname : p.name ≠ fieldData := fun h => hseal h hclosing
      obtain ⟨w, s, rfl, hw, hs⟩ := hv.exists_blanks
      -- The last command takes the blanks.
      have hq : Span.Opens l ⟨p.leader, p.name, p.raw ++ w, p.closing⟩ s := by
        refine ⟨hp.leader, ?_, ?_⟩
        · have := hp.longest_append (v := w ++ s) fun _ c hc =>
            not_mnemonic_concat (hv.head hl c hc).1 (hv.head hl c hc).2
          simpa [hclosing] using this
        · have hends := hp.ends
          unfold Span.Ends at hends ⊢
          rw [if_neg hname] at hends ⊢
          refine ⟨hclosing, fun c hc => ?_, hs⟩
          rcases List.mem_append.mp hc with hc | hc
          · exact hends.2.1 c hc
          · exact fun h => hl.not_blank c h (hw c hc)
      have htext : p.text ++ [] ++ (w ++ s) = (Span.mk p.leader p.name (p.raw ++ w) p.closing).text ++ s := by
        simp [Span.text, hclosing]
      rw [htext, spans_span hq, spans_span hp, spans_of_not_leader fun c hc h => hl.not_blank c h (hw c hc)]
      simp [Span.content, Span.params, hname, trim_append hw]
    · have hp' : p.Opens l (rest ++ v) := hp.append hl.apart hseal fun h1 h2 => absurd ⟨h1, h2⟩ hend
      rw [List.append_assoc, spans_span hp', spans_span hp, List.map_cons, ih hrest, List.map_cons, List.cons_append]

/-! ## A part that leaves field data open -/

theorem terminator_prefix_left (hv : ∀ c ∈ v.head?, ¬ isAlphanumeric c) (hu : u ≠ [])
    (h : l.terminator <+: u ++ v) : l.terminator <+: u := by
  obtain ⟨r, hr⟩ := h
  rcases List.append_eq_append_iff.mp hr with ⟨w, hw, -⟩ | ⟨w, hw, rfl⟩
  · exact ⟨w, hw.symm⟩
  · obtain ⟨c, u, rfl⟩ := List.exists_cons_of_ne_nil hu
    simp only [Leaders.terminator, List.cons_append, List.cons.injEq] at hw
    cases w with
    | nil => exact ⟨[], by simp [Leaders.terminator, hw.1, hw.2]⟩
    | cons d w =>
      have hd : d ∈ fieldSeparator := by simp [hw.2]
      refine absurd ?_ (hv d rfl)
      simp only [fieldSeparator, List.mem_cons, List.not_mem_nil, or_false] at hd
      rcases hd with rfl | rfl <;> decide

theorem misses_terminator {raw m : List Char} (hraw : ¬ l.terminator <:+: raw) (hm : Misses l.terminator m)
    (hhead : ∀ c ∈ m.head?, ¬ isAlphanumeric c) (hne : m ≠ []) : Misses l.terminator (raw ++ m) := by
  intro x y z hxy hy hpre
  rcases List.append_eq_append_iff.mp hxy with ⟨w, -, hw⟩ | ⟨w, hw, rfl⟩
  · exact hm w y z hw hy hpre
  · by_cases hwnil : w = []
    · subst hwnil
      exact hm [] m z rfl hne (by simpa using hpre)
    · -- It would begin in front of `m` and end there.
      rw [List.append_assoc] at hpre
      have hv : ∀ c ∈ (m ++ z).head?, ¬ isAlphanumeric c := by
        rw [List.head?_append_of_ne_nil _ hne]
        exact hhead
      obtain ⟨r, hr⟩ := terminator_prefix_left hv hwnil hpre
      exact hraw ⟨x, r, by rw [List.append_assoc, hr, hw]⟩

theorem body_fieldData_append (hu : Misses l.terminator u) (s : List Char) :
    body l fieldData (u ++ s) =
      ⟨u ++ (body l fieldData s).params, (body l fieldData s).closing, (body l fieldData s).rest⟩ := by
  simp only [body, if_true, cut?_append_left hu]
  cases cut? l.terminator s with
  | none => rfl
  | some o => rfl

/-- Field data without an end. -/
structure Span.Unclosed (l : Leaders) (p : Span) : Prop where
  leader : l.isLeader p.leader
  name : p.name = fieldData
  closing : p.closing = []
  raw : ¬ l.terminator <:+: p.raw

theorem exists_open_scan (hl : l.Plain) (hu : ¬ Sealed l u) (offset : Nat) : ∃ ts before, ∃ p : Span,
    u = before ++ p.text ∧ p.Unclosed l ∧
      ∀ v, scan l offset (u ++ v) = ts ++ scan l (offset + byteLength before) (p.text ++ v) := by
  induction u using text_induction (l := l) generalizing offset with
  | nil => exact absurd (sealed_nil l) hu
  | skip c u hskip ih =>
    rw [sealed_skip_iff hskip] at hu
    obtain ⟨ts, before, p, rfl, hp, hscan⟩ := ih hu (offset + c.utf8Size)
    refine ⟨ts, c :: before, p, rfl, hp, fun v => ?_⟩
    have hskip' : l.isLeader c → mnemonic? (before ++ p.text ++ v) = none := by
      intro hc
      have h := mnemonic?_eq_none_iff.mp (hskip hc)
      rw [mnemonic?_eq_none_iff, List.head?_append_of_ne_nil _ (by simp [Span.text])]
      exact h
    rw [List.cons_append, scan_skip hskip', hscan, byteLength_cons, Nat.add_assoc]
  | span q rest hq ih =>
    by_cases hopen : q.name = fieldData ∧ q.closing = []
    · obtain ⟨hname, hclosing⟩ := hopen
      have hends := hq.ends
      rw [Span.Ends, if_pos hname] at hends
      rcases hends with ⟨hc, -⟩ | ⟨-, rfl, hnone⟩
      · rw [hclosing] at hc
        exact absurd hc (by simp [Leaders.terminator])
      · exact ⟨[], [], q, by simp, ⟨hq.leader, hname, hclosing, hnone⟩, fun v => by simp⟩
    · have hseal : q.name = fieldData → q.closing ≠ [] := fun h1 h2 => hopen ⟨h1, h2⟩
      have hrest : ¬ Sealed l rest := fun h => hu ((sealed_span_iff hq).mpr ⟨hseal, h⟩)
      obtain ⟨ts, before, p, hu, hp, hscan⟩ := ih hrest (offset + byteLength q.text)
      refine ⟨q.token offset :: ts, q.text ++ before, p, by simp [hu], hp, fun v => ?_⟩
      have hq' : q.Opens l (rest ++ v) := hq.append hl.apart hseal fun h => by
        subst h
        exact absurd (sealed_nil l) hrest
      rw [List.append_assoc, scan_span hq', hscan, byteLength_append, Nat.add_assoc, List.cons_append]

theorem exists_open_contents (hl : l.Plain) (hu : ¬ Sealed l u) : ∃ cs before, ∃ p : Span,
    u = before ++ p.text ∧ p.Unclosed l ∧ ∀ v, contents l (u ++ v) = cs ++ contents l (p.text ++ v) := by
  obtain ⟨ts, before, p, rfl, hp, hscan⟩ := exists_open_scan hl hu 0
  refine ⟨ts.map Token.content, before, p, rfl, hp, fun v => ?_⟩
  rw [← map_content_scan 0, hscan, List.map_append, map_content_scan]

/-! Field data without an end goes on into what follows it. -/

theorem Span.Unclosed.opens (hp : p.Unclosed l) (s : List Char) :
    (Span.mk p.leader fieldData (body l fieldData (p.raw ++ s)).params
      (body l fieldData (p.raw ++ s)).closing).Opens l (body l fieldData (p.raw ++ s)).rest :=
  opens_body hp.leader
    (mnemonic?_eq_some_iff.mpr ⟨longestMnemonic_fieldData_iff.mpr (List.prefix_append _ _), rfl⟩)

theorem Span.Unclosed.text_append (hp : p.Unclosed l) (s : List Char) :
    p.text ++ s = (Span.mk p.leader fieldData (body l fieldData (p.raw ++ s)).params
      (body l fieldData (p.raw ++ s)).closing).text ++ (body l fieldData (p.raw ++ s)).rest := by
  have hbody := body_append l fieldData (p.raw ++ s)
  simp only [List.append_assoc] at hbody
  simp [Span.text, hp.name, hp.closing, hbody]

theorem Span.Unclosed.contents_eq (hp : p.Unclosed l) (s : List Char) :
    contents l (p.text ++ s) =
      (fieldData, (body l fieldData (p.raw ++ s)).params) :: contents l (body l fieldData (p.raw ++ s)).rest := by
  rw [hp.text_append, contents, spans_span (hp.opens s)]
  rfl

theorem Span.Unclosed.body_append (hp : p.Unclosed l) {m : List Char} (hm : Misses l.terminator m)
    (hhead : ∀ c ∈ m.head?, ¬ isAlphanumeric c) (hne : m ≠ []) (s : List Char) :
    body l fieldData (p.raw ++ (m ++ s)) =
      ⟨p.raw ++ m ++ (body l fieldData s).params, (body l fieldData s).closing, (body l fieldData s).rest⟩ := by
  rw [← List.append_assoc, body_fieldData_append (misses_terminator hp.raw hm hhead hne)]

theorem Span.Unclosed.body_of_not_joins (hp : p.Unclosed l) (hj : ¬ Joins l.terminator p.raw s) :
    body l fieldData (p.raw ++ s) =
      ⟨p.raw ++ (body l fieldData s).params, (body l fieldData s).closing, (body l fieldData s).rest⟩ := by
  simp only [body, if_true, cut?_append_of_not_joins (cut?_eq_none_iff.mpr hp.raw) hj]
  cases cut? l.terminator s with
  | none => rfl
  | some o => rfl

theorem Span.Unclosed.contents_append (hp : p.Unclosed l) {m : List Char} (hm : Misses l.terminator m)
    (hhead : ∀ c ∈ m.head?, ¬ isAlphanumeric c) (hne : m ≠ []) (s : List Char) :
    contents l (p.text ++ (m ++ s)) =
      (fieldData, p.raw ++ m ++ (body l fieldData s).params) :: contents l (body l fieldData s).rest := by
  rw [hp.contents_eq, hp.body_append hm hhead hne]

/-- If a text leaves field data open, the field data goes on through any needle without leaders. -/
theorem exists_open_token {needle : List Char} (hl : l.Plain) (hne : needle ≠ [])
    (hneedle : ∀ c ∈ needle, ¬ l.isLeader c) (hhead : ∀ c ∈ needle.head?, ¬ isAlphanumeric c)
    (hu : ¬ Sealed l u) (s : List Char) (offset : Nat) :
    ∃ t ∈ scan l offset (u ++ (needle ++ s)), t.name = fieldData ∧
      t.start < offset + byteLength u ∧ offset + byteLength (u ++ needle) ≤ t.stop := by
  obtain ⟨ts, before, p, rfl, hp, hscan⟩ := exists_open_scan hl hu offset
  have hcommand : l.command ∉ needle := fun h => hneedle _ h (by simp [Leaders.isLeader])
  have hopens := hp.opens (needle ++ s)
  rw [hscan, hp.text_append, scan_span hopens, hp.body_append (misses_of_not_mem hcommand) hhead hne]
  refine ⟨_, List.mem_append_right _ List.mem_cons_self, rfl, ?_, ?_⟩
  · have := p.leader.utf8Size_pos
    simp only [Span.token, Span.text, byteLength_append, byteLength_cons]
    omega
  · simp only [Span.token, Span.text, hp.name, hp.closing, byteLength_append, byteLength_cons, byteLength_nil]
    omega

end LabelPress.Markup
