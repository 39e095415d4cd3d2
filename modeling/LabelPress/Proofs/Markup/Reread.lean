import LabelPress.Proofs.Markup.Lines

/-!
# Lines read again

A line is one command, with the mnemonic of the command it is made from (`Span.Opens.exists_line`).
This needs field data that is closed, and no blanks behind a mnemonic of one character: a layout would
join what they keep apart.
-/

namespace LabelPress.Markup

open Text

/-- Blanks stand between the mnemonic and what follows it. -/
def Detached (name text : List Char) : Prop :=
  ∃ leader gap c rest, text = leader :: (name ++ gap ++ c :: rest) ∧ gap ≠ [] ∧
    (∀ b ∈ gap, isBlank b) ∧ ¬ isBlank c

/-- What becomes of the text behind a mnemonic. Letters that the walk takes for a part of the mnemonic
are kept, and a mark that it does not is laid out with the parameters. -/
inductive Laid (style : Style) : List Char → List Char → Prop where
  | letters (e q : List Char) : (∀ c ∈ e, c.isUpper) → Laid style (e ++ q) (e ++ style.params q)
  | mark (d : Char) {raw raw' : List Char} :
      ¬ isBlank d → d ≠ ',' → style.params (d :: raw) = d :: raw' → Laid style raw raw'

variable {p : Span} {style : Style} {s raw raw' rest : List Char}

theorem Laid.dropBlanks_eq (h : Laid style raw raw') : dropBlanks raw' = dropBlanks raw := by
  cases h with
  | letters e q _ => rw [dropBlanks_append, dropBlanks_params, dropBlanks_append]
  | mark d hd _ hraw =>
    have h := dropBlanks_params style (d :: raw)
    rw [hraw, dropBlanks_cons_of_not_blank hd, dropBlanks_cons_of_not_blank hd] at h
    exact (List.cons.inj h).2

theorem isBlank_of_not_detached (h : ¬ Detached p.name p.text) (hclosing : p.closing = [])
    (hhead : ∃ b ∈ p.raw.head?, isBlank b) : ∀ c ∈ p.raw, isBlank c := by
  by_contra hnone
  have hdrop : p.raw.dropWhile isBlank ≠ [] := by rwa [ne_eq, List.dropWhile_eq_nil_iff]
  obtain ⟨c, t, ht⟩ := List.exists_cons_of_ne_nil hdrop
  have hc : ¬ isBlank c := head_trimStart p.raw c (by rw [trimStart, ht]; rfl)
  refine h ⟨p.leader, p.raw.takeWhile isBlank, c, t, ?_, ?_, fun b hb => List.mem_takeWhile_imp hb, hc⟩
  · rw [List.append_assoc, ← ht, List.takeWhile_append_dropWhile, Span.text, hclosing, List.append_nil]
  · obtain ⟨b, hb, hblank⟩ := hhead
    obtain ⟨r, hr⟩ : ∃ r, p.raw = b :: r := ⟨p.raw.tail, List.eq_cons_of_mem_head? hb⟩
    rw [hr, List.takeWhile_cons_of_pos hblank]
    simp

theorem Mnemonic.ne_comma {name : List Char} (h : Mnemonic name) : ',' ∉ name := by
  intro hmem
  rcases h.mem _ hmem with hc | hc
  · exact absurd hc (by decide)
  · exact absurd hc (by decide)

theorem Span.Opens.exists_laid (hp : p.Opens {} rest) (hname : p.name ≠ fieldData) (hlet : isLettered p.name)
    (style : Style) : ∃ raw', p.line style = p.leader :: (p.name ++ raw') ∧ Laid style p.raw raw' ∧
      (p.name.length = 1 → raw'.head? = (dropBlanks p.raw).head?) := by
  have hm := hp.name.mnemonic
  obtain ⟨q, hq⟩ := letters_begin (p.name ++ p.raw)
  have hline := Span.line_eq style hname rfl hq.symm
  have hupper : ∀ c ∈ letters (p.name ++ p.raw), c.isUpper := fun c hc => isUpper_of_mem_letters hc
  have hne : letters (p.name ++ p.raw) ≠ [] := by
    rw [ne_eq, ← isLettered_eq_false_iff hm, hlet]
    simp
  rw [hline]
  generalize letters (p.name ++ p.raw) = code at *
  rcases List.append_eq_append_iff.mp hq with ⟨z, hz, rfl⟩ | ⟨e, rfl, hraw⟩
  · -- The mnemonic goes on behind the letters, by one character at most.
    have hlen := hm.length_le
    have hpos := List.length_pos_iff.mpr hne
    rw [hz, List.length_append] at hlen
    rcases z with _ | ⟨d, _ | ⟨e, z⟩⟩
    · rw [List.append_nil] at hz
      refine ⟨style.params p.raw, by simp [hz], .letters [] p.raw (by simp), fun _ => head_params style p.raw⟩
    · have hd : d ∈ p.name := by simp [hz]
      have hblank : ¬ isBlank d := hm.not_blank d hd
      have hcomma : d ≠ ',' := fun h => hm.ne_comma (h ▸ hd)
      have hhead := head_params style (d :: p.raw)
      rw [dropBlanks_cons_of_not_blank hblank, List.head?_cons] at hhead
      obtain ⟨raw', hraw'⟩ : ∃ raw', style.params (d :: p.raw) = d :: raw' :=
        ⟨_, List.eq_cons_of_mem_head? hhead⟩
      refine ⟨raw', by simp [hz, hraw'], .mark d hblank hcomma hraw', fun h => ?_⟩
      rw [hz, List.length_append, List.length_singleton] at h
      omega
    · simp only [List.length_cons] at hlen
      omega
  · rw [hraw]
    refine ⟨e ++ style.params q, by simp, .letters e q fun c hc => hupper c (by simp [hc]), fun _ => ?_⟩
    cases e with
    | nil => simpa using head_params style q
    | cons c e =>
      have hc : ¬ isBlank c := not_isBlank_of_isUpper (hupper c (by simp))
      rw [List.cons_append, List.cons_append, dropBlanks_cons_of_not_blank hc, List.head?_cons, List.head?_cons]

theorem Span.Opens.exists_line (hp : p.Opens {} rest) (hname : p.name ≠ fieldData) (hlet : isLettered p.name)
    (hattached : p.name.length = 1 → ¬ Detached p.name p.text) (style : Style) :
    ∃ raw', Laid style p.raw raw' ∧ p.line style = (Span.mk p.leader p.name raw' []).text ∧
      (Span.mk p.leader p.name raw' []).Opens {} [] := by
  obtain ⟨raw', hline, hlaid, hhead⟩ := hp.exists_laid hname hlet style
  obtain ⟨hclosing, hfree, -⟩ := hp.ends_at hname
  refine ⟨raw', hlaid, by rw [hline, Span.text, List.append_nil], hp.leader, ?_, ?_⟩
  · have hend : ∀ d ∈ raw'.head?, ¬ Mnemonic (p.name ++ [d]) := by
      intro d hd hlong
      have hlen := hlong.length_le
      have hpos := List.length_pos_iff.mpr hp.name.mnemonic.ne_nil
      rw [List.length_append, List.length_singleton] at hlen
      have hone : p.name.length = 1 := by omega
      rw [hhead hone] at hd
      -- What stands behind the mnemonic stood there before.
      cases hraw : p.raw with
      | nil => simp [hraw] at hd
      | cons c t =>
        by_cases hc : isBlank c
        · have hall := isBlank_of_not_detached (hattached hone) hclosing ⟨c, by simp [hraw], hc⟩
          rw [dropBlanks_of_blank hall] at hd
          simp at hd
        · rw [hraw, dropBlanks_cons_of_not_blank hc, List.head?_cons, Option.mem_some_iff] at hd
          exact not_mnemonic_of_mnemonic? hp.mnemonic? d (by simp [hraw, hd]) hlong
    have hlongest := longestMnemonic_of_append hp.name.mnemonic hend
    simpa using hlongest
  · rw [Span.Ends, if_neg hname]
    refine ⟨rfl, fun c hc hleader => ?_, by simp⟩
    have hmem : c ∈ dropBlanks raw' := List.mem_filter.mpr ⟨hc, by simp [plain_usual.not_blank c hleader]⟩
    rw [hlaid.dropBlanks_eq] at hmem
    exact hfree c (List.mem_append_right _ (List.mem_of_mem_filter hmem)) hleader

theorem Span.Opens.closed (hp : p.Opens {} rest) (hname : p.name = fieldData) (hclosing : p.closing ≠ []) :
    p.Opens {} [] := by
  refine ⟨hp.leader, ?_, ?_⟩
  · rw [hname, longestMnemonic_fieldData_iff]
    simp
  · have h := hp.ends
    rw [Span.Ends, if_pos hname] at h ⊢
    rcases h with ⟨hc, hfirst⟩ | ⟨hc, -, -⟩
    · refine .inl ⟨hc, fun u v huv => hfirst u (v ++ rest) ?_⟩
      rw [List.append_nil] at huv
      rw [huv, List.append_assoc]
    · exact absurd hc hclosing

/-! ## One line and all lines -/

/-- The line of `p`, read again, is the command `q`. -/
structure Span.IsLine (style : Style) (p q : Span) : Prop where
  text : p.line style = q.text
  opens : q.Opens {} []
  name : q.name = p.name
  closed : p.name = fieldData → q.closing ≠ [] ∧ q.raw = p.raw
  laid : p.name ≠ fieldData → Laid style p.raw q.raw

variable {q : Span} {sep : List Char} {parts : List (List Char)}

theorem Span.Opens.exists_isLine (hp : p.Opens {} rest) (hlet : isLettered p.name)
    (hclosed : p.name = fieldData → ({} : Leaders).terminator <:+ p.text)
    (hattached : p.name.length = 1 → ¬ Detached p.name p.text) (style : Style) :
    ∃ q, Span.IsLine style p q := by
  by_cases hname : p.name = fieldData
  · have hclosing := (hp.closing_iff plain_usual.apart hname).mp (hclosed hname)
    refine ⟨p, ?_, hp.closed hname hclosing, rfl, fun _ => ⟨hclosing, rfl⟩, fun h => absurd hname h⟩
    rw [Span.line, if_pos hname, hp.trim_text, if_pos (hclosed hname)]
  · obtain ⟨raw', hlaid, htext, hopens⟩ := hp.exists_line hname hlet hattached style
    exact ⟨_, htext, hopens, rfl, fun h => absurd h hname, fun _ => hlaid⟩

theorem Span.IsLine.spans_line (h : Span.IsLine style p q) : spans {} (p.line style) = [q] := by
  have hspans := spans_span h.opens
  rwa [List.append_nil, spans_nil, ← h.text] at hspans

theorem Span.IsLine.contents_line (h : Span.IsLine style p q) : contents {} (p.line style) = [q.content] := by
  rw [contents, h.spans_line, List.map_singleton]

/-- A part of a label that may stand before and behind other parts. -/
structure IsPart (u : List Char) : Prop where
  closed : Sealed {} u
  leader : ∃ c t, u = c :: t ∧ ({} : Leaders).isLeader c

theorem Span.IsLine.isPart (h : Span.IsLine style p q) : IsPart (p.line style) := by
  constructor
  · rw [Sealed, h.spans_line, List.forall_mem_singleton]
    exact fun hname => (h.closed (h.name ▸ hname)).1
  · exact ⟨q.leader, _, h.text, h.opens.leader⟩

theorem fresh_append {v : List Char} (hsep : ∀ c ∈ sep, isBlank c)
    (hv : ∀ c ∈ v.head?, ({} : Leaders).isLeader c) :
    Fresh {} (sep ++ v) := by
  rw [Fresh, trimStart_append hsep, trimStart_of_head fun c hc => plain_usual.not_blank c (hv c hc)]
  exact hv

theorem flatten_eq_intercalate (parts : List (List Char)) : parts.flatten = [].intercalate parts := by
  induction parts with
  | nil => rfl
  | cons u parts ih =>
    cases parts with
    | nil => simp
    | cons v parts => rw [List.flatten_cons, ih, List.intercalate_cons_cons, List.append_nil]

theorem contents_intercalate (hsep : ∀ c ∈ sep, isBlank c) (h : ∀ u ∈ parts, IsPart u) :
    contents {} (sep.intercalate parts) = parts.flatMap (contents {}) := by
  induction parts with
  | nil => simp [contents]
  | cons u parts ih =>
    rw [List.forall_mem_cons] at h
    have hrest := ih h.2
    cases parts with
    | nil => simp
    | cons v parts =>
      obtain ⟨c, t, hv, hc⟩ := (h.2 v List.mem_cons_self).leader
      have hhead : ∀ d ∈ (sep.intercalate (v :: parts)).head?, ({} : Leaders).isLeader d := by
        cases parts with
        | nil => simp [hv, hc]
        | cons w parts => simp [hv, hc]
      rw [List.intercalate_cons_cons, List.append_assoc,
        contents_append plain_usual h.1.closed (fresh_append hsep hhead), List.flatMap_cons, ← hrest]
      congr 1
      rw [contents, spans_of_not_leader fun d hd h => plain_usual.not_blank d h (hsep d hd), contents]

end LabelPress.Markup
