import LabelPress.Proofs.Markup.Payloads

/-!
# A layout laid out again

The lines of a layout are its commands again, if the layout has not joined an `F` with a `D` (`linesOf_relaid`). A
minified text has no blanks left to take, so it stays as it is (`minify_laidOut`).
-/

namespace LabelPress.Markup

open Text

/-- The commands that have a line. -/
def lined (s : List Char) : List Span := (spans {} s).filter fun p => isLettered p.name

/-- What a layout makes of the text behind a leader. -/
def Style.lay (style : Style) (w : List Char) : List Char :=
  letters w ++ style.params (w.drop (letters w).length)

/-- The line of a command that is laid out in one style and then in another one. -/
def Span.relaid (style style' : Style) (p : Span) : List Char :=
  if p.name = fieldData then trim p.text else p.leader :: style'.lay (style.lay (p.name ++ p.raw))

variable {p : Span} {style : Style} {c : Char} {s t u v w rest sep tail : List Char}

theorem linesOf_eq_map_lined (style : Style) (s : List Char) : linesOf style s = (lined s).map (Span.line style) :=
  linesOf_eq_map style s

theorem mem_lined_iff : p ∈ lined s ↔ p ∈ spans {} s ∧ isLettered p.name := by
  simp [lined]

theorem exists_opens_of_mem_lined (hp : p ∈ lined s) : isLettered p.name ∧ ∃ rest, p.Opens {} rest := by
  obtain ⟨hmem, hlet⟩ := mem_lined_iff.mp hp
  obtain ⟨-, rest, -, hopens⟩ := opens_of_mem_spans hmem
  exact ⟨hlet, rest, hopens⟩

theorem Span.line_eq_lay (hname : p.name ≠ fieldData) (style : Style) :
    p.line style = p.leader :: style.lay (p.name ++ p.raw) := by
  rw [Span.line, if_neg hname, Style.lay]

theorem not_joins_of_tokens (h : ∀ t ∈ tokenize {} s, t.name = ['F'] → t.params.head? ≠ some 'D') :
    ∀ p ∈ spans {} s, ¬ p.Joins := by
  have hspans := (forall_tokenize_iff (l := {}) (s := s) fun o _ => o.1 = ['F'] → o.2.head? ≠ some 'D').mp h
  intro p hp hjoins
  exact hspans p hp hjoins.1 hjoins.2

/-! ## One line -/

theorem params_append (style : Style) (hw : ∀ c ∈ w, isBlank c) (s : List Char) :
    style.params (s ++ w) = style.params s := by
  cases style with
  | pretty =>
    have hcomma : ',' ∉ w := not_mem_of_blank (by decide) hw
    obtain ⟨fs, f, hs, hsw⟩ := exists_fields_append hcomma s
    simp [Style.params, hs, hsw, trim_append hw]
  | minified => simp [Style.params, dropBlanks_of_blank hw]

theorem linesOf_cons_append (hc : ({} : Leaders).isLeader c) (hw : ∀ d ∈ w, ¬ ({} : Leaders).isLeader d)
    (hhead : ∃ d ∈ w.head?, d.isUpper) (hnot : ¬ fieldData <+: w) (hv : Fresh {} v) :
    linesOf style (c :: (w ++ v)) = (c :: style.lay w) :: linesOf style v := by
  have hvhead : ∀ d ∈ v.head?, ¬ isAlphanumeric d := fun d hd => (hv.head plain_usual d hd).1
  have hletters : letters (w ++ v) = letters w := by
    apply letters_append
    intro d hd hup
    exact hvhead d hd (isAlphanumeric_of_isUpper hup)
  have hne : letters w ≠ [] := by
    rw [ne_eq, letters_eq_nil_iff]
    obtain ⟨d, hd, hup⟩ := hhead
    exact fun h => h d hd hup
  have hnot' : ¬ fieldData <+: w ++ v := by
    obtain ⟨d, hd, hup⟩ := hhead
    rwa [fieldData_prefix_append_iff ⟨d, hd, isAlphanumeric_of_isUpper hup⟩ hvhead]
  have hcode : codeOf (letters (w ++ v)) = letters w := by rw [codeOf_letters, if_neg hnot', hletters]
  have hcode' : letters w ≠ fieldData := by
    intro h
    exact hnot (fieldData_prefix_letters_iff.mp (by rw [h]))
  obtain ⟨b, s, rfl, hb, hs⟩ := hv.exists_blanks
  have hplain : ∀ d ∈ w.drop (letters w).length ++ b, ¬ ({} : Leaders).isLeader d := by
    intro d hd
    rcases List.mem_append.mp hd with hd | hd
    · exact hw d (List.mem_of_mem_drop hd)
    · exact fun h => plain_usual.not_blank d h (hb d hd)
  rw [linesOf_cons hc hcode hne, List.drop_append_of_le_length (letters_begin w).length_le, ← List.append_assoc,
    line_append hcode' hplain hs, params_append style hb, Style.lay,
    linesOf_of_not_leader fun d hd => hplain d (List.mem_append_right _ hd)]
  rfl

theorem Span.Opens.linesOf_line (hp : p.Opens {} rest) (hname : p.name ≠ fieldData) (hlet : isLettered p.name)
    (hjoins : ¬ p.Joins) (hv : Fresh {} v) (style style' : Style) :
    linesOf style' (p.line style ++ v) = Span.relaid style style' p :: linesOf style' v := by
  obtain ⟨w, hline, hfree, -, hiff⟩ := hp.exists_line_eq hname hlet style
  have hw : style.lay (p.name ++ p.raw) = w := by
    rw [Span.line_eq_lay hname] at hline
    exact (List.cons.inj hline).2
  have hhead : ∃ d ∈ w.head?, d.isUpper := by
    have hne : letters (p.name ++ p.raw) ≠ [] := by
      rw [ne_eq, ← isLettered_eq_false_iff hp.name.mnemonic, hlet]
      simp
    obtain ⟨d, t, ht⟩ := List.exists_cons_of_ne_nil hne
    refine ⟨d, ?_, isUpper_of_mem_letters (ht ▸ List.mem_cons_self)⟩
    rw [← hw, Style.lay, ht]
    rfl
  rw [hline, List.cons_append, linesOf_cons_append hp.leader hfree hhead (by rwa [hiff]) hv, Span.relaid,
    if_neg hname, hw]

theorem linesOf_of_blank (hw : ∀ c ∈ w, isBlank c) : linesOf style w = [] := by
  rw [← List.append_nil w, linesOf_of_not_leader (not_leader_of_blank hw), linesOf_nil]

theorem Span.Unclosed.opens_blanks (hp : p.Unclosed {}) (hv : ∀ c ∈ v, isBlank c) :
    (Span.mk p.leader fieldData (p.raw ++ v) []).Opens {} [] := by
  refine ⟨hp.leader, longestMnemonic_fieldData_iff.mpr (by simp), ?_⟩
  rw [Span.Ends, if_pos rfl]
  refine .inr ⟨rfl, rfl, ?_⟩
  rintro ⟨x, y, hxy⟩
  have hleader : ∀ c ∈ v, ¬ ({} : Leaders).isLeader c := not_leader_of_blank hv
  -- The terminator would begin in front of the blanks, and end there.
  rw [List.append_assoc] at hxy
  rcases List.append_eq_append_iff.mp hxy with ⟨w, hw, hwv⟩ | ⟨w, -, hwv⟩
  · by_cases hne : w = []
    · exact hleader '^' (by simp [hne, Leaders.terminator] at hwv; simp [← hwv]) (by decide)
    · have hhead : ∀ c ∈ v.head?, ¬ isAlphanumeric c := fun c hc => by
        simp [isAlphanumeric_of_isBlank (hv c (List.mem_of_mem_head? hc))]
      have hpre := terminator_prefix_left hhead hne (l := {}) ⟨y, hwv⟩
      apply hp.raw
      rw [hw]
      exact hpre.isInfix.trans (List.suffix_append x w).isInfix
  · exact hleader '^' (by rw [hwv]; simp [Leaders.terminator]) (by decide)

theorem Span.Opens.linesOf_line_fieldData (hp : p.Opens {} rest) (hname : p.name = fieldData)
    (hv : p.closing = [] → ∀ c ∈ v, isBlank c) (style style' : Style) :
    linesOf style' (p.line style ++ v) = Span.relaid style style' p :: linesOf style' v := by
  rw [Span.relaid, if_pos hname]
  by_cases hclosing : p.closing = []
  · have hblank := hv hclosing
    obtain ⟨u, hu, -⟩ := exists_eq_trimEnd p.raw
    have hopen : Span.Unclosed {} ⟨p.leader, fieldData, p.kept, []⟩ := by
      refine ⟨hp.leader, rfl, rfl, fun hin => (hp.of_not_closed hname hclosing).2 ?_⟩
      rw [Span.kept, if_pos hclosing] at hin
      rw [hu]
      exact hin.trans (List.prefix_append _ _).isInfix
    have hline : p.line style = trim p.text := by rw [Span.line, if_pos hname]
    have htext : p.line style ++ v = (Span.mk p.leader fieldData (p.kept ++ v) []).text := by
      simp [hp.line_eq_kept hname style, Span.text, hclosing]
    have hq := hopen.opens_blanks hblank
    rw [linesOf_of_blank hblank, htext, ← List.append_nil (Span.text _), linesOf_fieldData hq rfl, linesOf_nil,
      Span.line, if_pos rfl, ← htext, trim_append hblank, hline, trim_of_trimmed (trimmed_trim _)]
  · have hopens : p.Opens {} v :=
      (hp.closed hname hclosing).append plain_usual.apart (fun _ => hclosing) fun _ h => absurd h hclosing
    have hterm := (hp.closing_iff plain_usual.apart hname).mpr hclosing
    have hline : ∀ style, p.line style = p.text := fun style => by
      rw [Span.line, if_pos hname, hp.trim_text, if_pos hterm]
    rw [hline, linesOf_fieldData hopens hname, hline, hp.trim_text, if_pos hterm]

/-! ## All lines -/

theorem fresh_of_blank (hv : ∀ c ∈ v, isBlank c) : Fresh {} v := by
  have hnil : trimStart v = [] := List.dropWhile_eq_nil_iff.mpr hv
  simp [Fresh, hnil]

theorem fresh_following (hsep : ∀ c ∈ sep, isBlank c) (htail : ∀ c ∈ tail, isBlank c) (style : Style)
    (s : List Char) :
    Fresh {} (following sep style s ++ tail) := by
  rw [following]
  cases hl : linesOf style s with
  | nil => exact fresh_of_blank htail
  | cons w ls =>
    obtain ⟨c, t, rfl, hc⟩ := exists_of_mem_linesOf (hl ▸ List.mem_cons_self)
    rw [List.flatMap_cons, List.append_assoc, List.append_assoc]
    exact fresh_append hsep (by simpa using hc)

theorem linesOf_following (hsep : ∀ c ∈ sep, isBlank c) (htail : ∀ c ∈ tail, isBlank c)
    (hjoins : ∀ p ∈ spans {} s, ¬ p.Joins) (style style' : Style) :
    linesOf style' (following sep style s ++ tail) = (lined s).map (Span.relaid style style') := by
  unfold lined
  induction s using text_induction (l := {}) with
  | nil =>
    rw [following_nil, List.nil_append, linesOf_of_blank htail, spans_nil]
    rfl
  | skip c s hskip ih =>
    rw [spans_skip hskip] at hjoins ⊢
    rw [following_skip hskip]
    exact ih hjoins
  | span p rest hp ih =>
    rw [spans_span hp, List.forall_mem_cons] at hjoins
    have hrest := ih hjoins.2
    rw [spans_span hp, List.filter_cons]
    split_ifs with hlet
    · have hfresh := fresh_following hsep htail style rest
      rw [following_span hp hlet, List.append_assoc, List.append_assoc,
        linesOf_of_not_leader (not_leader_of_blank hsep), List.map_cons, ← hrest]
      by_cases hname : p.name = fieldData
      · refine hp.linesOf_line_fieldData hname (fun hclosing => ?_) style style'
        rwa [hp.following_eq_nil hname hclosing, List.nil_append]
      · exact hp.linesOf_line hname hlet hjoins.1 hfresh style style'
    · rw [following_of_not_lettered hp hlet, hrest]

theorem linesOf_relaid (hsep : ∀ c ∈ sep, isBlank c) (htail : ∀ c ∈ tail, isBlank c)
    (hjoins : ∀ p ∈ spans {} s, ¬ p.Joins) (style style' : Style) :
    linesOf style' (sep.intercalate (linesOf style s) ++ tail) = (lined s).map (Span.relaid style style') := by
  rw [← linesOf_following hsep htail hjoins, following]
  by_cases hls : linesOf style s = []
  · rw [hls]
    rfl
  · rw [← append_intercalate hls, List.append_assoc, linesOf_of_not_leader (not_leader_of_blank hsep)]

/-! ## Minified text -/

theorem append_drop_letters (w : List Char) : letters w ++ w.drop (letters w).length = w :=
  (List.prefix_append_drop (letters_begin w)).symm

theorem dropBlanks_lay (style : Style) (w : List Char) : dropBlanks (style.lay w) = dropBlanks w := by
  conv_rhs => rw [← append_drop_letters w]
  rw [Style.lay, dropBlanks_append, dropBlanks_params, dropBlanks_append]

theorem lay_minified (w : List Char) : Style.minified.lay w = dropBlanks w := by
  have hletters : ∀ c ∈ letters w, ¬ isBlank c := fun c hc => not_isBlank_of_isUpper (isUpper_of_mem_letters hc)
  conv_rhs => rw [← append_drop_letters w]
  rw [Style.lay, Style.params, dropBlanks_append, dropBlanks_of_not_blank hletters]

theorem Span.relaid_minified (style : Style) (p : Span) : Span.relaid style .minified p = p.line .minified := by
  by_cases hname : p.name = fieldData
  · rw [Span.relaid, Span.line, if_pos hname, if_pos hname]
  · rw [Span.line_eq_lay hname, Span.relaid, if_neg hname, lay_minified, lay_minified, dropBlanks_lay]

/-! ## Carriage returns -/

theorem count_squeeze_le (hc : c ≠ ' ') (s : List Char) : (squeeze s).count c ≤ s.count c := by
  induction s using squeeze.induct with
  | case1 => simp
  | case2 d => simp
  | case3 d e s hb ih =>
    have hdrop : (s.dropWhile isBlank).count c ≤ s.count c := (List.dropWhile_sublist isBlank).count_le c
    rw [squeeze_cons_cons, if_pos hb, List.count_cons_of_ne hc.symm]
    simp only [List.count_cons]
    omega
  | case4 d e s hb ih =>
    rw [squeeze_cons_cons, if_neg hb]
    rw [List.count_cons, List.count_cons (l := e :: s)]
    omega

theorem count_trim_le (c : Char) (s : List Char) : (trim s).count c ≤ s.count c := by
  obtain ⟨u, w, hs, -, -⟩ := exists_eq_trim s
  conv_rhs => rw [hs]
  simp only [List.count_append]
  omega

theorem count_field_le (hc : c ≠ ' ') (style : Style) (f : List Char) : (style.field f).count c ≤ f.count c := by
  cases style with
  | pretty => exact (count_squeeze_le hc _).trans (count_trim_le c f)
  | minified => exact List.filter_sublist.count_le c

theorem count_intercalate_map_le {g : List Char → List Char} (hg : ∀ f, (g f).count c ≤ f.count c)
    (fs : List (List Char)) :
    ([','].intercalate (fs.map g)).count c ≤ ([','].intercalate fs).count c := by
  induction fs with
  | nil => simp
  | cons f fs ih =>
    cases fs with
    | nil => simpa using hg f
    | cons f' fs =>
      have hf := hg f
      simp only [List.map_cons, List.intercalate_cons_cons, List.count_append] at ih ⊢
      omega

theorem count_params_le (hc : c ≠ ' ') (style : Style) (s : List Char) :
    (style.params s).count c ≤ s.count c := by
  rw [← intercalate_fields ',' (style.params s), fields_params]
  conv_rhs => rw [← intercalate_fields ',' s]
  exact count_intercalate_map_le (count_field_le hc style) _

theorem Span.count_line_le (hc : c ≠ ' ') (style : Style) (p : Span) : (p.line style).count c ≤ p.text.count c := by
  by_cases hname : p.name = fieldData
  · rw [Span.line, if_pos hname]
    exact count_trim_le c p.text
  · have hparams := count_params_le hc style ((p.name ++ p.raw).drop (letters (p.name ++ p.raw)).length)
    have htext := congrArg (List.count c) (append_drop_letters (p.name ++ p.raw))
    rw [List.count_append] at htext
    rw [Span.line_eq_lay hname, Style.lay, Span.text]
    simp only [List.count_cons, List.count_append] at htext ⊢
    omega

theorem count_linesOf_le (hc : c ≠ ' ') (style : Style) (s : List Char) :
    (linesOf style s).flatten.count c ≤ s.count c := by
  rw [linesOf_eq_map]
  induction s using text_induction (l := {}) with
  | nil => simp
  | skip d s hskip ih =>
    rw [spans_skip hskip, List.count_cons]
    omega
  | span p rest hp ih =>
    have hline := Span.count_line_le hc style p
    rw [spans_span hp, List.filter_cons, List.count_append]
    split_ifs
    · rw [List.map_cons, List.flatten_cons, List.count_append]
      omega
    · omega

theorem count_intercalate (hc : c ∉ sep) (ls : List (List Char)) :
    (sep.intercalate ls).count c = ls.flatten.count c := by
  induction ls with
  | nil => rfl
  | cons w ls ih =>
    cases ls with
    | nil => simp
    | cons v ls =>
      rw [List.intercalate_cons_cons, List.count_append, List.count_append, ih, List.count_eq_zero_of_not_mem hc,
        Nat.add_zero, List.flatten_cons (l := w), List.count_append]

/-- The end of a line that is read as a line feed. -/
def lineEnd : List Char := ['\r', '\n']

theorem lineFeeds_of_not_infix (hs : ¬ lineEnd <:+: s) : lineFeeds s = s :=
  replaceAll_of_cut?_eq_none _ (cut?_eq_none_iff.mpr hs)

theorem lineFeeds_of_not_mem (hs : '\r' ∉ s) : lineFeeds s = s := by
  apply lineFeeds_of_not_infix
  intro hin
  exact hs (hin.mem (by simp [lineEnd]))

theorem lines_of_not_mem (hs : '\r' ∉ s) (style : Style) : lines style s = linesOf style s :=
  congrArg (linesOf style) (lineFeeds_of_not_mem hs)

theorem not_mem_laidOut (hsep : '\r' ∉ sep) (hs : '\r' ∉ s) (style : Style) :
    '\r' ∉ sep.intercalate (linesOf style s) := by
  have hle := count_linesOf_le (c := '\r') (by decide) style s
  rw [← List.count_eq_zero, count_intercalate hsep]
  rw [← List.count_eq_zero] at hs
  omega

/-! ## The normal form -/

theorem minify_intercalate (hsep : ∀ c ∈ sep, isBlank c) (hcr : '\r' ∉ sep) (hs : '\r' ∉ s)
    (hjoins : ∀ p ∈ spans {} s, ¬ p.Joins) (style : Style) :
    minify (sep.intercalate (linesOf style s)) = minify s := by
  have hrelaid := linesOf_relaid hsep (List.forall_mem_nil _) hjoins style .minified
  have hline : Span.relaid style .minified = Span.line .minified := funext (Span.relaid_minified style)
  rw [List.append_nil, hline, ← linesOf_eq_map_lined] at hrelaid
  rw [minify, lines_of_not_mem (not_mem_laidOut hcr hs style), hrelaid, minify, lines_of_not_mem hs]

/-- A text is minified to the same text as its two layouts are. -/
theorem minify_laidOut (x : List Char) (hx : '\r' ∉ x)
    (hapart : ∀ t ∈ tokenize {} x, t.name = ['F'] → t.params.head? ≠ some 'D') :
    minify (minify x) = minify x ∧ minify (pretty x) = minify x := by
  have hjoins := not_joins_of_tokens hapart
  have hminify : minify x = [].intercalate (linesOf .minified x) := by
    rw [minify, lines_of_not_mem hx, flatten_eq_intercalate]
  have hpretty : pretty x = ['\n'].intercalate (linesOf .pretty x) := by
    rw [pretty, lines_of_not_mem hx]
  constructor
  · calc minify (minify x) = minify ([].intercalate (linesOf .minified x)) := congrArg minify hminify
      _ = minify x := minify_intercalate (by simp) (by simp) hx hjoins .minified
  · calc minify (pretty x) = minify (['\n'].intercalate (linesOf .pretty x)) := congrArg minify hpretty
      _ = minify x := minify_intercalate isBlank_of_mem_lineFeed (by decide) hx hjoins .pretty

/-- A letter joins a mnemonic, and field data without terminator loses the blank at its end. -/
theorem minify_laidOut_comment :
    minify "a^F A^FX A b^FD^X ".toList = "^FA^FXAb^FD^X".toList ∧
      minify (minify "a^F A^FX A b^FD^X ".toList) = minify "a^F A^FX A b^FD^X ".toList ∧
      minify (pretty "a^F A^FX A b^FD^X ".toList) = minify "a^F A^FX A b^FD^X ".toList := by
  have htokens : (tokenize {} "a^F A^FX A b^FD^X ".toList).map Token.content =
      [(['F'], ['A']), (['F', 'X'], "A b".toList), (fieldData, "^X ".toList)] := by cbv
  refine ⟨by cbv, minify_laidOut _ (by decide) ?_⟩
  intro t ht hname
  have hmem := List.mem_map_of_mem (f := Token.content) ht
  rw [htokens] at hmem
  simp only [List.mem_cons, List.not_mem_nil, or_false, Token.content, hname, Prod.mk.injEq, fieldData] at hmem
  simp_all

end LabelPress.Markup
