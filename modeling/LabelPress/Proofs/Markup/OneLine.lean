import LabelPress.Proofs.Markup.LineFeeds
import LabelPress.Proofs.Markup.Names
import LabelPress.Proofs.Markup.Settled
import LabelPress.Proofs.Text.Replaced

/-!
# One line for each command

A pretty label whose field data holds no line feed has a line for each command, and each line begins with the leader of
its command, unless a line feed stands by itself between two characters of a parameter (`oneLineEach_iff`). Blanks in
greater number become a space there, but a single blank stays.
-/

namespace LabelPress.Markup

open Text

/-- The commands that have a line. -/
def linedTokens (x : List Char) : List Token := (tokenize {} (lineFeeds x)).filter fun t => isLettered t.name

/-- The lines of a pretty label are as many as its commands, and leaders begin them. -/
structure OneLineEach (x : List Char) : Prop where
  length : (fields '\n' (pretty x)).length = (linedTokens x).length
  leader : ∀ l ∈ fields '\n' (pretty x), ∃ c ∈ l.head?, ({} : Leaders).isLeader c

/-- A line feed stands by itself between two characters of a field, neither of them blank. -/
def Parted (s : List Char) : Prop :=
  ∃ c d, (¬ isBlank c ∧ c ≠ ',') ∧ (¬ isBlank d ∧ d ≠ ',') ∧ [c, '\n', d] <:+: s

/-- What a command is laid out with: all that stands behind the letters of its mnemonic. -/
def laidParams (text : List Char) : List Char := behind text.tail

/-- A line feed with no blank beside it. -/
def Lone (s : List Char) : Prop :=
  ∃ u v, s = u ++ '\n' :: v ∧ (∀ c ∈ u.getLast?, ¬ isBlank c) ∧ ∀ d ∈ v.head?, ¬ isBlank d

variable {p : Span} {c d : Char} {s t u v m rest x : List Char} {sep : Char}

/-! ## Fields -/

theorem exists_infix_field_iff (hm : sep ∉ m) : (∃ f ∈ fields sep s, m <:+: f) ↔ m <:+: s := by
  have hjoin : ∀ fs : List (List Char), fs ≠ [] → ((∃ f ∈ fs, m <:+: f) ↔ m <:+: [sep].intercalate fs) := by
    intro fs hfs
    induction fs with
    | nil => exact absurd rfl hfs
    | cons f fs ih =>
      cases fs with
      | nil => simp
      | cons g fs =>
        rw [List.exists_mem_cons_iff, ih (by simp), List.intercalate_cons_cons, List.append_assoc]
        constructor
        · rintro (h | h)
          · exact h.trans (List.prefix_append f _).isInfix
          · exact h.trans ((List.suffix_append [sep] _).trans (List.suffix_append f _)).isInfix
        · exact infix_of_infix_append_cons hm
  have h := hjoin (fields sep s) (fields_ne_nil sep s)
  rwa [intercalate_fields] at h

theorem length_fields_intercalate {ls : List (List Char)} (hls : ls ≠ []) :
    (fields sep ([sep].intercalate ls)).length = ls.length + (ls.map (List.count sep)).sum := by
  rw [length_fields]
  induction ls with
  | nil => exact absurd rfl hls
  | cons l ls ih =>
    cases ls with
    | nil => simp [Nat.add_comm]
    | cons l' ls =>
      have := ih (by simp)
      rw [List.intercalate_cons_cons, List.count_append, List.count_append, List.count_singleton_self]
      simp only [List.length_cons, List.map_cons, List.sum_cons] at this ⊢
      omega

/-! ## Line feeds that stay -/

theorem lone_cons_iff (h : ¬ (isBlank c ∧ isBlank d)) : Lone (c :: d :: s) ↔ c = '\n' ∨ Lone (d :: s) := by
  constructor
  · rintro ⟨u, v, hs, hu, hv⟩
    cases u with
    | nil => exact .inl (List.cons.inj hs).1
    | cons e u =>
      refine .inr ⟨u, v, (List.cons.inj hs).2, fun c hc => ?_, hv⟩
      cases u with
      | nil => simp at hc
      | cons f u => exact hu c hc
  · rintro (rfl | ⟨u, v, hs, hu, hv⟩)
    · have hd : ¬ isBlank d := fun hd => h ⟨by decide, hd⟩
      exact ⟨[], d :: s, rfl, by simp, by simpa using hd⟩
    · refine ⟨c :: u, v, by rw [hs]; rfl, ?_, hv⟩
      cases u with
      | nil =>
        obtain rfl : d = '\n' := (List.cons.inj hs).1
        have hc : ¬ isBlank c := fun hc => h ⟨hc, by decide⟩
        simpa using hc
      | cons f u => exact hu

theorem lone_cons_cons_iff (hc : isBlank c) (hd : isBlank d) :
    Lone (c :: d :: s) ↔ Lone (s.dropWhile isBlank) := by
  constructor
  · rintro ⟨u, v, hs, hu, hv⟩
    rcases u with _ | ⟨e, _ | ⟨f, u⟩⟩
    · obtain ⟨-, rfl⟩ := List.cons.inj hs
      exact absurd hd (hv d rfl)
    · obtain ⟨rfl, -⟩ := List.cons.inj hs
      exact absurd hc (hu c rfl)
    · obtain ⟨-, hs⟩ := List.cons.inj hs
      obtain ⟨rfl, rfl⟩ := List.cons.inj hs
      have hne : u ≠ [] := by
        rintro rfl
        exact hu d rfl hd
      have hlast : ∀ e ∈ u.getLast?, ¬ isBlank e := by
        intro e he
        refine hu e ?_
        rwa [List.getLast?_cons_of_ne_nil (by simp), List.getLast?_cons_of_ne_nil hne]
      obtain ⟨w, b, rfl⟩ := (List.eq_nil_or_concat' u).resolve_left hne
      have hb : ¬ isBlank b := hlast b (by simp)
      refine ⟨w.dropWhile isBlank ++ [b], v, ?_, by simpa using hb, hv⟩
      rw [List.append_eq, List.append_assoc, List.append_assoc, List.singleton_append, List.dropWhile_append,
        List.dropWhile_cons_of_neg hb]
      split_ifs with hnil
      · rw [List.isEmpty_iff.mp hnil, List.nil_append]
      · rfl
  · rintro ⟨u, v, hs, hu, hv⟩
    have hne : u ≠ [] := by
      rintro rfl
      refine head_trimStart s '\n' ?_ (by decide)
      rw [trimStart, hs]
      rfl
    refine ⟨c :: d :: (s.takeWhile isBlank ++ u), v, ?_, ?_, hv⟩
    · conv_lhs => rw [← List.takeWhile_append_dropWhile (p := isBlank) (l := s), hs]
      simp
    · rw [← List.cons_append, ← List.cons_append, List.getLast?_append_of_ne_nil _ hne]
      exact hu

theorem mem_squeeze_iff : '\n' ∈ squeeze s ↔ Lone s := by
  induction s using squeeze.induct with
  | case1 => simp [Lone]
  | case2 c =>
    rw [squeeze_singleton, List.mem_singleton]
    constructor
    · rintro rfl
      exact ⟨[], [], rfl, by simp, by simp⟩
    · rintro ⟨u, v, hs, -⟩
      cases u with
      | nil => exact (List.cons.inj hs).1.symm
      | cons d u => simp at hs
  | case3 c d s hb ih =>
    have hblank := Bool.and_eq_true_iff.mp hb
    rw [squeeze_cons_cons, if_pos hb, List.mem_cons, ih, lone_cons_cons_iff hblank.1 hblank.2]
    simp
  | case4 c d s hb ih =>
    rw [squeeze_cons_cons, if_neg hb, List.mem_cons, ih, lone_cons_iff (by simpa using hb), eq_comm]

theorem trim_append_append (hm : Trimmed m) (hne : m ≠ []) (u v : List Char) :
    trim (u ++ m ++ v) = trimStart u ++ m ++ trimEnd v := by
  obtain ⟨w, hw, hblank⟩ := exists_eq_trimEnd v
  refine trim_eq_of_eq_append (u := u.takeWhile isBlank) (w := w) ?_ (fun c hc => List.mem_takeWhile_imp hc) hblank
    ⟨?_, ?_⟩
  · conv_lhs => rw [← List.takeWhile_append_dropWhile (p := isBlank) (l := u), hw]
    simp only [trimStart, List.append_assoc]
  · intro c hc
    rw [List.append_assoc, List.head?_append] at hc
    cases hu : (trimStart u).head? with
    | some d => exact head_trimStart u c (by simpa [hu] using hc)
    | none =>
      rw [hu, Option.none_or, List.head?_append_of_ne_nil _ hne] at hc
      exact hm.1 c hc
  · intro c hc
    rw [List.getLast?_append] at hc
    cases hv : (trimEnd v).getLast? with
    | some d => exact getLast_trimEnd v c (by simpa [hv] using hc)
    | none =>
      rw [hv, Option.none_or, List.getLast?_append_of_ne_nil _ hne] at hc
      exact hm.2 c hc

theorem infix_trim_iff (hm : Trimmed m) (hne : m ≠ []) : m <:+: trim s ↔ m <:+: s := by
  constructor
  · intro h
    obtain ⟨u, w, hs, -, -⟩ := exists_eq_trim s
    rw [hs]
    exact h.trans (List.infix_append u (trim s) w)
  · rintro ⟨u, v, rfl⟩
    rw [trim_append_append hm hne]
    exact List.infix_append _ _ _

theorem mem_squeeze_trim_iff : '\n' ∈ squeeze (trim s) ↔
    ∃ c d, ¬ isBlank c ∧ ¬ isBlank d ∧ [c, '\n', d] <:+: s := by
  obtain ⟨hfirst, hlast⟩ := trimmed_trim s
  rw [mem_squeeze_iff]
  constructor
  · rintro ⟨u, v, hs, hu, hv⟩
    rw [hs] at hfirst hlast
    obtain ⟨w, c, rfl⟩ : ∃ w c, u = w ++ [c] := by
      rcases List.eq_nil_or_concat' u with rfl | h
      · exact absurd (by decide) (hfirst '\n' rfl)
      · exact h
    cases v with
    | nil => exact absurd (by decide) (hlast '\n' (by simp))
    | cons d v =>
      have hc : ¬ isBlank c := hu c (by simp)
      have hd : ¬ isBlank d := hv d rfl
      refine ⟨c, d, hc, hd, (infix_trim_iff (by simp [Trimmed, hc, hd]) (by simp)).mp ⟨w, v, ?_⟩⟩
      simp [hs]
  · rintro ⟨c, d, hc, hd, h⟩
    obtain ⟨u, v, huv⟩ := (infix_trim_iff (by simp [Trimmed, hc, hd]) (by simp)).mpr h
    exact ⟨u ++ [c], d :: v, by simp [← huv], by simpa using hc, by simpa using hd⟩

theorem mem_pretty_params_iff : '\n' ∈ Style.pretty.params s ↔ Parted s := by
  have hfields : '\n' ∈ Style.pretty.params s ↔ ∃ f ∈ fields ',' s, '\n' ∈ squeeze (trim f) := by
    have h : (∃ f ∈ fields ',' (Style.pretty.params s), ['\n'] <:+: f) ↔ ['\n'] <:+: Style.pretty.params s :=
      exists_infix_field_iff (by decide)
    simpa only [fields_params, List.singleton_infix_iff, List.mem_map, exists_exists_and_eq_and, Style.field]
      using h.symm
  simp only [hfields, mem_squeeze_trim_iff]
  constructor
  · rintro ⟨f, hf, c, d, hc, hd, h⟩
    have hcomma : ∀ e ∈ [c, '\n', d], e ≠ ',' := by
      rintro e he rfl
      exact not_mem_of_mem_fields hf (h.mem he)
    refine ⟨c, d, ⟨hc, hcomma c (by simp)⟩, ⟨hd, hcomma d (by simp)⟩, ?_⟩
    exact (exists_infix_field_iff fun h => hcomma ',' h rfl).mp ⟨f, hf, h⟩
  · rintro ⟨c, d, ⟨hc, hc'⟩, ⟨hd, hd'⟩, h⟩
    have hcomma : ',' ∉ [c, '\n', d] := by simp [hc'.symm, hd'.symm]
    obtain ⟨f, hf, hf'⟩ := (exists_infix_field_iff hcomma).mpr h
    exact ⟨f, hf, c, d, hc, hd, hf'⟩

/-! ## Lines -/

theorem Span.Opens.mem_line_iff (hp : p.Opens {} rest) (hname : p.name ≠ fieldData) :
    '\n' ∈ p.line .pretty ↔ Parted (laidParams p.text) := by
  have hleader : p.leader ≠ '\n' := hp.leader_ne (by decide)
  have hletters : '\n' ∉ letters (p.name ++ p.raw) := fun h => absurd (isUpper_of_mem_letters h) (by decide)
  rw [laidParams, hp.text_eq hname, List.tail_cons, Span.line_eq_lay hname, lay_pretty, List.mem_cons,
    List.mem_append, mem_pretty_params_iff]
  simp [hleader.symm, hletters]

theorem Span.Opens.not_mem_line (hp : p.Opens {} rest) (hname : p.name = fieldData) (hraw : '\n' ∉ p.raw) :
    '\n' ∉ p.line .pretty := by
  have hleader : p.leader ≠ '\n' := hp.leader_ne (by decide)
  have hclosing : '\n' ∉ p.closing := by
    have hends := hp.ends
    rw [Span.Ends, if_pos hname] at hends
    rcases hends with ⟨h, -⟩ | ⟨h, -⟩ <;> simp [h, Leaders.terminator, fieldSeparator]
  have htext : '\n' ∉ p.text := by
    simp [Span.text, hname, fieldData, hleader.symm, hraw, hclosing]
  have hle := Span.count_line_le (c := '\n') (by decide) .pretty p
  rw [List.count_eq_zero_of_not_mem htext] at hle
  exact List.count_eq_zero.mp (Nat.le_zero.mp hle)

theorem pretty_eq_intercalate (x : List Char) :
    pretty x = ['\n'].intercalate ((lined (lineFeeds x)).map (Span.line .pretty)) := by
  rw [pretty_eq, linesOf_eq_map_lined]

theorem length_linedTokens (x : List Char) : (linedTokens x).length = (lined (lineFeeds x)).length := by
  have hnames := congrArg (List.countP isLettered) (names_eq_spans {} (lineFeeds x))
  rw [names, List.countP_map, List.countP_map, List.countP_eq_length_filter, List.countP_eq_length_filter] at hnames
  exact hnames

theorem oneLineEach_iff_lines (hne : lined (lineFeeds x) ≠ []) :
    OneLineEach x ↔ ∀ p ∈ lined (lineFeeds x), '\n' ∉ p.line .pretty := by
  have hls : (lined (lineFeeds x)).map (Span.line .pretty) ≠ [] := by simpa using hne
  constructor
  · intro h p hp hmem
    have hlen := h.length
    rw [pretty_eq_intercalate, length_fields_intercalate hls, length_linedTokens, List.length_map] at hlen
    have hzero := List.sum_eq_zero_iff.mp (Nat.add_eq_left.mp hlen)
    have hcount := hzero _ (List.mem_map_of_mem (List.mem_map_of_mem hp))
    exact List.count_eq_zero.mp hcount hmem
  · intro h
    have hfields : fields '\n' (pretty x) = (lined (lineFeeds x)).map (Span.line .pretty) := by
      rw [pretty_eq_intercalate]
      exact fields_intercalate hls (List.forall_mem_map.mpr h)
    refine ⟨by rw [hfields, List.length_map, length_linedTokens], ?_⟩
    rw [hfields, ← linesOf_eq_map_lined]
    intro l hl
    obtain ⟨c, t, rfl, hc⟩ := exists_of_mem_linesOf hl
    exact ⟨c, rfl, hc⟩

theorem not_mem_raw (hdata : ∀ t ∈ tokenize {} x, t.name = fieldData → '\n' ∉ t.params)
    (hp : p ∈ spans {} (lineFeeds x)) (hname : p.name = fieldData) : '\n' ∉ p.raw := by
  intro hmem
  have hraw : p.raw ∈ dataOf (lineFeeds x) := by
    refine List.mem_map.mpr ⟨p.content, List.mem_filter.mpr ⟨List.mem_map_of_mem hp, ?_⟩, ?_⟩
    · simp [Span.content, hname]
    · simp [Span.content, Span.params, hname]
  rw [dataOf_lineFeeds, ← payloads_tokenize] at hraw
  obtain ⟨d, hd, hfeeds⟩ := List.mem_map.mp hraw
  obtain ⟨t, ht, rfl⟩ := List.mem_map.mp hd
  obtain ⟨ht, htname⟩ := List.mem_filter.mp ht
  exact hdata t ht (by simpa [Token.isFieldData] using htname) (mem_lineFeeds (hfeeds ▸ hmem))

/-- A pretty label has one line for each command, unless a line feed stands by itself in a parameter. -/
theorem oneLineEach_iff (hdata : ∀ t ∈ tokenize {} x, t.name = fieldData → '\n' ∉ t.params) :
    (linedTokens x = [] → pretty x = []) ∧
      (linedTokens x ≠ [] → (OneLineEach x ↔ ∀ t ∈ linedTokens x, t.name ≠ fieldData →
        ¬ Parted (laidParams (slice (lineFeeds x) t.start t.stop)))) := by
  have hnil : linedTokens x = [] ↔ lined (lineFeeds x) = [] := by
    rw [← List.length_eq_zero_iff, length_linedTokens, List.length_eq_zero_iff]
  constructor
  · intro h
    rw [pretty_eq_intercalate, hnil.mp h]
    rfl
  · intro hne
    have htokens := forall_tokenize_iff (l := {}) (s := lineFeeds x)
      fun o text => isLettered o.1 → o.1 ≠ fieldData → ¬ Parted (laidParams text)
    rw [oneLineEach_iff_lines fun h => hne (hnil.mpr h)]
    refine Iff.trans ?_ (htokens.symm.trans ?_)
    · constructor
      · intro h p hp hlet hname
        have hp' := mem_lined_iff.mpr ⟨hp, hlet⟩
        obtain ⟨-, rest, hopens⟩ := exists_opens_of_mem_lined hp'
        rw [← hopens.mem_line_iff hname]
        exact h p hp'
      · intro h p hp
        obtain ⟨hmem, hlet⟩ := mem_lined_iff.mp hp
        obtain ⟨-, rest, hopens⟩ := exists_opens_of_mem_lined hp
        by_cases hname : p.name = fieldData
        · exact hopens.not_mem_line hname (not_mem_raw hdata hmem hname)
        · rw [hopens.mem_line_iff hname]
          exact h p hmem hlet hname
    · simp only [linedTokens, List.mem_filter, and_imp]
      rfl

/-- Line feeds next to blanks and commas, and at both ends of the parameters. -/
def spread : List Char := "^XA\n^FX a \n b,\nc\r\n^FDx y^FS\n~JA".toList

theorem oneLineEach_iff_spread :
    (∀ t ∈ tokenize {} spread, t.name = fieldData → '\n' ∉ t.params) ∧ linedTokens spread ≠ [] ∧
      pretty spread = "^XA\n^FXa b,c\n^FDx y^FS\n~JA".toList ∧
      (OneLineEach spread ↔ ∀ t ∈ linedTokens spread, t.name ≠ fieldData →
        ¬ Parted (laidParams (slice (lineFeeds spread) t.start t.stop))) := by
  have hread : (tokenize {} spread).map Token.content = [(['X', 'A'], []), (['F', 'X'], "a \n b,\nc".toList),
      (fieldData, "x y".toList), (['J', 'A'], [])] := by
    cbv
  have hall : ∀ o ∈ (tokenize {} spread).map Token.content, o.1 = fieldData → '\n' ∉ o.2 := by
    rw [hread]
    decide
  have hdata : ∀ t ∈ tokenize {} spread, t.name = fieldData → '\n' ∉ t.params := List.forall_mem_map.mp hall
  have hlen : (linedTokens spread).length = 4 := by cbv
  have hne : linedTokens spread ≠ [] := List.length_pos_iff.mp (by rw [hlen]; decide)
  exact ⟨hdata, hne, by cbv, (oneLineEach_iff hdata).2 hne⟩

/-- The second line of a comment begins with no leader, and no command is read from it. -/
theorem not_oneLineEach : ¬ ∀ x, linedTokens x ≠ [] →
    (∀ t ∈ tokenize {} x, t.name = fieldData → '\n' ∉ t.params) → OneLineEach x := by
  intro h
  have hread : (tokenize {} "^FXa\nb^FS".toList).map Token.content =
      [(['F', 'X'], "a\nb".toList), (fieldSeparator, [])] := by
    cbv
  have hall : ∀ o ∈ (tokenize {} "^FXa\nb^FS".toList).map Token.content, o.1 = fieldData → '\n' ∉ o.2 := by
    rw [hread]
    decide
  have hlen : (linedTokens "^FXa\nb^FS".toList).length = 2 := by cbv
  have hlines : (fields '\n' (pretty "^FXa\nb^FS".toList)).length = 3 := by cbv
  have heach := h _ (List.length_pos_iff.mp (by rw [hlen]; decide)) (List.forall_mem_map.mp hall)
  exact absurd (hlines.symm.trans (heach.length.trans hlen)) (by decide)

end LabelPress.Markup
