import LabelPress.Proofs.Markup.Params
import LabelPress.Proofs.Markup.Relaid
import LabelPress.Proofs.Text.Occurrences

/-!
# Lines that stay

A pretty line is laid out to itself, or it loses one blank. It loses one if letters of the parameters have joined the
mnemonic and a blank stands behind them (`lay_lay_cases`, `loose_iff`).
-/

namespace LabelPress.Markup

open Text

/-- Letters behind a gap make the mnemonic longer, and another gap parts them from more of the same field. -/
def Loose (text : List Char) : Prop :=
  ∃ leader code gap more gap' c rest, text = leader :: (code ++ (gap ++ (more ++ (gap' ++ c :: rest)))) ∧
    (∀ d ∈ code ++ more, d.isUpper) ∧ code ≠ [] ∧ more ≠ [] ∧ (code ++ more).length ≤ longestCode ∧
    (∀ b ∈ gap ++ gap', isBlank b) ∧ gap ≠ [] ∧ gap' ≠ [] ∧ ¬ isBlank c ∧ c ≠ ','

/-- The text behind the letters that a leader is followed by. -/
def behind (w : List Char) : List Char := w.drop (letters w).length

/-- The letters of the parameters that join the mnemonic in a pretty line. -/
def joining (w : List Char) : List Char :=
  ((Style.pretty.params (behind w)).takeWhile Char.isUpper).take (longestCode - (letters w).length)

variable {p : Span} {c d : Char} {s t u v w gap rest : List Char}

/-! ## Letters -/

theorem length_letters_le (w : List Char) : (letters w).length ≤ longestCode := by
  rw [letters, List.length_take]
  omega

theorem letters_upper_append (hu : ∀ d ∈ u, d.isUpper) (hlen : u.length ≤ longestCode) (v : List Char) :
    letters (u ++ v) = u ++ (v.takeWhile Char.isUpper).take (longestCode - u.length) := by
  rw [letters, List.takeWhile_append_of_pos hu, List.take_append, List.take_of_length_le hlen]

theorem lay_pretty (w : List Char) : Style.pretty.lay w = letters w ++ Style.pretty.params (behind w) := rfl

theorem letters_lay (w : List Char) : letters (Style.pretty.lay w) = letters w ++ joining w := by
  rw [lay_pretty, letters_upper_append (fun d hd => isUpper_of_mem_letters hd) (length_letters_le w)]
  rfl

theorem joining_begins (w : List Char) : joining w <+: Style.pretty.params (behind w) :=
  (List.take_prefix _ _).trans (List.takeWhile_prefix _)

theorem head_behind (hlen : (letters w).length < longestCode) : ∀ c ∈ (behind w).head?, ¬ c.isUpper := by
  intro c hc hup
  have hmore := letters_upper_append (fun d hd => isUpper_of_mem_letters hd) hlen.le (behind w)
  have hlonger : 0 < ((behind w).takeWhile Char.isUpper).length := by
    obtain ⟨t, ht⟩ : ∃ t, behind w = c :: t := ⟨_, List.eq_cons_of_mem_head? hc⟩
    rw [ht, List.takeWhile_cons_of_pos hup]
    simp
  have := congrArg List.length hmore
  rw [behind, append_drop_letters, List.length_append, List.length_take, ← behind] at this
  omega

/-! ## A line laid out again -/

theorem params_tail_cases (hlast : ∀ c ∈ t.getLast?, ¬ isBlank c) (hchain : t.IsChain Apart) :
    (∃ b r, isBlank b ∧ t = b :: r ∧ Style.pretty.params t = r) ∨
      (∀ b r, isBlank b → t ≠ b :: r) ∧ Style.pretty.params t = t := by
  by_cases hhead : ∀ c ∈ t.head?, ¬ isBlank c
  · refine .inr ⟨?_, pretty_params_of_tidy ⟨hhead, hlast⟩ hchain⟩
    rintro b r hb rfl
    exact hhead b rfl hb
  · cases t with
    | nil => simp at hhead
    | cons b t =>
      have hb : isBlank b := by simpa using hhead
      obtain ⟨hnext, hchain⟩ := List.isChain_cons.mp hchain
      have htidy : Trimmed t := by
        refine ⟨fun c hc hcb => (hnext c hc).1 ⟨hb, hcb⟩, fun c hc => hlast c ?_⟩
        cases t with
        | nil => simp at hc
        | cons e t => exact hc
      have hparams := append_params (u := [b]) (by simpa using hb) t
      rw [List.singleton_append, pretty_params_of_tidy htidy hchain] at hparams
      exact .inl ⟨b, t, hb, rfl, hparams⟩

theorem lay_lay_cases (w : List Char) :
    (∃ b t, isBlank b ∧ Style.pretty.params (behind w) = joining w ++ b :: t) ∧
        (Style.pretty.lay (Style.pretty.lay w)).length < (Style.pretty.lay w).length ∨
      (∀ b t, isBlank b → Style.pretty.params (behind w) ≠ joining w ++ b :: t) ∧
        Style.pretty.lay (Style.pretty.lay w) = Style.pretty.lay w := by
  obtain ⟨t, ht⟩ := joining_begins w
  obtain ⟨htrim, hchain⟩ := tidy_params (behind w)
  rw [← ht] at htrim hchain
  have hlast : ∀ c ∈ t.getLast?, ¬ isBlank c := by
    intro c hc
    apply htrim.2 c
    rw [List.getLast?_append]
    simp [Option.mem_def.mp hc]
  have hline : Style.pretty.lay w = letters w ++ joining w ++ t := by
    rw [lay_pretty, ← ht, List.append_assoc]
  have hagain : Style.pretty.lay (Style.pretty.lay w) = letters w ++ joining w ++ Style.pretty.params t := by
    rw [lay_pretty (Style.pretty.lay w), behind, letters_lay]
    conv_lhs => rw [hline]
    rw [List.drop_left]
  rw [hagain, hline, ← ht]
  rcases params_tail_cases hlast (List.isChain_append.mp hchain).2.1 with ⟨b, r, hb, rfl, hparams⟩ | ⟨hnone, hparams⟩
  · left
    rw [hparams]
    exact ⟨⟨b, r, hb, rfl⟩, by simp⟩
  · right
    rw [hparams]
    exact ⟨fun b r hb heq => hnone b r hb (List.append_cancel_left heq), rfl⟩

theorem isUpper_of_mem_joining (hc : c ∈ joining w) : c.isUpper :=
  List.mem_takeWhile_imp (List.mem_of_mem_take hc)

theorem word_of_isUpper (hu : ∀ c ∈ u, c.isUpper) : ∀ c ∈ u, ¬ isBlank c ∧ c ≠ ',' :=
  fun c hc => ⟨not_isBlank_of_isUpper (hu c hc), ne_comma_of_isUpper (hu c hc)⟩

theorem loose_of_params_eq (hw : letters w ≠ []) {b : Char} (hb : isBlank b)
    (hparams : Style.pretty.params (behind w) = joining w ++ b :: t) (leader : Char) : Loose (leader :: w) := by
  have hupper : ∀ c ∈ joining w, c.isUpper := fun _ => isUpper_of_mem_joining
  have hne : joining w ≠ [] := by
    intro hnil
    rw [hnil] at hparams
    exact not_pretty_params_eq_blank hb hparams
  obtain ⟨before, gap, d, rest, hbehind, hbefore, hgap, hgne, hd, hd'⟩ :=
    exists_eq_of_pretty_params_eq (word_of_isUpper hupper) hne hb hparams
  have hlen : (letters w ++ joining w).length ≤ longestCode := by
    rw [← letters_lay]
    exact length_letters_le _
  -- Without a gap the letters would have been read on.
  have hbne : before ≠ [] := by
    rintro rfl
    obtain ⟨c, t, hct⟩ := List.exists_cons_of_ne_nil hne
    have hshort : (letters w).length < longestCode := by
      have := List.length_pos_iff.mpr hne
      rw [List.length_append] at hlen
      omega
    exact head_behind hshort c (by simp [hbehind, hct]) (hupper c (by simp [hct]))
  refine ⟨leader, letters w, before, joining w, gap, d, rest, ?_, ?_, hw, hne, hlen, ?_, hbne, hgne, hd, hd'⟩
  · rw [← hbehind, behind, append_drop_letters]
  · exact List.forall_mem_append.mpr ⟨fun _ => isUpper_of_mem_letters, hupper⟩
  · exact List.forall_mem_append.mpr ⟨hbefore, hgap⟩

theorem exists_params_eq_of_loose {leader : Char} (h : Loose (leader :: w)) :
    ∃ b t, isBlank b ∧ Style.pretty.params (behind w) = joining w ++ b :: t := by
  obtain ⟨leader', code, gap, more, gap', c, rest, htext, hupper, hcode, hmore, hlen, hblank, hgap, hgap', hc, hc'⟩ := h
  obtain ⟨-, rfl⟩ := List.cons.inj htext
  rw [List.forall_mem_append] at hupper hblank
  rw [List.length_append] at hlen
  obtain ⟨g, gap₁, rfl⟩ := List.exists_cons_of_ne_nil hgap
  have hg : ¬ g.isUpper := fun h => not_isBlank_of_isUpper h (hblank.1 g List.mem_cons_self)
  have hletters : letters (code ++ (g :: gap₁ ++ (more ++ (gap' ++ c :: rest)))) = code := by
    rw [letters_upper_append hupper.1 (by omega)]
    simp [hg]
  have hbehind : behind (code ++ (g :: gap₁ ++ (more ++ (gap' ++ c :: rest)))) =
      g :: gap₁ ++ (more ++ (gap' ++ c :: rest)) := by
    rw [behind, hletters, List.drop_left]
  obtain ⟨b, t, hb, hparams⟩ :=
    exists_pretty_params_append (word_of_isUpper hupper.2) hmore hblank.2 hgap' hc hc' rest
  have hbup : ¬ b.isUpper := fun h => not_isBlank_of_isUpper h hb
  refine ⟨b, t, hb, ?_⟩
  rw [joining, hletters, hbehind, append_params hblank.1, hparams, List.takeWhile_append_of_pos hupper.2,
    List.takeWhile_cons_of_neg hbup, List.append_nil, List.take_of_length_le (by omega)]

theorem loose_iff (hw : letters w ≠ []) (leader : Char) :
    (∃ b t, isBlank b ∧ Style.pretty.params (behind w) = joining w ++ b :: t) ↔ Loose (leader :: w) := by
  constructor
  · rintro ⟨b, t, hb, hparams⟩
    exact loose_of_params_eq hw hb hparams leader
  · exact exists_params_eq_of_loose

/-! ## Lines of a text -/

theorem Span.Opens.text_eq (hp : p.Opens {} rest) (hname : p.name ≠ fieldData) :
    p.text = p.leader :: (p.name ++ p.raw) := by
  rw [Span.text, (hp.ends_at hname).1, List.append_nil]

/-- A line that is laid out again loses a character if it is loose, and else it stays as it is. -/
theorem Span.Opens.relaid_cases (hp : p.Opens {} rest) (hlet : isLettered p.name) :
    (p.name ≠ fieldData ∧ Loose p.text) ∧
        (Span.relaid .pretty .pretty p).length < (p.line .pretty).length ∨
      (p.name ≠ fieldData → ¬ Loose p.text) ∧ Span.relaid .pretty .pretty p = p.line .pretty := by
  by_cases hname : p.name = fieldData
  · right
    refine ⟨fun h => absurd hname h, ?_⟩
    rw [Span.relaid, if_pos hname, Span.line, if_pos hname]
  · have hne : letters (p.name ++ p.raw) ≠ [] := by
      rw [ne_eq, ← isLettered_eq_false_iff hp.name.mnemonic, hlet]
      simp
    have hloose := loose_iff hne p.leader
    rw [Span.line_eq_lay hname, Span.relaid, if_neg hname, hp.text_eq hname, ← hloose]
    rcases lay_lay_cases (p.name ++ p.raw) with ⟨hblank, hlt⟩ | ⟨hnone, hsame⟩
    · exact .inl ⟨⟨hname, hblank⟩, by simpa using hlt⟩
    · refine .inr ⟨?_, by rw [hsame]⟩
      rintro - ⟨b, t, hb, heq⟩
      exact hnone b t hb heq

theorem isLettered_of_loose (hp : p.Opens {} rest) (hname : p.name ≠ fieldData) (h : Loose p.text) :
    isLettered p.name := by
  obtain ⟨leader, code, gap, more, gap', c, t, htext, hupper, hcode, -⟩ := h
  obtain ⟨d, n, hn, -⟩ := hp.name.mnemonic.exists_cons
  obtain ⟨e, code, rfl⟩ := List.exists_cons_of_ne_nil hcode
  rw [hp.text_eq hname, hn] at htext
  simp only [List.cons_append, List.cons.injEq] at htext
  have hup := hupper e (by simp)
  simp [isLettered, hn, htext.2.1, hup]

/-! ## Carriage returns before line feeds -/

theorem not_lineEnd_infix_iff : ¬ lineEnd <:+: s ↔ s.IsChain fun c d => ¬ (c = '\r' ∧ d = '\n') := by
  induction s with
  | nil => simp [lineEnd]
  | cons c s ih =>
    rw [List.infix_cons_iff, not_or, ih]
    cases s with
    | nil => simp [lineEnd]
    | cons d s =>
      rw [List.isChain_cons_cons]
      simp [lineEnd, List.cons_prefix_cons, eq_comm]

theorem count_lineFeeds (s : List Char) :
    (lineFeeds s).count '\r' ≤ s.count '\r' ∧ (lineEnd <:+: s → (lineFeeds s).count '\r' < s.count '\r') := by
  have hn : lineEnd ≠ [] := by decide
  induction s using cut_induction hn with
  | none s hcut =>
    have hnone := cut?_eq_none_iff.mp hcut
    rw [lineFeeds, ← lineEnd, replaceAll_of_cut?_eq_none _ hcut]
    exact ⟨le_rfl, fun h => absurd h hnone⟩
  | some s a b hcut ih =>
    have hs := congrArg (List.count '\r') (eq_append_of_cut? hcut)
    have hend : lineEnd.count '\r' = 1 := by decide
    have hfeed : ['\n'].count '\r' = 0 := by decide
    rw [lineFeeds, ← lineEnd] at ih ⊢
    rw [replaceAll_of_cut? _ hn hcut]
    simp only [List.count_append] at hs ⊢
    omega

theorem lineEnd_infix_append_iff (hu : ∀ c ∈ u.getLast?, c ≠ '\r') (v : List Char) :
    ¬ lineEnd <:+: u ++ '\n' :: v ↔ ¬ lineEnd <:+: u ∧ ¬ lineEnd <:+: v := by
  simp only [not_lineEnd_infix_iff]
  rw [List.isChain_append, List.isChain_cons]
  constructor
  · rintro ⟨hleft, ⟨-, hright⟩, -⟩
    exact ⟨hleft, hright⟩
  · rintro ⟨hleft, hright⟩
    refine ⟨hleft, ⟨?_, hright⟩, ?_⟩
    · rintro d - ⟨h, -⟩
      exact absurd h (by decide)
    · rintro c hc d - ⟨h, -⟩
      exact hu c hc h

theorem lineEnd_infix_intercalate_iff {ls : List (List Char)} (hls : ∀ l ∈ ls, ∀ c ∈ l.getLast?, c ≠ '\r') :
    ¬ lineEnd <:+: ['\n'].intercalate ls ++ ['\n'] ↔ ∀ l ∈ ls, ¬ lineEnd <:+: l := by
  induction ls with
  | nil =>
    rw [List.intercalate_nil, List.nil_append]
    decide
  | cons l ls ih =>
    rw [List.forall_mem_cons] at hls ⊢
    obtain ⟨hl, hls⟩ := hls
    cases ls with
    | nil =>
      rw [List.intercalate_singleton, lineEnd_infix_append_iff hl]
      simp [lineEnd]
    | cons m ls =>
      rw [← ih hls, ← lineEnd_infix_append_iff hl, List.intercalate_cons_cons]
      simp

theorem Span.Opens.line_last (hp : p.Opens {} rest) : ∀ c ∈ (p.line .pretty).getLast?, ¬ isBlank c := by
  have hlaid := hp.laidOut .pretty
  unfold LaidOut at hlaid
  by_cases hname : p.name = fieldData
  · rw [Span.line, if_pos hname]
    exact (trimmed_trim p.text).2
  · rw [if_neg hname] at hlaid
    exact hlaid.2.last

theorem Span.Opens.lineEnd_infix_line (hp : p.Opens {} rest) :
    ¬ lineEnd <:+: p.line .pretty ↔ (p.name = fieldData → ¬ lineEnd <:+: trim p.text) := by
  have hlaid := hp.laidOut .pretty
  unfold LaidOut at hlaid
  by_cases hname : p.name = fieldData
  · rw [Span.line, if_pos hname]
    simp [hname]
  · rw [if_neg hname] at hlaid
    simp only [hname, false_implies, iff_true, not_lineEnd_infix_iff]
    refine hlaid.2.apart.imp ?_
    rintro c d hapart ⟨rfl, rfl⟩
    exact hapart.1 (by decide)

/-! ## A label that stays -/

/-- What a pretty label with a line feed at its end needs to stay as it is. -/
structure Steady (s : List Char) : Prop where
  data : ∀ t ∈ tokenize {} s, t.name = fieldData → ¬ lineEnd <:+: trim (slice s t.start t.stop)
  codes : ∀ t ∈ tokenize {} s, t.name ≠ fieldData → ¬ Loose (slice s t.start t.stop)

theorem steady_iff (s : List Char) : Steady s ↔ ∀ p ∈ lined s,
    (p.name = fieldData → ¬ lineEnd <:+: trim p.text) ∧ (p.name ≠ fieldData → ¬ Loose p.text) := by
  have hdata := forall_tokenize_iff (l := {}) (s := s) fun o text => o.1 = fieldData → ¬ lineEnd <:+: trim text
  have hcodes := forall_tokenize_iff (l := {}) (s := s) fun o text => o.1 ≠ fieldData → ¬ Loose text
  constructor
  · rintro ⟨h1, h2⟩ p hp
    have hmem := (mem_lined_iff.mp hp).1
    exact ⟨hdata.mp h1 p hmem, hcodes.mp h2 p hmem⟩
  · intro h
    refine ⟨hdata.mpr fun p hp hname => ?_, hcodes.mpr fun p hp hname hloose => ?_⟩
    · have hname : p.name = fieldData := hname
      exact (h p (mem_lined_iff.mpr ⟨hp, hname ▸ isLettered_fieldData⟩)).1 hname
    · obtain ⟨-, rest, -, hopens⟩ := opens_of_mem_spans hp
      exact (h p (mem_lined_iff.mpr ⟨hp, isLettered_of_loose hopens hname hloose⟩)).2 hname hloose

theorem intercalate_map_eq_iff {α : Type} {ps : List α} {f g : α → List Char} (sep : List Char)
    (hle : ∀ p ∈ ps, (f p).length < (g p).length ∨ f p = g p) :
    sep.intercalate (ps.map f) = sep.intercalate (ps.map g) ↔ ∀ p ∈ ps, f p = g p := by
  constructor
  · intro heq
    by_contra hnot
    push Not at hnot
    obtain ⟨p, hp, hne⟩ := hnot
    have hnil : ∀ h : α → List Char, ps.map h ≠ [] := fun h => by simpa using List.ne_nil_of_mem hp
    have hlen : ((ps.map f).flatMap (sep ++ ·)).length = ((ps.map g).flatMap (sep ++ ·)).length := by
      rw [← append_intercalate (hnil f), ← append_intercalate (hnil g), heq]
    rw [List.flatMap_map, List.flatMap_map, List.length_flatMap, List.length_flatMap] at hlen
    refine absurd hlen (ne_of_lt (List.sum_lt_sum _ _ ?_ ⟨p, hp, ?_⟩))
    · intro q hq
      rcases hle q hq with hlt | hsame
      · simpa using hlt.le
      · rw [hsame]
    · simpa using (hle p hp).resolve_right hne
  · intro hsame
    rw [List.map_congr_left hsame]

section Again

variable {x : List Char}

theorem pretty_eq (x : List Char) : pretty x = ['\n'].intercalate (linesOf .pretty (lineFeeds x)) := rfl

theorem lineEnd_infix_pretty (x : List Char) : ¬ lineEnd <:+: pretty x ++ ['\n'] ↔
    ∀ p ∈ lined (lineFeeds x), p.name = fieldData → ¬ lineEnd <:+: trim p.text := by
  have hlast : ∀ l ∈ linesOf .pretty (lineFeeds x), ∀ c ∈ l.getLast?, c ≠ '\r' := by
    rw [linesOf_eq_map_lined, List.forall_mem_map]
    rintro p hp c hc rfl
    obtain ⟨-, rest, hopens⟩ := exists_opens_of_mem_lined hp
    exact hopens.line_last _ hc (by decide)
  rw [pretty_eq, lineEnd_infix_intercalate_iff hlast, linesOf_eq_map_lined, List.forall_mem_map]
  refine forall₂_congr fun p hp => ?_
  obtain ⟨-, rest, hopens⟩ := exists_opens_of_mem_lined hp
  exact hopens.lineEnd_infix_line

theorem not_lineEnd_infix_of_pretty (h : pretty (pretty x ++ ['\n']) = pretty x) :
    ¬ lineEnd <:+: pretty x ++ ['\n'] := by
  intro hend
  have hlt := (count_lineFeeds (pretty x ++ ['\n'])).2 hend
  have hle := count_linesOf_le (c := '\r') (by decide) .pretty (lineFeeds (pretty x ++ ['\n']))
  have hfeed : '\r' ∉ ['\n'] := by decide
  rw [← count_intercalate hfeed, ← pretty_eq, h] at hle
  rw [List.count_append, List.count_eq_zero_of_not_mem hfeed] at hlt
  omega

theorem pretty_pretty (hjoins : ∀ p ∈ spans {} (lineFeeds x), ¬ p.Joins) (hend : ¬ lineEnd <:+: pretty x ++ ['\n']) :
    pretty (pretty x ++ ['\n']) = ['\n'].intercalate ((lined (lineFeeds x)).map (Span.relaid .pretty .pretty)) := by
  rw [← linesOf_relaid isBlank_of_mem_lineFeed isBlank_of_mem_lineFeed hjoins, ← pretty_eq,
    pretty_eq (pretty x ++ _), lineFeeds_of_not_infix hend]

theorem pretty_pretty_iff (hjoins : ∀ p ∈ spans {} (lineFeeds x), ¬ p.Joins) :
    pretty (pretty x ++ ['\n']) = pretty x ↔ Steady (lineFeeds x) := by
  have hlines : pretty x = ['\n'].intercalate ((lined (lineFeeds x)).map (Span.line .pretty)) := by
    rw [pretty_eq, linesOf_eq_map_lined]
  have hparts : ['\n'].intercalate ((lined (lineFeeds x)).map (Span.relaid .pretty .pretty)) = pretty x ↔
      ∀ p ∈ lined (lineFeeds x), Span.relaid .pretty .pretty p = p.line .pretty := by
    rw [hlines]
    refine intercalate_map_eq_iff ['\n'] fun p hp => ?_
    obtain ⟨hlet, rest, hopens⟩ := exists_opens_of_mem_lined hp
    exact (hopens.relaid_cases hlet).imp And.right And.right
  rw [steady_iff]
  constructor
  · intro h p hp
    have hend := not_lineEnd_infix_of_pretty h
    rw [pretty_pretty hjoins hend, hparts] at h
    refine ⟨(lineEnd_infix_pretty x).mp hend p hp, ?_⟩
    obtain ⟨hlet, rest, hopens⟩ := exists_opens_of_mem_lined hp
    rcases hopens.relaid_cases hlet with ⟨-, hlt⟩ | ⟨hnot, -⟩
    · rw [h p hp] at hlt
      exact absurd hlt (lt_irrefl _)
    · exact hnot
  · intro h
    have hend := (lineEnd_infix_pretty x).mpr fun p hp => (h p hp).1
    rw [pretty_pretty hjoins hend, hparts]
    intro p hp
    obtain ⟨hlet, rest, hopens⟩ := exists_opens_of_mem_lined hp
    rcases hopens.relaid_cases hlet with ⟨⟨hname, hloose⟩, -⟩ | ⟨-, hsame⟩
    · exact absurd hloose ((h p hp).2 hname)
    · exact hsame

end Again

end LabelPress.Markup
