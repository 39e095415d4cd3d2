import LabelPress.Proofs.Estimate.Contents
import LabelPress.Proofs.Markup.Reread
import Mathlib

/-!
# The length of a label that is laid out

Pretty parameters have the readings of the parameters they are made from (`readings_laid`), minified ones
have them if no blank stands between two words. So a label that is laid out is as long as before.
-/

namespace LabelPress.Estimate

open Markup Text

variable {a : Assumptions} {p q : Span} {style : Style} {raw raw' x : List Char}

theorem reading_field (f : List Char) : reading (Style.pretty.field f) = reading f :=
  reading_congr (by rw [Style.field, words_squeeze, words_trim])

theorem readings_letters {e : List Char} (he : ∀ c ∈ e, c.isUpper) (q : List Char) :
    readings (e ++ Style.pretty.params q) = readings (e ++ q) := by
  have hcomma : ',' ∉ e := fun h => absurd (he _ h) (by decide)
  obtain ⟨f, fs, hfs⟩ := List.exists_cons_of_ne_nil (fields_ne_nil ',' q)
  have htail : (fs.map Style.pretty.field).map reading = fs.map reading := by
    rw [List.map_map]
    exact List.map_congr_left fun f _ => reading_field f
  have hhead : reading (e ++ Style.pretty.field f) = reading (e ++ f) := by
    cases e with
    | nil => exact reading_field f
    | cons c e =>
      refine reading_of_isUpper ?_ (List.mem_cons_self) (he c List.mem_cons_self)
      rw [dropBlanks_append, dropBlanks_append, dropBlanks_field]
  rw [readings, readings, fields_append_left hcomma, fields_append_left hcomma, fields_params, hfs]
  simp only [List.map_cons, List.modifyHead_cons, hhead, htail]

theorem readings_mark {d : Char} (hd : ¬ isBlank d) (hcomma : d ≠ ',')
    (hraw : Style.pretty.params (d :: raw) = d :: raw') : readings raw' = readings raw := by
  have hfields := fields_params .pretty (d :: raw)
  rw [hraw, fields_cons_of_ne hcomma, fields_cons_of_ne hcomma] at hfields
  obtain ⟨f, fs, hfs⟩ := List.exists_cons_of_ne_nil (fields_ne_nil ',' raw)
  obtain ⟨g, gs, hgs⟩ := List.exists_cons_of_ne_nil (fields_ne_nil ',' raw')
  rw [hfs, hgs, List.modifyHead_cons, List.modifyHead_cons, List.map_cons, List.cons.injEq] at hfields
  obtain ⟨hhead, htail⟩ := hfields
  -- The mark stays in front, so the field behind it loses blanks as if it stood alone.
  rw [Style.field, trim_cons hd, squeeze_cons_of_not_blank hd, List.cons.injEq] at hhead
  obtain ⟨w, hw, hblank⟩ := exists_eq_trimEnd f
  have hwords : words g = words f := by
    rw [hhead.2, words_squeeze]
    conv_rhs => rw [hw]
    rw [words_append hblank]
  rw [readings, readings, hfs, hgs, htail, List.map_cons, List.map_cons, reading_congr hwords, List.map_map]
  congr 1
  exact List.map_congr_left fun f _ => reading_field f

theorem readings_laid (h : Laid .pretty raw raw') : readings raw' = readings raw := by
  cases h with
  | letters e q he => exact readings_letters he q
  | mark d hd hcomma hraw => exact readings_mark hd hcomma hraw

theorem laid_minified (h : Laid .minified raw raw') : raw' = dropBlanks raw := by
  cases h with
  | letters e q he =>
    have hblank : ∀ c ∈ e, ¬ isBlank c := fun c hc => not_isBlank_of_isUpper (he c hc)
    rw [dropBlanks_append, dropBlanks_of_not_blank hblank, Style.params]
  | mark d hd _ hraw =>
    rw [Style.params, dropBlanks_cons_of_not_blank hd, List.cons.injEq] at hraw
    exact hraw.2.symm

/-! ## One command -/

theorem isLettered_of_interpreted : ∀ name ∈ interpreted, isLettered name := by decide

theorem stepOn_of_not_lettered (h : ¬ isLettered p.name) (y : Layout) : Layout.stepOn a y p.content = y := by
  apply stepOn_of_not_mem
  · exact fun hmem => h (isLettered_of_interpreted _ hmem)
  · intro hname
    have hdata : p.name = fieldData := hname
    rw [hdata] at h
    exact h (by decide)

theorem stepOn_line (h : Span.IsLine style p q)
    (hwhole : style = .minified → p.name ∈ interpreted → ∀ f ∈ fields ',' p.params, ¬ Broken f)
    (y : Layout) :
    Layout.stepOn a y q.content = Layout.stepOn a y p.content := by
  by_cases hname : p.name = fieldData
  · simp only [Span.content, Span.params, h.name, hname, if_true, (h.closed hname).2]
  · have hlaid := h.laid hname
    simp only [Span.content, Span.params, h.name, hname, if_false] at hwhole ⊢
    cases style with
    | pretty =>
      apply stepOn_congr hname
      rw [readings_trim, readings_trim, readings_laid hlaid]
    | minified =>
      by_cases hmem : p.name ∈ interpreted
      · apply stepOn_congr hname
        rw [laid_minified hlaid, readings_trim, ← dropBlanks_trim, readings_dropBlanks (hwhole rfl hmem)]
      · rw [stepOn_of_not_mem hmem hname, stepOn_of_not_mem hmem hname]

/-! ## The whole label -/

theorem foldl_lines {ps : List Span} (hlines : ∀ p ∈ ps, isLettered p.name → ∃ q, Span.IsLine style p q)
    (hwhole : style = .minified → ∀ p ∈ ps, p.name ∈ interpreted → ∀ f ∈ fields ',' p.params, ¬ Broken f)
    (y : Layout) :
    (((ps.filter fun p => isLettered p.name).map (Span.line style)).flatMap (contents {})).foldl (Layout.stepOn a) y =
      (ps.map Span.content).foldl (Layout.stepOn a) y := by
  induction ps generalizing y with
  | nil => rfl
  | cons p ps ih =>
    have hrest := ih (fun p hp => hlines p (List.mem_cons_of_mem _ hp))
      fun hs p hp => hwhole hs p (List.mem_cons_of_mem _ hp)
    by_cases hlet : isLettered p.name
    · obtain ⟨q, hq⟩ := hlines p List.mem_cons_self hlet
      have hstep := stepOn_line (a := a) hq (fun hs => hwhole hs p List.mem_cons_self) y
      rw [List.filter_cons, if_pos hlet, List.map_cons, List.flatMap_cons, hq.contents_line, List.singleton_append,
        List.foldl_cons, hstep, hrest, List.map_cons, List.foldl_cons]
    · rw [List.filter_cons, if_neg hlet, hrest, List.map_cons, List.foldl_cons, stepOn_of_not_lettered hlet]

theorem lines_eq_linesOf (style : Style) (h : '\r' ∉ x) : lines style x = linesOf style x := by
  have hcut : cut? ['\r', '\n'] x = none := by
    rw [cut?_eq_none_iff]
    rintro ⟨u, v, rfl⟩
    exact h (by simp)
  rw [lines, replaceAll_of_cut?_eq_none _ hcut]

theorem ofMarkup_intercalate {sep : List Char} (hsep : ∀ c ∈ sep, isBlank c) (hreturn : '\r' ∉ x)
    (hlines : ∀ p ∈ spans {} x, isLettered p.name → ∃ q, Span.IsLine style p q)
    (hwhole : style = .minified → ∀ p ∈ spans {} x, p.name ∈ interpreted → ∀ f ∈ fields ',' p.params,
        ¬ Broken f) :
    ofMarkup a (sep.intercalate (lines style x)) = ofMarkup a x := by
  have hparts : ∀ u ∈ lines style x, IsPart u := by
    rw [lines_eq_linesOf style hreturn, linesOf_eq_map]
    intro u hu
    obtain ⟨p, hp, rfl⟩ := List.mem_map.mp hu
    obtain ⟨hp, hlet⟩ := List.mem_filter.mp hp
    obtain ⟨q, hq⟩ := hlines p hp hlet
    exact hq.isPart
  rw [ofMarkup_eq, contents_intercalate hsep hparts, lines_eq_linesOf style hreturn, linesOf_eq_map,
    foldl_lines hlines hwhole, ofMarkup_eq, contents]

/-- A label without carriage returns, with closed field data, and without a mnemonic of one character that is
detached from what follows it. -/
structure Regular (x : List Char) : Prop where
  no_return : '\r' ∉ x
  closed : ∀ t ∈ tokenize {} x, t.name = fieldData → ({} : Leaders).terminator <:+ slice x t.start t.stop
  attached : ∀ t ∈ tokenize {} x, t.name.length = 1 → ¬ Detached t.name (slice x t.start t.stop)

/-- No parameter that the walk reads has a blank between its words. -/
def Whole (x : List Char) : Prop :=
  ∀ t ∈ tokenize {} x, t.name ∈ interpreted → ∀ f ∈ fields ',' t.params, ¬ Broken f

theorem Regular.exists_isLine (h : Regular x) (style : Style) (hp : p ∈ spans {} x) (hlet : isLettered p.name) :
    ∃ q, Span.IsLine style p q := by
  have hclosed := (forall_tokenize_iff fun o text => o.1 = fieldData → _ <:+ text).mp h.closed
  have hattached := (forall_tokenize_iff fun o text => o.1.length = 1 → ¬ Detached o.1 text).mp h.attached
  obtain ⟨before, rest, -, hopens⟩ := opens_of_mem_spans hp
  exact hopens.exists_isLine hlet (hclosed p hp) (hattached p hp) style

theorem Whole.not_broken (h : Whole x) :
    ∀ p ∈ spans {} x, p.name ∈ interpreted → ∀ f ∈ fields ',' p.params, ¬ Broken f :=
  (forall_tokenize_iff fun o _ => o.1 ∈ interpreted → ∀ f ∈ fields ',' o.2, ¬ Broken f).mp h

/-- A regular label that is laid out is as long as before. Without its blanks it is as long as before, if
moreover its parameters are whole. -/
theorem ofMarkup_laidOut (a : Assumptions) (x : List Char) (h : Regular x) :
    ofMarkup a (pretty x) = ofMarkup a x ∧ (Whole x → ofMarkup a (minify x) = ofMarkup a x) := by
  constructor
  · exact ofMarkup_intercalate isBlank_of_mem_lineFeed h.no_return (fun p hp => h.exists_isLine .pretty hp) (by simp)
  · intro hwhole
    rw [minify, flatten_eq_intercalate]
    exact ofMarkup_intercalate (by simp) h.no_return (fun p hp => h.exists_isLine .minified hp)
      fun _ => hwhole.not_broken

/-- The label of a room, with blanks around parameters and in field data. -/
def room : List Char := "^XA\n^FO 50, 100 ^A0N,30 ,20\n^FDRoom ~7 ^FS ^XZ".toList

theorem tokenize_room : tokenize {} room =
    [⟨['X', 'A'], [], 0, 4⟩, ⟨['F', 'O'], "50, 100".toList, 4, 16⟩, ⟨['A'], "0N,30 ,20".toList, 16, 28⟩,
      ⟨['F', 'D'], "Room ~7 ".toList, 28, 42⟩, ⟨['X', 'Z'], [], 43, 46⟩] := by
  cbv

theorem regular_room : Regular room where
  no_return := by decide
  closed := by
    rw [tokenize_room]
    decide
  attached := by
    -- The one mnemonic of one character has a digit behind it.
    have hdigit : ∀ t ∈ tokenize {} room, t.name.length = 1 →
        ((slice room t.start t.stop).drop (t.name.length + 1)).head? = some '0' := by
      rw [tokenize_room]
      decide
    rintro t ht hlen ⟨leader, gap, c, rest, htext, hgap, hblank, -⟩
    have hhead := hdigit t ht hlen
    obtain ⟨b, gap, rfl⟩ := List.exists_cons_of_ne_nil hgap
    rw [htext] at hhead
    simp at hhead
    exact absurd (hblank b List.mem_cons_self) (by rw [hhead]; decide)

theorem whole_room : Whole room := by
  have hwords : ∀ t ∈ tokenize {} room, t.name ∈ interpreted → ∀ f ∈ fields ',' t.params,
      ¬ 1 < (words f).length := by
    rw [tokenize_room]
    decide
  exact fun t ht hname f hf h => hwords t ht hname f hf (one_lt_words_of_broken h)

theorem ofMarkup_laidOut_room : Regular room ∧ Whole room ∧
    ofMarkup {} (pretty room) = ofMarkup {} room ∧ ofMarkup {} (minify room) = ofMarkup {} room := by
  obtain ⟨hpretty, hminify⟩ := ofMarkup_laidOut {} room regular_room
  exact ⟨regular_room, whole_room, hpretty, hminify whole_room⟩

end LabelPress.Estimate
