import LabelPress.Markup.Layout
import LabelPress.Proofs.Text.Fields
import LabelPress.Proofs.Text.Words
import Mathlib.Data.List.Chain

/-!
# What a layout does to parameters

A layout changes blanks and nothing else (`dropBlanks_params`). Pretty parameters have no blank at an
end, next to a comma or next to another blank (`tidy_params`).
-/

namespace LabelPress.Markup

open Text

variable {c d : Char} {s t u : List Char}

/-! ## Squeezing -/

@[simp] theorem squeeze_nil : squeeze [] = [] := by rw [squeeze.eq_def]

@[simp] theorem squeeze_singleton (c : Char) : squeeze [c] = [c] := by rw [squeeze.eq_def]

theorem squeeze_cons_cons (c d : Char) (s : List Char) : squeeze (c :: d :: s) =
    if isBlank c && isBlank d then ' ' :: squeeze (s.dropWhile isBlank) else c :: squeeze (d :: s) := by
  rw [squeeze.eq_def]

theorem squeeze_cons_of_not_blank (h : ¬ isBlank c) (s : List Char) : squeeze (c :: s) = c :: squeeze s := by
  cases s with
  | nil => simp
  | cons d s => simp [squeeze_cons_cons, h]

theorem dropBlanks_dropWhile (s : List Char) : dropBlanks (s.dropWhile isBlank) = dropBlanks s := by
  conv_rhs => rw [← List.takeWhile_append_dropWhile (p := isBlank) (l := s)]
  rw [dropBlanks_append, dropBlanks_of_blank fun c hc => List.mem_takeWhile_imp hc, List.nil_append]

theorem dropBlanks_squeeze (s : List Char) : dropBlanks (squeeze s) = dropBlanks s := by
  induction s using squeeze.induct with
  | case1 => rw [squeeze_nil]
  | case2 c => rw [squeeze_singleton]
  | case3 c d s hb ih =>
    rw [Bool.and_eq_true] at hb
    rw [squeeze_cons_cons, if_pos (by simpa using hb)]
    have hspace : isBlank ' ' := by decide
    rw [dropBlanks_dropWhile] at ih
    simpa [dropBlanks, hb, hspace] using ih
  | case4 c d s hb ih =>
    rw [squeeze_cons_cons, if_neg hb]
    simp only [dropBlanks, List.filter_cons] at ih ⊢
    rw [ih]

theorem head_squeeze (s : List Char) : (squeeze s).head?.map isBlank = s.head?.map isBlank := by
  cases s with
  | nil => rw [squeeze_nil]
  | cons c s =>
    cases s with
    | nil => rw [squeeze_singleton]
    | cons d s =>
      rw [squeeze_cons_cons]
      split_ifs with hb
      · rw [Bool.and_eq_true] at hb
        simp [hb.1, show isBlank ' ' by decide]
      · simp

theorem squeeze_ne_nil (h : s ≠ []) : squeeze s ≠ [] := by
  intro hs
  have := head_squeeze s
  rw [hs] at this
  cases s with
  | nil => exact h rfl
  | cons c s => simp at this

theorem getLast_squeeze (s : List Char) : (squeeze s).getLast?.map isBlank = s.getLast?.map isBlank := by
  induction s using squeeze.induct with
  | case1 => rw [squeeze_nil]
  | case2 c => rw [squeeze_singleton]
  | case3 c d s hb ih =>
    rw [squeeze_cons_cons, if_pos hb]
    rw [Bool.and_eq_true] at hb
    by_cases hs : s.dropWhile isBlank = []
    · -- Blanks to the end.
      have hall := List.dropWhile_eq_nil_iff.mp hs
      have hlast : ∀ e ∈ (c :: d :: s).getLast?, isBlank e := by
        intro e he
        have := List.mem_of_getLast? he
        simp only [List.mem_cons] at this
        rcases this with rfl | rfl | h
        · exact hb.1
        · exact hb.2
        · exact hall e h
      rw [hs, squeeze_nil]
      cases he : (c :: d :: s).getLast? with
      | none => simp at he
      | some e => simp [hlast e he, show isBlank ' ' by decide]
    · have hne := squeeze_ne_nil hs
      obtain ⟨w, hw⟩ := List.dropWhile_suffix isBlank (l := s)
      rw [List.getLast?_cons_of_ne_nil hne, ih]
      conv_rhs => rw [← hw]
      rw [← List.cons_append, ← List.cons_append, List.getLast?_append_of_ne_nil _ hs]
  | case4 c d s hb ih =>
    rw [squeeze_cons_cons, if_neg hb, List.getLast?_cons_of_ne_nil (squeeze_ne_nil (by simp)), ih]
    simp

theorem mem_of_mem_squeeze (hc : ¬ isBlank c) (h : c ∈ squeeze s) : c ∈ s := by
  have hmem : c ∈ dropBlanks (squeeze s) := List.mem_filter.mpr ⟨h, by simp [hc]⟩
  rw [dropBlanks_squeeze] at hmem
  exact (List.mem_filter.mp hmem).1

theorem trimmed_squeeze (h : Trimmed s) : Trimmed (squeeze s) := by
  have hhead := head_squeeze s
  have hlast := getLast_squeeze s
  constructor
  · intro c hc hb
    rw [Option.mem_def.mp hc, Option.map_some, eq_comm, Option.map_eq_some_iff] at hhead
    obtain ⟨d, hd, hdb⟩ := hhead
    exact h.1 d hd (hdb.trans hb)
  · intro c hc hb
    rw [Option.mem_def.mp hc, Option.map_some, eq_comm, Option.map_eq_some_iff] at hlast
    obtain ⟨d, hd, hdb⟩ := hlast
    exact h.2 d hd (hdb.trans hb)

theorem words_squeeze (s : List Char) : words (squeeze s) = words s := by
  induction s using squeeze.induct with
  | case1 => rw [squeeze_nil]
  | case2 c => rw [squeeze_singleton]
  | case3 c d s hb ih =>
    rw [squeeze_cons_cons, if_pos hb]
    rw [Bool.and_eq_true] at hb
    have htake : ∀ e ∈ s.takeWhile isBlank, isBlank e := fun e he => List.mem_takeWhile_imp he
    rw [words_cons_blank (by decide), ih, words_cons_blank hb.1, words_cons_blank hb.2]
    conv_rhs => rw [← List.takeWhile_append_dropWhile (p := isBlank) (l := s)]
    rw [append_words htake]
  | case4 c d s hb ih =>
    rw [squeeze_cons_cons, if_neg hb]
    exact words_cons_congr ih (head_squeeze (d :: s))

/-! ## Blanks that stand alone -/

/-- Of two neighbours at most one is a blank, and a blank has no comma beside it. -/
def Apart (c d : Char) : Prop :=
  ¬ (isBlank c ∧ isBlank d) ∧ ¬ (isBlank c ∧ d = ',') ∧ ¬ (c = ',' ∧ isBlank d)

/-- No blank at the end, next to a comma or next to another blank. -/
structure Tidy (s : List Char) : Prop where
  last : ∀ c ∈ s.getLast?, ¬ isBlank c
  apart : s.IsChain Apart

theorem apart_of_not_blank_left (hc : ¬ isBlank c) (hcomma : c ≠ ',') : Apart c d :=
  ⟨fun h => hc h.1, fun h => hc h.1, fun h => hcomma h.1⟩

theorem apart_of_not_blank (hc : ¬ isBlank c) (hd : ¬ isBlank d) : Apart c d :=
  ⟨fun h => hc h.1, fun h => hc h.1, fun h => hd h.2⟩

theorem isChain_squeeze (hs : ',' ∉ s) : (squeeze s).IsChain Apart := by
  induction s using squeeze.induct with
  | case1 => simp
  | case2 c => simp
  | case3 c d s hb ih =>
    rw [squeeze_cons_cons, if_pos hb, List.isChain_cons]
    simp only [List.mem_cons, not_or] at hs
    refine ⟨fun e he => ?_, ih fun h => hs.2.2 ((List.dropWhile_suffix isBlank).mem h)⟩
    -- What follows the blanks is none.
    have hne : ¬ isBlank e := by
      have hhead := head_squeeze (s.dropWhile isBlank)
      rw [Option.mem_def.mp he, Option.map_some, eq_comm, Option.map_eq_some_iff] at hhead
      obtain ⟨x, hx, hxb⟩ := hhead
      rw [← hxb]
      exact head_trimStart s x hx
    refine ⟨fun h => hne h.2, ?_, fun h => hne h.2⟩
    rintro ⟨-, rfl⟩
    exact hs.2.2 ((List.dropWhile_suffix isBlank).mem (mem_of_mem_squeeze hne (List.mem_of_mem_head? he)))
  | case4 c d s hb ih =>
    rw [squeeze_cons_cons, if_neg hb, List.isChain_cons]
    rw [List.mem_cons, not_or] at hs
    refine ⟨fun e he => ?_, ih hs.2⟩
    have hhead := head_squeeze (d :: s)
    rw [Option.mem_def.mp he] at hhead
    simp only [Option.map_some, List.head?_cons, Option.some.injEq] at hhead
    refine ⟨fun h => hb (by simp [h.1, ← hhead, h.2]), ?_, fun h => hs.1 h.1.symm⟩
    rintro ⟨-, rfl⟩
    exact hs.2 (mem_of_mem_squeeze (by decide) (List.mem_of_mem_head? he))

/-! ## Parameters -/

/-- A field of the parameters in a layout. -/
def Style.field : Style → List Char → List Char
  | .pretty, f => squeeze (trim f)
  | .minified, f => dropBlanks f

theorem dropBlanks_field (style : Style) (f : List Char) : dropBlanks (style.field f) = dropBlanks f := by
  cases style with
  | pretty => rw [Style.field, dropBlanks_squeeze, dropBlanks_trim]
  | minified => simp [Style.field, dropBlanks]

theorem not_mem_field (style : Style) {f : List Char} (hf : ',' ∉ f) : ',' ∉ style.field f := by
  intro h
  have hmem : ',' ∈ dropBlanks (style.field f) := List.mem_filter.mpr ⟨h, by decide⟩
  rw [dropBlanks_field] at hmem
  exact hf (List.mem_of_mem_filter hmem)

theorem fields_params (style : Style) (s : List Char) :
    fields ',' (style.params s) = (fields ',' s).map style.field := by
  cases style with
  | pretty =>
    have hne : (fields ',' s).map Style.pretty.field ≠ [] := by simpa using fields_ne_nil ',' s
    refine fields_intercalate hne fun f hf => ?_
    obtain ⟨g, hg, rfl⟩ := List.mem_map.mp hf
    exact not_mem_field .pretty (not_mem_of_mem_fields hg)
  | minified => exact fields_dropBlanks (by decide) s

theorem dropBlanks_intercalate (fs : List (List Char)) :
    dropBlanks ([','].intercalate fs) = [','].intercalate (fs.map dropBlanks) := by
  induction fs with
  | nil => rfl
  | cons f fs ih =>
    cases fs with
    | nil => simp
    | cons g fs =>
      rw [List.map_cons, List.map_cons, List.intercalate_cons_cons, List.intercalate_cons_cons,
        ← List.map_cons, ← ih]
      simp [dropBlanks_cons_of_not_blank (show ¬ isBlank ',' by decide)]

theorem dropBlanks_params (style : Style) (s : List Char) : dropBlanks (style.params s) = dropBlanks s := by
  rw [← intercalate_fields ',' (style.params s), fields_params, dropBlanks_intercalate, List.map_map]
  have hfield : dropBlanks ∘ style.field = dropBlanks := funext (dropBlanks_field style)
  rw [hfield, ← dropBlanks_intercalate, intercalate_fields]

theorem tidy_intercalate {fs : List (List Char)} (h : ∀ f ∈ fs, Trimmed f ∧ f.IsChain Apart) :
    Trimmed ([','].intercalate fs) ∧ ([','].intercalate fs).IsChain Apart := by
  induction fs with
  | nil => exact ⟨trimmed_nil, by simp⟩
  | cons f fs ih =>
    rw [List.forall_mem_cons] at h
    obtain ⟨⟨hf, hchain⟩, hfs⟩ := h
    cases fs with
    | nil =>
      rw [List.intercalate_singleton]
      exact ⟨hf, hchain⟩
    | cons g fs =>
      obtain ⟨htrim, hrest⟩ := ih hfs
      have hcomma : ¬ isBlank ',' := by decide
      rw [List.intercalate_cons_cons, List.append_assoc, List.singleton_append]
      refine ⟨⟨?_, ?_⟩, ?_⟩
      · intro c hc
        cases f with
        | nil =>
          rw [List.nil_append, List.head?_cons, Option.mem_some_iff] at hc
          exact hc ▸ hcomma
        | cons d f => exact hf.1 c hc
      · intro c hc
        rw [List.getLast?_append_cons] at hc
        cases ht : [','].intercalate (g :: fs) with
        | nil =>
          rw [ht, List.getLast?_singleton, Option.mem_some_iff] at hc
          exact hc ▸ hcomma
        | cons d t =>
          rw [ht, List.getLast?_cons_cons] at hc
          rw [ht] at htrim
          exact htrim.2 c hc
      · rw [List.isChain_append, List.isChain_cons]
        refine ⟨hchain, ⟨fun c hc => apart_of_not_blank hcomma (htrim.1 c hc), hrest⟩, ?_⟩
        intro c hc d hd
        rw [List.head?_cons, Option.mem_some_iff] at hd
        exact hd ▸ apart_of_not_blank (hf.2 c hc) hcomma

theorem tidy_params (s : List Char) : Trimmed (Style.pretty.params s) ∧ (Style.pretty.params s).IsChain Apart := by
  apply tidy_intercalate
  intro f hf
  obtain ⟨g, hg, rfl⟩ := List.mem_map.mp hf
  refine ⟨trimmed_squeeze (trimmed_trim g), isChain_squeeze fun h => not_mem_of_mem_fields hg ?_⟩
  obtain ⟨u, w, hgtrim, -, -⟩ := exists_eq_trim g
  rw [hgtrim]
  simp [h]

theorem trimmed_params (style : Style) (s : List Char) : Trimmed (style.params s) := by
  cases style with
  | pretty => exact (tidy_params s).1
  | minified => exact trimmed_of_not_blank fun c hc => by simpa using List.of_mem_filter hc

theorem head_params (style : Style) (s : List Char) : (style.params s).head? = (dropBlanks s).head? := by
  rw [(trimmed_params style s).head?_eq, dropBlanks_params]

end LabelPress.Markup
