import LabelPress.Proofs.Markup.Layout

/-!
# Pretty parameters from the left

Tidy parameters stay as they are (`pretty_params_of_tidy`). In others a blank stays behind a word if more of the same
field follows it (`exists_pretty_params_append`, `exists_eq_of_pretty_params_eq`).
-/

namespace LabelPress.Markup

open Text

variable {c d : Char} {s t u v w gap rest : List Char}

/-! ## Tidy parameters -/

theorem squeeze_of_isChain (hs : s.IsChain Apart) : squeeze s = s := by
  induction s using squeeze.induct with
  | case1 => rw [squeeze_nil]
  | case2 c => rw [squeeze_singleton]
  | case3 c d s hb ih =>
    rw [Bool.and_eq_true] at hb
    exact absurd hb (List.isChain_cons_cons.mp hs).1.1
  | case4 c d s hb ih =>
    rw [squeeze_cons_cons, if_neg hb, ih (List.isChain_cons_cons.mp hs).2]

theorem tidy_of_intercalate {fs : List (List Char)} (htrim : Trimmed ([','].intercalate fs))
    (hchain : ([','].intercalate fs).IsChain Apart) :
    ∀ f ∈ fs, Trimmed f ∧ f.IsChain Apart := by
  induction fs with
  | nil => simp
  | cons f fs ih =>
    cases fs with
    | nil =>
      rw [List.intercalate_singleton] at htrim hchain
      simpa using ⟨htrim, hchain⟩
    | cons g fs =>
      rw [List.intercalate_cons_cons, List.append_assoc, List.singleton_append] at htrim hchain
      rw [List.isChain_append, List.isChain_cons] at hchain
      obtain ⟨hf, ⟨hcomma, hrest⟩, hlink⟩ := hchain
      rw [List.forall_mem_cons]
      refine ⟨⟨⟨?_, ?_⟩, hf⟩, ih ⟨?_, ?_⟩ hrest⟩
      · intro c hc
        exact htrim.1 c (List.mem_head?_append_of_mem_head? hc)
      · intro c hc hb
        exact (hlink c hc ',' rfl).2.1 ⟨hb, rfl⟩
      · intro c hc hb
        exact (hcomma c hc).2.2 ⟨rfl, hb⟩
      · intro c hc
        apply htrim.2 c
        have hne : [','].intercalate (g :: fs) ≠ [] := by
          intro hnil
          simp [hnil] at hc
        rw [List.getLast?_append_cons, List.getLast?_cons_of_ne_nil hne]
        exact hc

theorem pretty_params_of_tidy (htrim : Trimmed s) (hchain : s.IsChain Apart) : Style.pretty.params s = s := by
  rw [← intercalate_fields ',' s] at htrim hchain
  have hfields := tidy_of_intercalate htrim hchain
  have hsame : (fields ',' s).map (fun f => squeeze (trim f)) = fields ',' s := by
    conv_rhs => rw [← List.map_id (fields ',' s)]
    refine List.map_congr_left fun f hf => ?_
    obtain ⟨hft, hfc⟩ := hfields f hf
    rw [trim_of_trimmed hft, squeeze_of_isChain hfc, id]
  rw [Style.params, hsame, intercalate_fields]

/-! ## From the left -/

theorem exists_blanks (s : List Char) :
    ∃ u t, s = u ++ t ∧ (∀ c ∈ u, isBlank c) ∧ ∀ c ∈ t.head?, ¬ isBlank c :=
  ⟨s.takeWhile isBlank, trimStart s, List.takeWhile_append_dropWhile.symm,
    fun _ hc => List.mem_takeWhile_imp hc, head_trimStart s⟩

theorem append_params (hu : ∀ c ∈ u, isBlank c) (s : List Char) :
    Style.pretty.params (u ++ s) = Style.pretty.params s := by
  have hcomma : ',' ∉ u := not_mem_of_blank (by decide) hu
  rw [Style.params, Style.params, fields_append_left hcomma]
  cases fields ',' s with
  | nil => rfl
  | cons f fs => simp [append_trim hu]

theorem trim_cons_blank (hc : ¬ isBlank c) (hgap : ∀ b ∈ gap, isBlank b) : trim (c :: gap) = [c] :=
  trim_eq_of_eq_append (u := []) (by simp) (by simp) hgap (trimmed_of_not_blank (by simpa using hc))

theorem trim_cons_append (hc : ¬ isBlank c) (hd : ¬ isBlank d) (gap s : List Char) :
    trim (c :: (gap ++ d :: s)) = c :: (gap ++ trim (d :: s)) := by
  obtain ⟨w, hw, hblank⟩ := exists_eq_trimEnd s
  have htrim := trim_cons hd s
  rw [htrim]
  refine trim_eq_of_eq_append (u := []) (w := w) ?_ (by simp) hblank ⟨by simpa using hc, ?_⟩
  · conv_lhs => rw [hw]
    simp
  · intro e he
    have hlast := (trimmed_trim (d :: s)).2
    rw [htrim] at hlast
    rw [← List.cons_append, List.getLast?_append_of_ne_nil _ (by simp)] at he
    exact hlast e he

theorem squeeze_blanks (hgap : ∀ b ∈ gap, isBlank b) (hne : gap ≠ []) (hd : ¬ isBlank d) (s : List Char) :
    ∃ b, isBlank b ∧ squeeze (gap ++ d :: s) = b :: squeeze (d :: s) := by
  obtain ⟨b, gap, rfl⟩ := List.exists_cons_of_ne_nil hne
  rw [List.forall_mem_cons] at hgap
  obtain ⟨hb, hgap⟩ := hgap
  cases gap with
  | nil => exact ⟨b, hb, by simp [squeeze_cons_cons, hd]⟩
  | cons e gap =>
    rw [List.forall_mem_cons] at hgap
    refine ⟨' ', by decide, ?_⟩
    rw [List.cons_append, List.cons_append, squeeze_cons_cons, if_pos (by simp [hb, hgap.1]),
      List.dropWhile_append_of_pos hgap.2, List.dropWhile_cons_of_neg hd]

theorem intercalate_cons_cons_left (c : Char) (f : List Char) (fs : List (List Char)) :
    [','].intercalate ((c :: f) :: fs) = c :: [','].intercalate (f :: fs) := by
  cases fs with
  | nil => simp
  | cons g fs => simp [List.intercalate_cons_cons]

theorem comma_not_mem_cons (hc : c ≠ ',') (hgap : ∀ b ∈ gap, isBlank b) : ',' ∉ c :: gap := by
  rw [List.mem_cons, not_or]
  exact ⟨hc.symm, not_mem_of_blank (by decide) hgap⟩

theorem pretty_params_cons (hc : ¬ isBlank c) (hcomma : c ≠ ',') (hgap : ∀ b ∈ gap, isBlank b)
    (hhead : ∀ d ∈ s.head?, ¬ isBlank d) (hs : gap = [] ∨ ∀ d ∈ s.head?, d = ',') :
    Style.pretty.params (c :: (gap ++ s)) = c :: Style.pretty.params s := by
  have hfree := comma_not_mem_cons hcomma hgap
  have hfirst : ∃ f fs, fields ',' s = f :: fs ∧ squeeze (trim (c :: (gap ++ f))) = c :: squeeze (trim f) := by
    have hnil : squeeze (trim (c :: (gap ++ []))) = c :: squeeze (trim []) := by
      rw [List.append_nil, trim_cons_blank hc hgap]
      simp [trim, trimStart, trimEnd]
    cases s with
    | nil => exact ⟨[], [], rfl, hnil⟩
    | cons d s =>
      by_cases hd : d = ','
      · rw [hd, fields_cons_self]
        exact ⟨[], _, rfl, hnil⟩
      · obtain rfl := hs.resolve_right fun h => hd (h d rfl)
        obtain ⟨f, fs, hf⟩ := List.exists_cons_of_ne_nil (fields_ne_nil ',' s)
        refine ⟨d :: f, fs, by rw [fields_cons_of_ne hd, hf, List.modifyHead_cons], ?_⟩
        have htrim := trim_cons_append hc (hhead d rfl) [] f
        rw [List.nil_append, List.nil_append] at htrim
        rw [List.nil_append, htrim, squeeze_cons_of_not_blank hc]
  obtain ⟨f, fs, hf, hfield⟩ := hfirst
  rw [← List.cons_append, Style.params, fields_append_left hfree, hf, Style.params, hf, List.modifyHead_cons,
    List.map_cons, List.cons_append, hfield, intercalate_cons_cons_left, List.map_cons]

theorem exists_pretty_params_cons (hc : ¬ isBlank c) (hcomma : c ≠ ',') (hgap : ∀ b ∈ gap, isBlank b) (hne : gap ≠ [])
    (hd : ¬ isBlank d) (hd' : d ≠ ',') (s : List Char) :
    ∃ b, isBlank b ∧
      Style.pretty.params (c :: (gap ++ d :: s)) = c :: b :: Style.pretty.params (d :: s) := by
  have hfree := comma_not_mem_cons hcomma hgap
  obtain ⟨f, fs, hf⟩ := List.exists_cons_of_ne_nil (fields_ne_nil ',' s)
  have hds : fields ',' (d :: s) = (d :: f) :: fs := by rw [fields_cons_of_ne hd', hf, List.modifyHead_cons]
  obtain ⟨b, hb, hsqueeze⟩ := squeeze_blanks hgap hne hd (trimEnd f)
  refine ⟨b, hb, ?_⟩
  rw [← List.cons_append, Style.params, fields_append_left hfree, hds, List.modifyHead_cons, Style.params, hds,
    List.map_cons, List.map_cons, List.cons_append, trim_cons_append hc hd, trim_cons hd, squeeze_cons_of_not_blank hc,
    hsqueeze, intercalate_cons_cons_left, intercalate_cons_cons_left]

theorem pretty_params_nil : Style.pretty.params [] = [] := by
  simp [Style.params, fields, trim, trimStart, trimEnd]

theorem exists_pretty_params_append (hu : ∀ c ∈ u, ¬ isBlank c ∧ c ≠ ',') (hne : u ≠ [])
    (hgap : ∀ b ∈ gap, isBlank b) (hgne : gap ≠ []) (hd : ¬ isBlank d) (hd' : d ≠ ',') (s : List Char) :
    ∃ b t, isBlank b ∧ Style.pretty.params (u ++ (gap ++ d :: s)) = u ++ b :: t := by
  induction u with
  | nil => exact absurd rfl hne
  | cons c u ih =>
    rw [List.forall_mem_cons] at hu
    obtain ⟨⟨hc, hcomma⟩, hu⟩ := hu
    cases u with
    | nil =>
      obtain ⟨b, hb, hparams⟩ := exists_pretty_params_cons hc hcomma hgap hgne hd hd' s
      exact ⟨b, _, hb, hparams⟩
    | cons e u =>
      obtain ⟨b, t, hb, hrest⟩ := ih hu (by simp)
      have hcons := pretty_params_cons (s := e :: u ++ (gap ++ d :: s)) hc hcomma (List.forall_mem_nil _)
        (by simpa using (hu e List.mem_cons_self).1) (.inl rfl)
      rw [List.nil_append] at hcons
      refine ⟨b, t, hb, ?_⟩
      rw [List.cons_append, hcons, hrest]
      rfl

theorem pretty_params_cons_cases (hc : ¬ isBlank c) (hcomma : c ≠ ',') (s : List Char) :
    (∃ gap t, s = gap ++ t ∧ (∀ d ∈ t.head?, ¬ isBlank d) ∧ (gap = [] ∨ ∀ d ∈ t.head?, d = ',') ∧
        Style.pretty.params (c :: s) = c :: Style.pretty.params t) ∨
      ∃ gap d t b, s = gap ++ d :: t ∧ (∀ b ∈ gap, isBlank b) ∧ gap ≠ [] ∧ ¬ isBlank d ∧ d ≠ ',' ∧ isBlank b ∧
        Style.pretty.params (c :: s) = c :: b :: Style.pretty.params (d :: t) := by
  obtain ⟨gap, t, rfl, hgap, ht⟩ := exists_blanks s
  by_cases hgoes : gap = [] ∨ ∀ d ∈ t.head?, d = ','
  · exact .inl ⟨gap, t, rfl, ht, hgoes, pretty_params_cons hc hcomma hgap ht hgoes⟩
  · rw [not_or] at hgoes
    obtain ⟨hne, hstay⟩ := hgoes
    cases t with
    | nil => simp at hstay
    | cons d t =>
      have hd : ¬ isBlank d := ht d rfl
      have hd' : d ≠ ',' := by simpa using hstay
      obtain ⟨b, hb, hparams⟩ := exists_pretty_params_cons hc hcomma hgap hne hd hd' t
      exact .inr ⟨gap, d, t, b, rfl, hgap, hne, hd, hd', hb, hparams⟩

theorem not_pretty_params_eq_blank {b : Char} (hb : isBlank b) : Style.pretty.params s ≠ b :: t := by
  intro h
  have htrim := (trimmed_params .pretty s).1
  rw [h] at htrim
  exact htrim b rfl hb

theorem exists_eq_append_of_pretty_params_eq (h : Style.pretty.params s = c :: t) :
    ∃ before s', s = before ++ c :: s' ∧ (∀ b ∈ before, isBlank b) ∧
      Style.pretty.params (c :: s') = c :: t := by
  obtain ⟨before, s, rfl, hbefore, hs⟩ := exists_blanks s
  rw [append_params hbefore] at h
  cases s with
  | nil => simp [pretty_params_nil] at h
  | cons e s =>
    have hhead := head_params .pretty (e :: s)
    rw [h, dropBlanks_cons_of_not_blank (hs e rfl)] at hhead
    obtain rfl : c = e := by simpa using hhead
    exact ⟨before, s, rfl, hbefore, h⟩

theorem exists_eq_of_pretty_params_eq (hu : ∀ c ∈ u, ¬ isBlank c ∧ c ≠ ',') (hne : u ≠ []) {b : Char} (hb : isBlank b)
    (h : Style.pretty.params s = u ++ b :: t) :
    ∃ before gap d rest, s = before ++ (u ++ (gap ++ d :: rest)) ∧ (∀ b ∈ before, isBlank b) ∧
      (∀ b ∈ gap, isBlank b) ∧ gap ≠ [] ∧ ¬ isBlank d ∧ d ≠ ',' := by
  induction u generalizing s with
  | nil => exact absurd rfl hne
  | cons c u ih =>
    rw [List.forall_mem_cons] at hu
    obtain ⟨⟨hc, hcomma⟩, hu⟩ := hu
    rw [List.cons_append] at h
    obtain ⟨before, s, rfl, hbefore, h⟩ := exists_eq_append_of_pretty_params_eq h
    rcases pretty_params_cons_cases hc hcomma s with ⟨gap, s, rfl, hs, hgoes, hparams⟩ |
        ⟨gap, d, s, e, rfl, hgap, hgne, hd, hd', he, hparams⟩ <;>
      rw [hparams, List.cons.injEq] at h
    · cases u with
      | nil => exact absurd h.2 (not_pretty_params_eq_blank hb)
      | cons f u =>
        obtain ⟨before', gap', d, rest, rfl, hbefore', hrest⟩ := ih hu (by simp) h.2
        have hf := hu f List.mem_cons_self
        -- The word goes on where the first character has left off.
        cases before' with
        | cons g before' => exact absurd (hbefore' g List.mem_cons_self) (hs g rfl)
        | nil =>
          obtain rfl := hgoes.resolve_right fun h => hf.2 (h f rfl)
          exact ⟨before, gap', d, rest, by simp, hbefore, hrest⟩
    · cases u with
      | nil => exact ⟨before, gap, d, s, by simp, hbefore, hgap, hgne, hd, hd'⟩
      | cons f u =>
        have hf : e = f := (List.cons.inj h.2).1
        exact absurd he (hf ▸ (hu f List.mem_cons_self).1)

end LabelPress.Markup
