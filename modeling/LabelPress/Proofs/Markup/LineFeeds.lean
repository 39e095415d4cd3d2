import LabelPress.Proofs.Markup.Relaid
import LabelPress.Proofs.Text.Occurrences

/-!
# Line feeds at the ends of lines

Before a text is laid out its line ends become line feeds. That makes and takes no command of field data, and in the
payloads it changes line ends and nothing more (`dataOf_lineFeeds`).
-/

namespace LabelPress.Markup

open Text

variable {p : Span} {c : Char} {s t u v rest needle : List Char}

/-! ## Character by character -/

theorem lineFeeds_nil : lineFeeds [] = [] := replaceAll_nil _ _

theorem lineFeeds_lineEnd (s : List Char) : lineFeeds ('\r' :: '\n' :: s) = '\n' :: lineFeeds s :=
  replaceAll_append_self (by decide) ['\n'] s

theorem lineFeeds_cons (h : ¬ lineEnd <+: c :: s) : lineFeeds (c :: s) = c :: lineFeeds s :=
  replaceAll_cons h ['\n']

theorem lineFeeds_cons_of_ne (hc : c ≠ '\r') (s : List Char) : lineFeeds (c :: s) = c :: lineFeeds s :=
  lineFeeds_cons (not_prefix_cons hc)

theorem lineFeeds_append_of_not_mem (hu : '\r' ∉ u) (s : List Char) : lineFeeds (u ++ s) = u ++ lineFeeds s := by
  induction u with
  | nil => rfl
  | cons c u ih =>
    rw [List.mem_cons, not_or] at hu
    rw [List.cons_append, lineFeeds_cons_of_ne (Ne.symm hu.1), ih hu.2, List.cons_append]

/-- A text is empty, begins with a line end, or begins with a character that stays. -/
theorem lineFeeds_cases (s : List Char) :
    s = [] ∨ (∃ t, s = '\r' :: '\n' :: t) ∨ ∃ c t, s = c :: t ∧ ¬ lineEnd <+: c :: t := by
  cases s with
  | nil => exact .inl rfl
  | cons c s =>
    by_cases h : lineEnd <+: c :: s
    · obtain ⟨t, ht⟩ := h
      exact .inr (.inl ⟨t, ht.symm⟩)
    · exact .inr (.inr ⟨c, s, rfl, h⟩)

@[elab_as_elim]
theorem lineFeeds_induction {motive : List Char → Prop} (nil : motive [])
    (pair : ∀ s, motive ('\n' :: s) → motive ('\r' :: '\n' :: s))
    (cons : ∀ c s, ¬ lineEnd <+: c :: s → motive s → motive (c :: s)) (s : List Char) : motive s := by
  induction hlen : s.length using Nat.strong_induction_on generalizing s with
  | _ n ih =>
    obtain rfl | ⟨t, rfl⟩ | ⟨c, t, rfl, hc⟩ := lineFeeds_cases s
    · exact nil
    · exact pair t (ih _ (by simp [← hlen]) _ rfl)
    · exact cons c t hc (ih _ (by simp [← hlen]) _ rfl)

theorem lineFeeds_return (s : List Char) : lineFeeds ('\r' :: '\n' :: s) = lineFeeds ('\n' :: s) := by
  rw [lineFeeds_lineEnd, lineFeeds_cons_of_ne (by decide)]

theorem mem_lineFeeds (h : c ∈ lineFeeds s) : c ∈ s := by
  induction s using lineFeeds_induction with
  | nil => rwa [lineFeeds_nil] at h
  | pair s ih =>
    rw [lineFeeds_return] at h
    exact List.mem_cons_of_mem _ (ih h)
  | cons d s hd ih =>
    rw [lineFeeds_cons hd, List.mem_cons] at h
    exact List.mem_cons.mpr (h.imp_right ih)

theorem lineFeeds_append (hv : ∀ d ∈ v.head?, d ≠ '\n') (u : List Char) :
    lineFeeds (u ++ v) = lineFeeds u ++ lineFeeds v := by
  induction u using lineFeeds_induction with
  | nil => rw [lineFeeds_nil, List.nil_append, List.nil_append]
  | pair u ih => rw [List.cons_append, List.cons_append, lineFeeds_return, lineFeeds_return, ← ih, List.cons_append]
  | cons c u hc ih =>
    have hc' : ¬ lineEnd <+: c :: (u ++ v) := by
      rintro ⟨t, ht⟩
      cases u with
      | nil =>
        have hv' : v = '\n' :: t := (List.cons.inj ht).2.symm
        exact hv '\n' (by rw [hv']; rfl) rfl
      | cons d u =>
        simp only [lineEnd, List.cons_append, List.nil_append, List.cons.injEq] at ht
        exact hc ⟨u, by simp [lineEnd, ← ht.1, ← ht.2.1]⟩
    rw [List.cons_append, lineFeeds_cons hc', lineFeeds_cons hc, ih, List.cons_append]

theorem prefix_lineFeeds_iff (hu : ∀ c ∈ u, c ∉ lineEnd) : u <+: lineFeeds s ↔ u <+: s := by
  induction u generalizing s with
  | nil => simp
  | cons d u ih =>
    rw [List.forall_mem_cons] at hu
    obtain rfl | ⟨t, rfl⟩ | ⟨c, t, rfl, hc⟩ := lineFeeds_cases s
    · rw [lineFeeds_nil]
    · have hr : d ≠ '\r' := fun h => hu.1 (by simp [h, lineEnd])
      have hn : d ≠ '\n' := fun h => hu.1 (by simp [h, lineEnd])
      simp [lineFeeds_lineEnd, List.cons_prefix_cons, hr, hn]
    · rw [lineFeeds_cons hc, List.cons_prefix_cons, List.cons_prefix_cons, ih hu.2]

theorem cut?_lineFeeds (hneedle : ∀ c ∈ needle, c ∉ lineEnd) (hne : needle ≠ []) (s : List Char) :
    cut? needle (lineFeeds s) = (cut? needle s).map fun o => (lineFeeds o.1, lineFeeds o.2) := by
  induction s using lineFeeds_induction with
  | nil =>
    have hcut : cut? needle [] = none := by simpa [cut?_eq_none_iff] using hne
    rw [lineFeeds_nil, hcut, Option.map_none]
  | pair s ih =>
    have hnot : ∀ c ∈ lineEnd, ∀ t, ¬ needle <+: c :: t := by
      intro c hc t hpre
      obtain ⟨d, needle, rfl⟩ := List.exists_cons_of_ne_nil hne
      obtain rfl := (List.cons_prefix_cons.mp hpre).1
      exact hneedle d List.mem_cons_self hc
    have hfeed := cut?_cons_of_not_prefix (hnot '\n' (by decide) s)
    rw [lineFeeds_return, ih, cut?_cons_of_not_prefix (hnot '\r' (by decide) _), hfeed]
    cases cut? needle s with
    | none => rfl
    | some o => simp only [Option.map_some, lineFeeds_return]
  | cons c s hc ih =>
    have hfeeds := lineFeeds_cons hc
    by_cases hpre : needle <+: c :: s
    · obtain ⟨t, ht⟩ := hpre
      have hreturn : '\r' ∉ needle := fun h => hneedle _ h (by decide)
      rw [← ht, lineFeeds_append_of_not_mem hreturn, cut?_append_self, cut?_append_self]
      simp only [Option.map_some, lineFeeds_nil]
    · have hpre' : ¬ needle <+: c :: lineFeeds s := by rwa [← hfeeds, prefix_lineFeeds_iff hneedle]
      rw [hfeeds, cut?_cons_of_not_prefix hpre', cut?_cons_of_not_prefix hpre, ih]
      cases hcut : cut? needle s with
      | none => rfl
      | some o =>
        have hbefore : ¬ lineEnd <+: c :: o.1 := by
          intro h
          refine hc (h.trans ?_)
          rw [eq_append_of_cut? hcut, List.append_assoc]
          exact List.prefix_append (c :: o.1) _
        simp only [Option.map_some, lineFeeds_cons hbefore]

/-! ## Field data -/

theorem Span.Opens.leader_ne (hp : p.Opens {} rest) (hc : ¬ ({} : Leaders).isLeader c) : p.leader ≠ c := by
  rintro rfl
  exact hc hp.leader

theorem body_lineFeeds (s : List Char) :
    (body {} fieldData (lineFeeds s)).params = lineFeeds (body {} fieldData s).params ∧
      (body {} fieldData (lineFeeds s)).rest = lineFeeds (body {} fieldData s).rest := by
  have hterm : ∀ c ∈ ({} : Leaders).terminator, c ∉ lineEnd := by
    simp [Leaders.terminator, fieldSeparator, lineEnd]
  have hcut := cut?_lineFeeds hterm (by simp [Leaders.terminator]) s
  rw [body, body, if_pos rfl, if_pos rfl, hcut]
  cases cut? ({} : Leaders).terminator s with
  | none => exact ⟨rfl, lineFeeds_nil.symm⟩
  | some o => exact ⟨rfl, rfl⟩

theorem head_lineFeeds (h : ∀ d ∈ s.head?, ¬ isAlphanumeric d) : ∀ d ∈ (lineFeeds s).head?, ¬ isAlphanumeric d := by
  obtain rfl | ⟨t, rfl⟩ | ⟨c, t, rfl, hc⟩ := lineFeeds_cases s
  · rwa [lineFeeds_nil]
  · rw [lineFeeds_lineEnd]
    simpa using (by decide : ¬ isAlphanumeric '\n')
  · rw [lineFeeds_cons hc]
    simpa using h

theorem dataOf_lineFeeds (x : List Char) : dataOf (lineFeeds x) = (dataOf x).map lineFeeds := by
  induction x using text_induction (l := {}) with
  | nil => rw [lineFeeds_nil, dataOf_nil, List.map_nil]
  | skip c s hskip ih =>
    rw [dataOf_skip hskip, ← ih]
    by_cases hc : lineEnd <+: c :: s
    · obtain ⟨t, ht⟩ := hc
      obtain ⟨rfl, rfl⟩ := List.cons.inj ht
      exact congrArg dataOf (lineFeeds_return t)
    · rw [lineFeeds_cons hc]
      refine dataOf_skip fun hleader => ?_
      rw [mnemonic?_eq_none_iff]
      exact head_lineFeeds (mnemonic?_eq_none_iff.mp (hskip hleader))
  | span p rest hp ih =>
    have hleader : p.leader ≠ '\r' := hp.leader_ne (by decide)
    by_cases hname : p.name = fieldData
    · have htext : p.text ++ rest = p.leader :: (fieldData ++ (p.raw ++ p.closing ++ rest)) := by
        simp [Span.text, hname]
      have hbody := hp.ends.body_eq
      rw [hname] at hbody
      obtain ⟨hparams, hrest⟩ := body_lineFeeds (p.raw ++ p.closing ++ rest)
      rw [dataOf_span hp, if_pos hname, List.map_cons, ← ih, htext, lineFeeds_cons_of_ne hleader,
        lineFeeds_append_of_not_mem (by decide), dataOf_fieldData hp.leader, hparams, hrest, hbody]
    · obtain ⟨hclosing, hfree, hhead⟩ := hp.ends_at hname
      have htext : p.text ++ rest = p.leader :: (p.name ++ p.raw ++ rest) := by
        simp [Span.text, hclosing]
      have hfeed : ∀ d ∈ rest.head?, d ≠ '\n' := by
        rintro d hd rfl
        exact absurd (hhead _ hd) (by decide)
      have hnot : ¬ fieldData <+: lineFeeds (p.name ++ p.raw ++ rest) := by
        rw [prefix_lineFeeds_iff (by simp [fieldData, lineEnd])]
        have hlong := hp.name
        rw [hclosing, List.append_nil] at hlong
        exact fun h => hname (hlong.eq_fieldData_iff.mpr h)
      rw [dataOf_span hp, if_neg hname, ← ih, htext, lineFeeds_cons_of_ne hleader,
        dataOf_cons_of_not_prefix hp.leader hnot, lineFeeds_append hfeed,
        dataOf_of_not_leader fun d hd => hfree d (mem_lineFeeds hd)]

end LabelPress.Markup
