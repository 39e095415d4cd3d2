import LabelPress.Estimate
import LabelPress.Proofs.Text.Fields
import LabelPress.Proofs.Text.Occurrences

/-!
# Lines of field data

A part that belongs to no line break keeps the breaks before and behind it apart (`lineCount_append`). The count sees
the line breaks that one pass from left to right sees, but for an escape right behind a carriage return, with which it
is one line break and not two (`lineCount_eq_iff`).
-/

namespace LabelPress.Estimate

open Text

variable {c : Char} {s u v : List Char}

/-- The characters of which line breaks are made. -/
def breakCharacters : List Char := ['\\', '&', '\r', '\n']

theorem lineCount_append {m : List Char} (hm : ∀ c ∈ m, c ∉ breakCharacters) (hne : m ≠ [])
    (u v : List Char) :
    lineCount (u ++ m ++ v) + 1 = lineCount u + lineCount v := by
  have hpart : ∀ needle, needle ⊆ breakCharacters → ∀ c ∈ m, c ∉ needle :=
    fun needle hsub c hc h => hm c hc (hsub h)
  have hescape := hpart ['\\', '&'] (by decide)
  have hpair := hpart ['\r', '\n'] (by decide)
  have hreturn := hpart ['\r'] (by decide)
  have hcount : m.count '\n' = 0 := List.count_eq_zero.mpr fun h => hm _ h (by decide)
  simp only [lineCount, replaceAll_append (by simp) hescape hne, replaceAll_append (by simp) hpair hne,
    replaceAll_append (by simp) hreturn hne, length_fields, List.count_append, hcount]
  omega

/-! ## Line breaks in one pass -/

/-- The line breaks of a payload: the escape, a carriage return with its line feed, and either of the two by itself. -/
def lineBreaks : List Char → Nat
  | [] => 0
  | '\\' :: '&' :: s => lineBreaks s + 1
  | '\r' :: '\n' :: s => lineBreaks s + 1
  | '\r' :: s => lineBreaks s + 1
  | '\n' :: s => lineBreaks s + 1
  | _ :: s => lineBreaks s

/-- A carriage return with an escape right behind it. -/
def fused : List Char := ['\r', '\\', '&']

theorem length_fused_cons (hc : c ≠ '\r') (s : List Char) :
    (occurrences fused (c :: s)).length = (occurrences fused s).length :=
  length_occurrences_cons (not_prefix_cons hc)

theorem length_fused_escape (s : List Char) :
    (occurrences fused ('\\' :: '&' :: s)).length = (occurrences fused s).length := by
  rw [length_fused_cons (by decide), length_fused_cons (by decide)]

theorem length_fused_return (s : List Char) :
    (occurrences fused ('\r' :: '\\' :: '&' :: s)).length = (occurrences fused s).length + 1 :=
  length_occurrences_append_self (by decide) s

/-! ## Line ends -/

/-- The line ends of a text, where a carriage return and its line feed are one. -/
def lineEnds (s : List Char) : Nat :=
  (replaceAll ['\r', '\n'] ['\n'] s).count '\n' + (replaceAll ['\r', '\n'] ['\n'] s).count '\r'

theorem lineEnds_nil : lineEnds [] = 0 := by
  unfold lineEnds
  rw [replaceAll_nil, List.count_nil, List.count_nil]

theorem lineEnds_pair (s : List Char) : lineEnds ('\r' :: '\n' :: s) = lineEnds s + 1 := by
  have hpair : replaceAll ['\r', '\n'] ['\n'] ('\r' :: '\n' :: s) = '\n' :: replaceAll ['\r', '\n'] ['\n'] s :=
    replaceAll_append_self (by decide) ['\n'] s
  unfold lineEnds
  rw [hpair, List.count_cons_self, List.count_cons_of_ne (by decide)]
  omega

theorem lineEnds_feed (s : List Char) : lineEnds ('\n' :: s) = lineEnds s + 1 := by
  unfold lineEnds
  rw [replaceAll_cons (not_prefix_cons (by decide)), List.count_cons_self, List.count_cons_of_ne (by decide)]
  omega

theorem lineEnds_return (h : s.head? ≠ some '\n') : lineEnds ('\r' :: s) = lineEnds s + 1 := by
  have hnot : ¬ ['\r', '\n'] <+: '\r' :: s := by
    rintro ⟨t, ht⟩
    exact h (by rw [← (List.cons.inj ht).2]; rfl)
  unfold lineEnds
  rw [replaceAll_cons hnot, List.count_cons_of_ne (by decide), List.count_cons_self]
  omega

theorem lineEnds_cons (hr : c ≠ '\r') (hn : c ≠ '\n') (s : List Char) : lineEnds (c :: s) = lineEnds s := by
  unfold lineEnds
  rw [replaceAll_cons (not_prefix_cons hr), List.count_cons_of_ne hn, List.count_cons_of_ne hr]

theorem count_replaceAll_return (s : List Char) :
    (replaceAll ['\r'] ['\n'] s).count '\n' = s.count '\n' + s.count '\r' := by
  induction s with
  | nil => rw [replaceAll_nil, List.count_nil, List.count_nil]
  | cons c s ih =>
    by_cases hc : c = '\r'
    · have hself : replaceAll ['\r'] ['\n'] ('\r' :: s) = '\n' :: replaceAll ['\r'] ['\n'] s :=
        replaceAll_append_self (by decide) ['\n'] s
      rw [hc, hself, List.count_cons_self, ih, List.count_cons_of_ne (by decide), List.count_cons_self]
      omega
    · rw [replaceAll_cons (not_prefix_cons hc), List.count_cons, List.count_cons, ih, List.count_cons_of_ne hc]
      omega

/-! ## Escapes -/

/-- The text with a line feed for each escape. -/
def unescaped (s : List Char) : List Char := replaceAll ['\\', '&'] ['\n'] s

theorem unescaped_escape (s : List Char) : unescaped ('\\' :: '&' :: s) = '\n' :: unescaped s :=
  replaceAll_append_self (by decide) ['\n'] s

theorem unescaped_cons (h : ¬ ['\\', '&'] <+: c :: s) : unescaped (c :: s) = c :: unescaped s :=
  replaceAll_cons h ['\n']

theorem head_unescaped (h : ¬ ['\\', '&'] <+: s) : (unescaped s).head? = s.head? := by
  cases s with
  | nil => rw [unescaped, replaceAll_nil]
  | cons c s =>
    rw [unescaped_cons h]
    rfl

theorem lineCount_eq_lineEnds (s : List Char) : lineCount s = lineEnds (unescaped s) + 1 := by
  unfold lineCount lineEnds unescaped
  rw [length_fields, count_replaceAll_return]

/-! ## The count and the line breaks -/

theorem lineEnds_unescaped (s : List Char) :
    lineEnds (unescaped s) + (occurrences fused s).length = lineBreaks s := by
  -- One case for each equation of `lineBreaks`, so for each kind of line break.
  fun_induction lineBreaks s with
  | case1 =>
    rw [unescaped, replaceAll_nil, lineEnds_nil, (occurrences_eq_nil_iff (by decide)).mpr (by decide)]
    rfl
  | case2 s ih =>
    rw [unescaped_escape, lineEnds_feed, length_fused_escape]
    omega
  | case3 s ih =>
    have hnot : ¬ fused <+: '\r' :: '\n' :: s := by simp [fused]
    rw [unescaped_cons (by simp), unescaped_cons (by simp), lineEnds_pair, length_occurrences_cons hnot,
      length_fused_cons (by decide)]
    omega
  | case4 s hfeed ih =>
    rw [unescaped_cons (by simp)]
    by_cases hescape : ['\\', '&'] <+: s
    · -- The line feed that the escape has become goes with the carriage return.
      obtain ⟨t, rfl⟩ := hescape
      simp only [List.cons_append, List.nil_append] at ih ⊢
      rw [unescaped_escape, lineEnds_feed, length_fused_escape] at ih
      rw [unescaped_escape, lineEnds_pair, length_fused_return]
      omega
    · have hhead : (unescaped s).head? ≠ some '\n' := by
        rw [head_unescaped hescape]
        intro h
        obtain ⟨t, ht⟩ := List.head?_eq_some_iff.mp h
        exact hfeed t ht
      have hnot : ¬ fused <+: '\r' :: s := fun h => hescape (List.cons_prefix_cons.mp h).2
      rw [lineEnds_return hhead, length_occurrences_cons hnot]
      omega
  | case5 s ih =>
    rw [unescaped_cons (by simp), lineEnds_feed, length_fused_cons (by decide)]
    omega
  | case6 c s hescape _ hreturn hfeed ih =>
    have hnot : ¬ ['\\', '&'] <+: c :: s := by
      rintro ⟨t, ht⟩
      obtain ⟨hc, hs⟩ := List.cons.inj ht
      exact hescape t hc.symm hs.symm
    rw [unescaped_cons hnot, lineEnds_cons hreturn hfeed, length_fused_cons hreturn, ih]

/-- The count misses one line break for each carriage return with an escape right behind it, and no other. -/
theorem lineCount_eq_iff (s : List Char) :
    lineCount s + (occurrences fused s).length = lineBreaks s + 1 ∧
      (lineCount s = lineBreaks s + 1 ↔ ¬ fused <:+: s) := by
  have hcount : lineCount s + (occurrences fused s).length = lineBreaks s + 1 := by
    rw [lineCount_eq_lineEnds, ← lineEnds_unescaped s]
    omega
  refine ⟨hcount, ?_⟩
  rw [← occurrences_eq_nil_iff (by decide), ← List.length_eq_zero_iff]
  omega

/-- A carriage return and an escape are two line breaks, and the count has two lines. -/
theorem not_lineCount_eq : ¬ ∀ s, lineCount s = lineBreaks s + 1 := by
  intro h
  have hcount : lineCount ['a', '\r', '\\', '&', 'b'] = 2 := by decide +kernel
  have hbreaks : lineBreaks ['a', '\r', '\\', '&', 'b'] = 2 := by decide +kernel
  have := h ['a', '\r', '\\', '&', 'b']
  omega

/-! ## A part put in -/

/-- What is read as one line break. -/
def oneBreak : List (List Char) := [['\\', '&'], ['\r', '\n'], fused]

theorem lineBreaks_append (hescape : ¬ Joins ['\\', '&'] u v) (hpair : ¬ Joins ['\r', '\n'] u v) :
    lineBreaks (u ++ v) = lineBreaks u + lineBreaks v := by
  -- The parts of a break stay behind the parts of another.
  have hmono : ∀ {needle w s : List Char}, ¬ Joins needle (w ++ s) v → ¬ Joins needle s v :=
    fun h hj => h (hj.mono (List.suffix_append _ _) (List.prefix_refl v))
  fun_induction lineBreaks u with
  | case1 => simp
  | case2 s ih =>
    have := ih (hmono (w := ['\\', '&']) hescape) (hmono (w := ['\\', '&']) hpair)
    simp only [List.cons_append, lineBreaks]
    omega
  | case3 s ih =>
    have := ih (hmono (w := ['\r', '\n']) hescape) (hmono (w := ['\r', '\n']) hpair)
    simp only [List.cons_append, lineBreaks]
    omega
  | case4 s hfeed ih =>
    have hrest := ih (hmono (w := ['\r']) hescape) (hmono (w := ['\r']) hpair)
    have hfeed' : ∀ t, s ++ v ≠ '\n' :: t := by
      intro t ht
      cases s with
      | nil => exact hpair ⟨1, by simp, by simp, by simp, ⟨t, by simpa using ht.symm⟩⟩
      | cons d s => exact hfeed s (by simp only [List.cons_append, List.cons.injEq] at ht; rw [ht.1])
    rw [List.cons_append, lineBreaks]
    · omega
    · exact hfeed'
  | case5 s ih =>
    have := ih (hmono (w := ['\n']) hescape) (hmono (w := ['\n']) hpair)
    simp only [List.cons_append, lineBreaks]
    omega
  | case6 c s hslash _ hreturn hfeed ih =>
    have hrest := ih (hmono (w := [c]) hescape) (hmono (w := [c]) hpair)
    have hslash' : ∀ t, c = '\\' → s ++ v ≠ '&' :: t := by
      intro t hc ht
      cases s with
      | nil => exact hescape ⟨1, by simp, by simp, by simp [hc], ⟨t, by simpa using ht.symm⟩⟩
      | cons d s => exact hslash s hc (by simp only [List.cons_append, List.cons.injEq] at ht; rw [ht.1])
    rw [List.cons_append, lineBreaks]
    · omega
    · exact hslash'
    · intro t hc
      exact absurd hc hreturn
    · exact hreturn
    · exact hfeed

theorem lineCount_insert {m : List Char} (hm : ∀ c ∈ m, c ∉ breakCharacters) (hne : m ≠ [])
    (hj : ∀ b ∈ oneBreak, ¬ Joins b u v) : lineCount (u ++ m ++ v) = lineCount (u ++ v) := by
  simp only [oneBreak, List.forall_mem_cons] at hj
  obtain ⟨hescape, hpair, hfused, -⟩ := hj
  have hparts := lineCount_append hm hne u v
  have hu := (lineCount_eq_iff u).1
  have hv := (lineCount_eq_iff v).1
  have hwhole := (lineCount_eq_iff (u ++ v)).1
  rw [lineBreaks_append hescape hpair, length_occurrences_append (by decide) hfused] at hwhole
  omega

end LabelPress.Estimate
