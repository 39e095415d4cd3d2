import LabelPress.Text.Alphanumeric
import LabelPress.Text.Blank
import Mathlib.Data.List.DropRight

/-!
# What trimming leaves

A text is blanks, what trimming leaves, and blanks again (`exists_eq_trim`). What trimming leaves has
no blank at its ends, and no other part of the text is such (`trim_eq_of_eq_append`).
-/

namespace LabelPress.Text

/-! ## Blanks and letters -/

/-- The code points of the blanks. -/
def blankCodes : List Nat :=
  [0x9, 0xA, 0xB, 0xC, 0xD, 0x20, 0x85, 0xA0, 0x1680, 0x2000, 0x2001, 0x2002, 0x2003, 0x2004, 0x2005, 0x2006,
   0x2007, 0x2008, 0x2009, 0x200A, 0x2028, 0x2029, 0x202F, 0x205F, 0x3000]

theorem toNat_mem_blankCodes {c : Char} (h : isBlank c) : c.toNat ∈ blankCodes := by
  simp only [isBlank, Bool.or_eq_true, Bool.and_eq_true, decide_eq_true_eq, beq_iff_eq] at h
  simp only [blankCodes, List.mem_cons, List.not_mem_nil, or_false]
  omega

theorem isAlphanumeric_of_isBlank {c : Char} (h : isBlank c) : isAlphanumeric c = false := by
  have hall : ∀ n ∈ blankCodes, isAlphanumeric (Char.ofNat n) = false := by decide +kernel
  have := hall c.toNat (toNat_mem_blankCodes h)
  rwa [Char.ofNat_toNat] at this

theorem not_isBlank_of_isAlphanumeric {c : Char} (h : isAlphanumeric c) : ¬ isBlank c := by
  intro hb
  rw [isAlphanumeric_of_isBlank hb] at h
  simp at h

theorem not_isBlank_of_isUpper {c : Char} (h : c.isUpper) : ¬ isBlank c :=
  not_isBlank_of_isAlphanumeric (isAlphanumeric_of_isUpper h)

theorem ne_comma_of_isUpper {c : Char} (h : c.isUpper) : c ≠ ',' := by
  rintro rfl
  exact absurd h (by decide)

theorem isBlank_of_mem_lineFeed : ∀ c ∈ ['\n'], isBlank c := List.forall_mem_singleton.mpr (by decide)

/-! ## Blanks at the ends -/

/-- No blank stands at either end. -/
def Trimmed (s : List Char) : Prop :=
  (∀ c ∈ s.head?, ¬ isBlank c) ∧ ∀ c ∈ s.getLast?, ¬ isBlank c

theorem trimmed_nil : Trimmed [] := by simp [Trimmed]

theorem trimStart_append {u : List Char} (hu : ∀ c ∈ u, isBlank c) (s : List Char) :
    trimStart (u ++ s) = trimStart s :=
  List.dropWhile_append_of_pos hu

theorem trimStart_of_head {s : List Char} (h : ∀ c ∈ s.head?, ¬ isBlank c) : trimStart s = s := by
  cases s with
  | nil => rfl
  | cons c s => exact List.dropWhile_cons_of_neg (h c rfl)

theorem head_trimStart (s : List Char) : ∀ c ∈ (trimStart s).head?, ¬ isBlank c := by
  intro c hc
  have := List.head?_dropWhile_not isBlank s
  rw [trimStart, Option.mem_def] at hc
  simpa [hc] using this

theorem trimEnd_eq_rdropWhile (s : List Char) : trimEnd s = s.rdropWhile isBlank := by
  induction s with
  | nil => simp [trimEnd]
  | cons c s ih =>
    rw [trimEnd, ih]
    cases hs : s.rdropWhile isBlank with
    | nil =>
      -- All of `s` is blank, so `c` decides.
      have hb : ∀ d ∈ s.reverse, isBlank d := by simpa using List.rdropWhile_eq_nil_iff.mp hs
      rw [List.rdropWhile, List.reverse_cons, List.dropWhile_append_of_pos hb]
      by_cases hc : isBlank c <;> simp [hc]
    | cons d t =>
      have hne : s.reverse.dropWhile isBlank ≠ [] := by
        intro h
        simp [List.rdropWhile, h] at hs
      simp only [List.rdropWhile] at hs ⊢
      rw [List.reverse_cons, List.dropWhile_append]
      simp [hne, hs]

theorem exists_eq_trimEnd (s : List Char) : ∃ w, s = trimEnd s ++ w ∧ ∀ c ∈ w, isBlank c := by
  refine ⟨s.rtakeWhile isBlank, ?_, fun c hc => List.mem_rtakeWhile_imp hc⟩
  rw [trimEnd_eq_rdropWhile, List.rdropWhile_append_rtakeWhile]

theorem trimEnd_append {w : List Char} (hw : ∀ c ∈ w, isBlank c) (s : List Char) :
    trimEnd (s ++ w) = trimEnd s := by
  simp only [trimEnd_eq_rdropWhile, List.rdropWhile, List.reverse_append]
  rw [List.dropWhile_append_of_pos (by simpa using hw)]

theorem trimEnd_of_getLast {s : List Char} (h : ∀ c ∈ s.getLast?, ¬ isBlank c) : trimEnd s = s := by
  rw [trimEnd_eq_rdropWhile, List.rdropWhile_eq_self_iff]
  intro hs
  exact h _ (List.getLast?_eq_getLast_of_ne_nil hs)

theorem getLast_trimEnd (s : List Char) : ∀ c ∈ (trimEnd s).getLast?, ¬ isBlank c := by
  intro c hc
  rw [trimEnd_eq_rdropWhile] at hc
  have hne : s.rdropWhile isBlank ≠ [] := by
    intro h
    simp [h] at hc
  rw [List.getLast?_eq_getLast_of_ne_nil hne, Option.mem_def, Option.some.injEq] at hc
  exact hc ▸ List.rdropWhile_last_not _ _ hne

theorem trimmed_trim (s : List Char) : Trimmed (trim s) := by
  refine ⟨?_, getLast_trimEnd _⟩
  intro c hc
  obtain ⟨w, hw, -⟩ := exists_eq_trimEnd (trimStart s)
  apply head_trimStart s c
  rw [hw, List.head?_append]
  rw [trim, Option.mem_def] at hc
  simp [hc]

theorem exists_eq_trim (s : List Char) :
    ∃ u w, s = u ++ trim s ++ w ∧ (∀ c ∈ u, isBlank c) ∧ ∀ c ∈ w, isBlank c := by
  obtain ⟨w, hw, hblank⟩ := exists_eq_trimEnd (trimStart s)
  refine ⟨s.takeWhile isBlank, w, ?_, fun c hc => List.mem_takeWhile_imp hc, hblank⟩
  rw [List.append_assoc, trim, ← hw, trimStart, List.takeWhile_append_dropWhile]

theorem trim_eq_of_eq_append {s u m w : List Char} (h : s = u ++ m ++ w) (hu : ∀ c ∈ u, isBlank c)
    (hw : ∀ c ∈ w, isBlank c) (hm : Trimmed m) : trim s = m := by
  rw [h, trim, List.append_assoc, trimStart_append hu]
  cases m with
  | nil =>
    rw [List.nil_append, trimStart, List.dropWhile_eq_nil_iff.mpr hw, trimEnd]
  | cons c m =>
    rw [trimStart_of_head (s := c :: m ++ w) (fun d hd => hm.1 d (by simpa using hd)), trimEnd_append hw,
      trimEnd_of_getLast hm.2]

theorem trim_of_trimmed {s : List Char} (h : Trimmed s) : trim s = s :=
  trim_eq_of_eq_append (u := []) (w := []) (by simp) (by simp) (by simp) h

theorem trim_append {w : List Char} (hw : ∀ c ∈ w, isBlank c) (s : List Char) : trim (s ++ w) = trim s := by
  obtain ⟨u, v, hs, hu, hv⟩ := exists_eq_trim s
  refine trim_eq_of_eq_append (u := u) (w := v ++ w) ?_ hu ?_ (trimmed_trim s)
  · conv_lhs => rw [hs]
    simp
  · intro c hc
    rcases List.mem_append.mp hc with hc | hc
    · exact hv c hc
    · exact hw c hc

theorem append_trim {u : List Char} (hu : ∀ c ∈ u, isBlank c) (s : List Char) : trim (u ++ s) = trim s := by
  rw [trim, trimStart_append hu, trim]

/-! ## No blanks at all -/

@[simp] theorem dropBlanks_nil : dropBlanks [] = [] := rfl

@[simp] theorem dropBlanks_append (s t : List Char) : dropBlanks (s ++ t) = dropBlanks s ++ dropBlanks t :=
  List.filter_append s t

theorem dropBlanks_cons_of_blank {c : Char} (hc : isBlank c) (s : List Char) : dropBlanks (c :: s) = dropBlanks s :=
  List.filter_cons_of_neg (by simp [hc])

theorem dropBlanks_cons_of_not_blank {c : Char} (hc : ¬ isBlank c) (s : List Char) :
    dropBlanks (c :: s) = c :: dropBlanks s :=
  List.filter_cons_of_pos (by simp [hc])

theorem dropBlanks_of_blank {s : List Char} (h : ∀ c ∈ s, isBlank c) : dropBlanks s = [] := by
  simpa [dropBlanks] using h

theorem dropBlanks_of_not_blank {s : List Char} (h : ∀ c ∈ s, ¬ isBlank c) : dropBlanks s = s := by
  simpa [dropBlanks] using h

theorem dropBlanks_trim (s : List Char) : dropBlanks (trim s) = dropBlanks s := by
  obtain ⟨u, w, hs, hu, hw⟩ := exists_eq_trim s
  conv_rhs => rw [hs]
  simp [dropBlanks_of_blank hu, dropBlanks_of_blank hw]

theorem trimmed_of_not_blank {s : List Char} (h : ∀ c ∈ s, ¬ isBlank c) : Trimmed s :=
  ⟨fun c hc => h c (List.mem_of_mem_head? hc), fun c hc => h c (List.mem_of_mem_getLast? hc)⟩

theorem Trimmed.head?_eq {s : List Char} (h : Trimmed s) : s.head? = (dropBlanks s).head? := by
  cases s with
  | nil => rfl
  | cons c s => rw [dropBlanks_cons_of_not_blank (h.1 c rfl), List.head?_cons, List.head?_cons]

theorem trimEnd_cons {c : Char} (hc : ¬ isBlank c) (s : List Char) : trimEnd (c :: s) = c :: trimEnd s := by
  rw [trimEnd]
  cases trimEnd s with
  | nil => simp [hc]
  | cons d t => rfl

theorem trim_cons {c : Char} (hc : ¬ isBlank c) (s : List Char) : trim (c :: s) = c :: trimEnd s := by
  rw [trim, trimStart_of_head (by simpa using hc), trimEnd_cons hc]

end LabelPress.Text
