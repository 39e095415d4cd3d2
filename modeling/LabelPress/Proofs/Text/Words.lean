import LabelPress.Proofs.Text.Blank

/-!
# Words between blanks

Trimming leaves the words of a text as they are, and dropping the blanks joins them. A text without
blanks between its words has at most one (`words_dropBlanks`).
-/

namespace LabelPress.Text

/-- The longest parts without a blank. -/
def words : List Char → List (List Char)
  | [] => []
  | c :: s =>
    if isBlank c then words s
    else if s.head?.all isBlank then [c] :: words s
    else (words s).modifyHead (c :: ·)

/-- A blank stands between two characters that are none. -/
def Broken (s : List Char) : Prop :=
  ∃ u b v, s = u ++ b :: v ∧ isBlank b ∧ (∃ c ∈ u, ¬ isBlank c) ∧ ∃ c ∈ v, ¬ isBlank c

variable {c : Char} {s t u v w : List Char}

theorem words_nil : words [] = [] := rfl

theorem words_cons_blank (hc : isBlank c) (s : List Char) : words (c :: s) = words s := by
  rw [words, if_pos hc]

theorem words_cons_congr (hwords : words s = words t) (hhead : s.head?.map isBlank = t.head?.map isBlank) :
    words (c :: s) = words (c :: t) := by
  have hall : s.head?.all isBlank = t.head?.all isBlank := by
    have h : ∀ o : Option Char, o.all isBlank = (o.map isBlank).all id := by
      intro o
      cases o <;> rfl
    rw [h, h, hhead]
  rw [words, words, hwords, hall]

theorem words_of_blank (hu : ∀ c ∈ u, isBlank c) : words u = [] := by
  induction u with
  | nil => rfl
  | cons c u ih =>
    rw [List.forall_mem_cons] at hu
    rw [words_cons_blank hu.1, ih hu.2]

theorem words_ne_nil (hc : ¬ isBlank c) (s : List Char) : words (c :: s) ≠ [] := by
  induction s generalizing c with
  | nil => simp [words, hc]
  | cons d s ih =>
    rw [words, if_neg hc]
    split_ifs with hd
    · simp
    · simpa [List.modifyHead_eq_nil_iff] using ih (c := d) (by simpa using hd)

theorem words_append_cons (hc : isBlank c) (u v : List Char) : words (u ++ c :: v) = words u ++ words v := by
  induction u with
  | nil => rw [List.nil_append, words_cons_blank hc, words_nil, List.nil_append]
  | cons d u ih =>
    by_cases hd : isBlank d
    · rw [List.cons_append, words_cons_blank hd, words_cons_blank hd, ih]
    · rw [List.cons_append, words, words, if_neg hd, if_neg hd, ih]
      cases u with
      | nil => simp [hc, words_nil]
      | cons e u =>
        by_cases he : isBlank e
        · simp [he]
        · obtain ⟨f, fs, hfs⟩ := List.exists_cons_of_ne_nil (words_ne_nil he u)
          simp [he, hfs]

theorem append_words (hu : ∀ c ∈ u, isBlank c) (s : List Char) : words (u ++ s) = words s := by
  induction u with
  | nil => rfl
  | cons c u ih =>
    rw [List.forall_mem_cons] at hu
    rw [List.cons_append, words_cons_blank hu.1, ih hu.2]

theorem words_append (hw : ∀ c ∈ w, isBlank c) (s : List Char) : words (s ++ w) = words s := by
  cases w with
  | nil => rw [List.append_nil]
  | cons c w =>
    rw [List.forall_mem_cons] at hw
    rw [words_append_cons hw.1, words_of_blank hw.2, List.append_nil]

theorem words_trim (s : List Char) : words (trim s) = words s := by
  obtain ⟨u, w, hs, hu, hw⟩ := exists_eq_trim s
  conv_rhs => rw [hs]
  rw [List.append_assoc, append_words hu, words_append hw]

theorem words_of_not_blank (h : ∀ c ∈ s, ¬ isBlank c) (hs : s ≠ []) : words s = [s] := by
  induction s with
  | nil => exact absurd rfl hs
  | cons c s ih =>
    rw [List.forall_mem_cons] at h
    rw [words, if_neg h.1]
    cases s with
    | nil => rfl
    | cons d s =>
      have hd : ¬ isBlank d := h.2 d List.mem_cons_self
      rw [ih h.2 (by simp)]
      simp [hd]

theorem flatten_words (s : List Char) : (words s).flatten = dropBlanks s := by
  induction s with
  | nil => rfl
  | cons c s ih =>
    rw [words]
    split_ifs with hc hhead
    · rw [ih, dropBlanks_cons_of_blank hc]
    · rw [List.flatten_cons, ih, dropBlanks_cons_of_not_blank hc, List.singleton_append]
    · obtain ⟨d, s, rfl⟩ : ∃ d t, s = d :: t := List.exists_cons_of_ne_nil fun h => by simp [h] at hhead
      have hd : ¬ isBlank d := by simpa using hhead
      obtain ⟨f, fs, hfs⟩ := List.exists_cons_of_ne_nil (words_ne_nil hd s)
      rw [dropBlanks_cons_of_not_blank hc, ← ih, hfs, List.modifyHead_cons]
      rfl

/-! ## Blanks between words -/

theorem words_ne_nil_of_mem (hc : c ∈ s) (hb : ¬ isBlank c) : words s ≠ [] := by
  intro h
  have hmem : c ∈ dropBlanks s := List.mem_filter.mpr ⟨hc, by simp [hb]⟩
  rw [← flatten_words, h] at hmem
  simp at hmem

theorem one_lt_words_of_broken (h : Broken s) : 1 < (words s).length := by
  obtain ⟨u, b, v, rfl, hb, ⟨c, hc, hcb⟩, d, hd, hdb⟩ := h
  have hu := List.length_pos_iff.mpr (words_ne_nil_of_mem hc hcb)
  have hv := List.length_pos_iff.mpr (words_ne_nil_of_mem hd hdb)
  rw [words_append_cons hb, List.length_append]
  omega

theorem broken_of_mem_trim (hc : c ∈ trim s) (hb : isBlank c) : Broken (trim s) := by
  obtain ⟨u, v, huv⟩ := List.append_of_mem hc
  obtain ⟨hfirst, hlast⟩ := trimmed_trim s
  rw [huv] at hfirst hlast ⊢
  refine ⟨u, c, v, rfl, hb, ?_, ?_⟩
  · cases u with
    | nil => exact absurd hb (hfirst c rfl)
    | cons d u => exact ⟨d, List.mem_cons_self, hfirst d rfl⟩
  · rcases List.eq_nil_or_concat v with rfl | ⟨v, d, rfl⟩
    · exact absurd hb (hlast c (by simp))
    · refine ⟨d, by simp, hlast d ?_⟩
      rw [List.concat_eq_append, ← List.cons_append, ← List.append_assoc, List.getLast?_concat]
      rfl

theorem Broken.of_trim (h : Broken (trim s)) : Broken s := by
  obtain ⟨x, y, hs, -, -⟩ := exists_eq_trim s
  obtain ⟨u, b, v, huv, hb, ⟨c, hc, hcb⟩, d, hd, hdb⟩ := h
  rw [hs, huv]
  exact ⟨x ++ u, b, v ++ y, by simp, hb, ⟨c, by simp [hc], hcb⟩, d, by simp [hd], hdb⟩

theorem exists_mem_trim_iff : (∃ c ∈ trim s, isBlank c) ↔ 1 < (words s).length := by
  constructor
  · rintro ⟨c, hc, hb⟩
    rw [← words_trim]
    exact one_lt_words_of_broken (broken_of_mem_trim hc hb)
  · intro h
    by_contra hnone
    have hall : ∀ c ∈ trim s, ¬ isBlank c := fun c hc hb => hnone ⟨c, hc, hb⟩
    rw [← words_trim] at h
    by_cases hs : trim s = []
    · simp [hs, words_nil] at h
    · simp [words_of_not_blank hall hs] at h

theorem trim_eq_dropBlanks (h : ∀ c ∈ trim s, ¬ isBlank c) : trim s = dropBlanks s := by
  rw [← dropBlanks_trim, dropBlanks_of_not_blank h]

theorem words_dropBlanks (h : ¬ Broken s) : words (dropBlanks s) = words s := by
  rw [← trim_eq_dropBlanks fun c hc hb => h (broken_of_mem_trim hc hb).of_trim, words_trim]

end LabelPress.Text
