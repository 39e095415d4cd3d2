import LabelPress.Estimate
import LabelPress.Proofs.Text.Fields
import LabelPress.Proofs.Text.Words

/-!
# What the walk reads of parameters

Of each parameter the walk reads a number and whether it is short enough for an orientation. Both
depend on the words of the parameter only (`reading_congr`), and a parameter that begins with a letter
is no number (`reading_of_isUpper`).
-/

namespace LabelPress.Estimate

open Markup Number Text

/-- The number in a parameter, and whether the parameter has at most one character. -/
def reading (f : List Char) : Option Int × Bool := (int64? (trim f), decide ((trim f).length ≤ 1))

def readings (params : List Char) : List (Option Int × Bool) := (fields ',' params).map reading

variable {a : Assumptions} {c : Char} {f g s t : List Char}

/-! ## Numbers -/

theorem digitsFrom_eq_none (hc : c ∈ s) (hdigit : digit? c = none) (value : Nat) : digitsFrom value s = none := by
  induction s generalizing value with
  | nil => simp at hc
  | cons d s ih =>
    rw [digitsFrom]
    rcases List.mem_cons.mp hc with rfl | hc
    · rw [hdigit]
    · cases digit? d with
      | none => rfl
      | some n => exact ih hc _

theorem digits?_eq_none (hc : c ∈ s) (hdigit : digit? c = none) : digits? s = none := by
  cases s with
  | nil => rfl
  | cons d s => exact digitsFrom_eq_none hc hdigit 0

theorem int64?_eq_none (hc : c ∈ s) (hdigit : digit? c = none) (hminus : c ≠ '-') (hplus : c ≠ '+') :
    int64? s = none := by
  have hsigned : signed? s = none := by
    unfold signed?
    split
    · next s =>
      have hmem : c ∈ s := by simpa [hminus] using hc
      rw [digits?_eq_none hmem hdigit]
      rfl
    · next s =>
      have hmem : c ∈ s := by simpa [hplus] using hc
      rw [digits?_eq_none hmem hdigit]
      rfl
    · rw [digits?_eq_none hc hdigit]
      rfl
  rw [int64?, hsigned, Option.filter_none]

theorem not_isDigit_of_isBlank (hc : isBlank c) : c.isDigit = false := by
  have hall : ∀ n ∈ blankCodes, (Char.ofNat n).isDigit = false := by decide
  have := hall c.toNat (toNat_mem_blankCodes hc)
  rwa [Char.ofNat_toNat] at this

theorem int64?_of_isBlank (hc : c ∈ s) (hb : isBlank c) : int64? s = none := by
  refine int64?_eq_none hc (by rw [digit?, not_isDigit_of_isBlank hb]; rfl) ?_ ?_
  · rintro rfl
    exact absurd hb (by decide)
  · rintro rfl
    exact absurd hb (by decide)

theorem int64?_of_isUpper (hc : c ∈ s) (hup : c.isUpper) : int64? s = none := by
  have hdigit : c.isDigit = false := by
    have hbounds : 65 ≤ c.val ∧ c.val ≤ 90 := of_decide_eq_true hup
    have hlt : (57 : UInt32) < c.val := lt_of_lt_of_le (b := 65) (by decide) hbounds.1
    simp [Char.isDigit, hlt]
  refine int64?_eq_none hc (by rw [digit?, hdigit]; rfl) ?_ ?_
  · rintro rfl
    exact absurd hup (by decide)
  · rintro rfl
    exact absurd hup (by decide)

/-! ## Readings -/

theorem length_trim_le_one_iff (s : List Char) : (trim s).length ≤ 1 ↔ (dropBlanks s).length ≤ 1 := by
  rw [← dropBlanks_trim]
  obtain ⟨hfirst, hlast⟩ := trimmed_trim s
  constructor
  · exact fun h => (List.length_filter_le _ _).trans h
  · intro h
    by_contra hlong
    -- The first and the last character would be two that are no blanks.
    cases ht : trim s with
    | nil => simp [ht] at hlong
    | cons c u =>
      rw [ht] at h hfirst hlast hlong
      rcases List.eq_nil_or_concat u with rfl | ⟨u, d, rfl⟩
      · simp at hlong
      · rw [List.concat_eq_append, ← List.cons_append] at h hlast
        have hd : ¬ isBlank d := hlast d (by rw [List.getLast?_concat]; rfl)
        rw [dropBlanks_append, dropBlanks_cons_of_not_blank (hfirst c rfl), dropBlanks_cons_of_not_blank hd] at h
        simp at h

theorem reading_congr (h : words f = words g) : reading f = reading g := by
  have hdrop : dropBlanks f = dropBlanks g := by rw [← flatten_words, h, flatten_words]
  have hshort : decide ((trim f).length ≤ 1) = decide ((trim g).length ≤ 1) := by
    simp only [length_trim_le_one_iff, hdrop]
  have hnumber : int64? (trim f) = int64? (trim g) := by
    by_cases hwords : 1 < (words f).length
    · obtain ⟨c, hc, hcb⟩ := exists_mem_trim_iff.mpr hwords
      obtain ⟨d, hd, hdb⟩ := exists_mem_trim_iff.mpr (h ▸ hwords)
      rw [int64?_of_isBlank hc hcb, int64?_of_isBlank hd hdb]
    · have hf : ∀ c ∈ trim f, ¬ isBlank c := fun c hc hb => hwords (exists_mem_trim_iff.mp ⟨c, hc, hb⟩)
      have hg : ∀ c ∈ trim g, ¬ isBlank c :=
        fun c hc hb => hwords (h ▸ exists_mem_trim_iff.mp ⟨c, hc, hb⟩)
      rw [trim_eq_dropBlanks hf, trim_eq_dropBlanks hg, hdrop]
  rw [reading, reading, hshort, hnumber]

theorem reading_of_isUpper (h : dropBlanks f = dropBlanks g) (hc : c ∈ f) (hup : c.isUpper) :
    reading f = reading g := by
  have hb : ¬ isBlank c := not_isBlank_of_isUpper hup
  have hmem : c ∈ dropBlanks f := List.mem_filter.mpr ⟨hc, by simp [hb]⟩
  have hf : c ∈ trim f := List.mem_of_mem_filter (by rwa [← dropBlanks, dropBlanks_trim])
  have hg : c ∈ trim g := List.mem_of_mem_filter (by rwa [← dropBlanks, dropBlanks_trim, ← h])
  rw [reading, reading, int64?_of_isUpper hf hup, int64?_of_isUpper hg hup]
  simp only [length_trim_le_one_iff, h]

theorem readings_trim (s : List Char) : readings (trim s) = readings s := by
  have h := congrArg (List.map reading) (map_trim_fields_trim (show ¬ isBlank ',' by decide) s)
  have hreading : reading ∘ trim = reading := funext fun f => reading_congr (words_trim f)
  rwa [List.map_map, List.map_map, hreading] at h

theorem readings_dropBlanks (h : ∀ f ∈ fields ',' s, ¬ Broken f) : readings (dropBlanks s) = readings s := by
  rw [readings, fields_dropBlanks (by decide), List.map_map, readings]
  exact List.map_congr_left fun f hf => reading_congr (words_dropBlanks (h f hf))

end LabelPress.Estimate
