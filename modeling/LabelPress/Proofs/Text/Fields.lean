import LabelPress.Proofs.Text.Blank
import LabelPress.Text.Search

/-!
# Fields between separators

`fields` is `List.splitOn`. Blanks may be dropped before or after a text is cut into fields
(`fields_dropBlanks`), and blanks at its ends are blanks at the ends of fields (`map_trim_fields_trim`).
-/

namespace LabelPress.Text

variable {sep : Char} {s u w : List Char}

theorem fields_eq_splitOn (sep : Char) (s : List Char) : fields sep s = s.splitOn sep := by
  induction s with
  | nil => simp [fields]
  | cons c s ih =>
    rw [fields, List.splitOn_cons_eq_if_modifyHead, ih]
    by_cases h : c = sep
    · simp [h]
    · obtain ⟨f, fs, hfs⟩ := List.exists_cons_of_ne_nil (List.splitOn_ne_nil sep s)
      simp [h, hfs]

theorem fields_ne_nil (sep : Char) (s : List Char) : fields sep s ≠ [] := by
  rw [fields_eq_splitOn]
  exact List.splitOn_ne_nil sep s

theorem intercalate_fields (sep : Char) (s : List Char) : [sep].intercalate (fields sep s) = s := by
  rw [fields_eq_splitOn, List.intercalate_splitOn]

theorem fields_intercalate {fs : List (List Char)} (hfs : fs ≠ []) (h : ∀ f ∈ fs, sep ∉ f) :
    fields sep ([sep].intercalate fs) = fs := by
  rw [fields_eq_splitOn, List.splitOn_intercalate sep h hfs]

theorem fields_of_not_mem (h : sep ∉ s) : fields sep s = [s] := by
  rw [fields_eq_splitOn, List.splitOn_eq_singleton h]

theorem fields_cons_of_ne {c : Char} (h : c ≠ sep) (s : List Char) :
    fields sep (c :: s) = (fields sep s).modifyHead (c :: ·) := by
  rw [fields_eq_splitOn, fields_eq_splitOn, List.splitOn_cons_eq_if_modifyHead]
  simp [h]

theorem fields_cons_self (sep : Char) (s : List Char) : fields sep (sep :: s) = [] :: fields sep s := by
  rw [fields, if_pos rfl]

theorem length_fields (sep : Char) (s : List Char) : (fields sep s).length = s.count sep + 1 := by
  induction s with
  | nil => rfl
  | cons c s ih =>
    by_cases hc : c = sep
    · rw [hc, fields_cons_self, List.length_cons, ih, List.count_cons_self]
    · rw [fields_cons_of_ne hc, List.length_modifyHead, ih, List.count_cons_of_ne hc]

theorem not_mem_of_mem_fields {f : List Char} (h : f ∈ fields sep s) : sep ∉ f := by
  induction s generalizing f with
  | nil =>
    simp only [fields, List.mem_singleton] at h
    simp [h]
  | cons c s ih =>
    by_cases hc : c = sep
    · rw [hc, fields_cons_self, List.mem_cons] at h
      rcases h with rfl | h
      · simp
      · exact ih h
    · rw [fields_cons_of_ne hc] at h
      obtain ⟨g, gs, hgs⟩ := List.exists_cons_of_ne_nil (fields_ne_nil sep s)
      rw [hgs, List.modifyHead_cons, List.mem_cons] at h
      rcases h with rfl | h
      · have := ih (f := g) (by simp [hgs])
        simp [this, Ne.symm hc]
      · exact ih (by simp [hgs, h])

theorem fields_append_left (h : sep ∉ u) (s : List Char) :
    fields sep (u ++ s) = (fields sep s).modifyHead (u ++ ·) := by
  induction u with
  | nil => cases hs : fields sep s <;> simp [hs]
  | cons c u ih =>
    rw [List.mem_cons, not_or] at h
    obtain ⟨f, fs, hfs⟩ := List.exists_cons_of_ne_nil (fields_ne_nil sep s)
    rw [List.cons_append, fields_cons_of_ne (Ne.symm h.1), ih h.2, hfs]
    simp

theorem exists_fields_append (h : sep ∉ w) (s : List Char) :
    ∃ fs f, fields sep s = fs ++ [f] ∧ fields sep (s ++ w) = fs ++ [f ++ w] := by
  induction s with
  | nil => exact ⟨[], [], by simp [fields], by simpa using fields_of_not_mem h⟩
  | cons c s ih =>
    obtain ⟨fs, f, hs, hsw⟩ := ih
    by_cases hc : c = sep
    · subst hc
      exact ⟨[] :: fs, f, by rw [fields_cons_self, hs]; simp,
        by rw [List.cons_append, fields_cons_self, hsw]; simp⟩
    · rw [List.cons_append, fields_cons_of_ne hc, fields_cons_of_ne hc, hs, hsw]
      cases fs with
      | nil => exact ⟨[], c :: f, by simp, by simp⟩
      | cons g fs => exact ⟨(c :: g) :: fs, f, by simp, by simp⟩

/-! ## Fields and blanks -/

theorem fields_dropBlanks (hsep : ¬ isBlank sep) (s : List Char) :
    fields sep (dropBlanks s) = (fields sep s).map dropBlanks := by
  induction s with
  | nil => simp [fields]
  | cons c s ih =>
    by_cases hc : c = sep
    · subst hc
      rw [dropBlanks_cons_of_not_blank hsep, fields_cons_self, fields_cons_self, ih, List.map_cons, dropBlanks_nil]
    · obtain ⟨f, fs, hfs⟩ := List.exists_cons_of_ne_nil (fields_ne_nil sep s)
      rw [fields_cons_of_ne hc, hfs, List.modifyHead_cons, List.map_cons]
      rw [hfs, List.map_cons] at ih
      by_cases hb : isBlank c
      · rw [dropBlanks_cons_of_blank hb, dropBlanks_cons_of_blank hb, ih]
      · rw [dropBlanks_cons_of_not_blank hb, dropBlanks_cons_of_not_blank hb, fields_cons_of_ne hc, ih,
          List.modifyHead_cons]

theorem not_mem_of_blank (hsep : ¬ isBlank sep) (hw : ∀ c ∈ w, isBlank c) : sep ∉ w :=
  fun h => hsep (hw sep h)

theorem map_trim_fields_trim (hsep : ¬ isBlank sep) (s : List Char) :
    (fields sep (trim s)).map trim = (fields sep s).map trim := by
  obtain ⟨u, w, hs, hu, hw⟩ := exists_eq_trim s
  obtain ⟨fs, f, hm, hmw⟩ := exists_fields_append (not_mem_of_blank hsep hw) (trim s)
  conv_rhs => rw [hs, List.append_assoc, fields_append_left (not_mem_of_blank hsep hu), hmw]
  rw [hm]
  cases fs with
  | nil => simp [append_trim hu, trim_append hw]
  | cons g fs => simp [append_trim hu, trim_append hw]

end LabelPress.Text
