import LabelPress.Proofs.Text.Occurrences

/-!
# What stands in a text after replacing

Where the new text neither holds nor begins a needle, none is left (`not_infix_replaceAll`). A mark that
cannot overlap with a needle stays where it is (`infix_replaceAll`).
-/

namespace LabelPress.Text

variable {needle mark s a b u v w : List Char} {d : Char}

theorem occurs_iff : occurs needle s ↔ needle <:+: s := by
  rw [occurs, Option.isSome_iff_ne_none, ne_eq, cut?_eq_none_iff, not_not]

theorem occurs_eq_false_iff : occurs needle s = false ↔ ¬ needle <:+: s := by
  rw [← occurs_iff, Bool.not_eq_true]

/-! ## Before and behind an occurrence -/

theorem Misses.infix_of_append (hu : Misses needle u) (h : needle <:+: u ++ v) : needle <:+: v := by
  obtain ⟨x, y, hxy⟩ := h
  obtain ⟨w, rfl⟩ := hu.exists_append hxy.symm
  rw [List.append_assoc, List.append_assoc] at hxy
  exact ⟨w, y, by rw [List.append_assoc, List.append_cancel_left hxy]⟩

theorem misses_of_head (hn : needle ≠ []) (h : ∀ c ∈ needle.head?, c ∉ u) : Misses needle u := by
  obtain ⟨c, t, rfl⟩ := List.exists_cons_of_ne_nil hn
  exact misses_of_not_mem (h c rfl)

theorem infix_of_infix_append_cons (hd : d ∉ needle) (h : needle <:+: u ++ d :: v) :
    needle <:+: u ∨ needle <:+: v := by
  obtain ⟨x, y, hxy⟩ := h
  rcases List.append_eq_append_iff.mp hxy with ⟨z, rfl, -⟩ | ⟨z, hz, hv⟩
  · exact .inl ⟨x, z, rfl⟩
  · cases z with
    | nil => exact .inl ⟨x, [], by simpa using hz⟩
    | cons e z =>
      obtain ⟨rfl, rfl⟩ := List.cons.inj hv
      rcases List.append_eq_append_iff.mp hz with ⟨t, -, ht⟩ | ⟨t, ht, ht'⟩
      · exact absurd (by simp [ht]) hd
      · cases t with
        | nil =>
          rw [List.nil_append] at ht'
          exact absurd (ht' ▸ List.mem_cons_self) hd
        | cons e t =>
          obtain ⟨rfl, rfl⟩ := List.cons.inj ht'
          exact .inr ⟨t, y, by simp⟩

theorem cut?_eq_none_of_cut? (hn : needle ≠ []) (h : cut? needle s = some (a, b)) : cut? needle a = none := by
  rw [cut?_eq_none_iff]
  rintro ⟨x, y, rfl⟩
  have hs : s = x ++ needle ++ (y ++ needle ++ b) := by simp [eq_append_of_cut? h]
  have hle := length_le_of_cut? h hs
  have := List.length_pos_iff.mpr hn
  simp only [List.length_append] at hle
  omega

theorem cut?_of_mem_occurrences (hn : needle ≠ []) (h : cut? needle s = some (a, b)) {o : List Char × List Char}
    (ho : o ∈ occurrences needle b) :
    cut? needle (a ++ needle ++ o.1) = some (a, o.1) := by
  refine cut?_eq_some_iff.mpr ⟨rfl, fun x y hxy => ?_⟩
  apply length_le_of_cut? h (v := y ++ needle ++ o.2)
  rw [eq_append_of_cut? h, eq_append_of_mem_occurrences hn ho, ← List.append_assoc, ← List.append_assoc, hxy]
  simp

/-! ## No needle is left -/

theorem not_infix_replaceAll (hn : needle ≠ []) (hd : d ∉ needle) (hw : ∀ c ∈ needle.head?, c ∉ w) (s : List Char) :
    ¬ needle <:+: replaceAll needle (d :: w) s := by
  induction s using cut_induction hn with
  | none s hcut =>
    rw [replaceAll_of_cut?_eq_none _ hcut]
    exact cut?_eq_none_iff.mp hcut
  | some s a b hcut ih =>
    rw [replaceAll_of_cut? _ hn hcut, List.append_assoc, List.cons_append]
    intro h
    rcases infix_of_infix_append_cons hd h with ha | hb
    · exact cut?_eq_none_iff.mp (cut?_eq_none_of_cut? hn hcut) ha
    · exact ih ((misses_of_head hn hw).infix_of_append hb)

theorem prefix_replaceAll (hu : d ∉ u) (h : u <+: replaceAll needle (d :: w) s) : u <+: replaceAll needle [] s := by
  by_cases hn : needle = []
  · rwa [replaceAll, dif_pos hn] at h ⊢
  · cases hcut : cut? needle s with
    | none =>
      rw [replaceAll_of_cut?_eq_none _ hcut] at h ⊢
      exact h
    | some o =>
      rw [replaceAll_of_cut? _ hn hcut, List.append_assoc] at h
      rw [replaceAll_of_cut? _ hn hcut, List.append_nil]
      obtain ⟨r, hr⟩ := h
      rcases List.append_eq_append_iff.mp hr with ⟨z, hz, -⟩ | ⟨z, rfl, hz⟩
      · exact ⟨z ++ replaceAll needle [] o.2, by simp [hz]⟩
      · cases z with
        | nil => simp
        | cons e z =>
          obtain rfl : d = e := (List.cons.inj hz).1
          simp at hu

/-! ## Marks stay -/

theorem infix_of_infix_append (hneedle : Misses needle mark) (hmark : Misses mark needle)
    (h : mark <:+: a ++ needle ++ b) :
    mark <:+: a ∨ mark <:+: b := by
  obtain ⟨x, y, hxy⟩ := h
  rw [List.append_assoc, List.append_assoc] at hxy
  rcases List.append_eq_append_iff.mp hxy with ⟨z, rfl, hz⟩ | ⟨z, rfl, hz⟩
  · obtain ⟨t, rfl⟩ := hneedle.exists_append (hz.trans (List.append_assoc _ _ _).symm)
    exact .inl ⟨x, t, by simp⟩
  · obtain ⟨t, rfl⟩ := hmark.exists_append (hz.trans (List.append_assoc _ _ _).symm)
    rw [List.append_assoc] at hz
    exact .inr ⟨t, y, by rw [List.append_assoc, List.append_cancel_left hz]⟩

theorem infix_replaceAll (hneedle : Misses needle mark) (hmark : Misses mark needle) (new : List Char)
    (h : mark <:+: s) :
    mark <:+: replaceAll needle new s := by
  by_cases hn : needle = []
  · rwa [replaceAll, dif_pos hn]
  · induction s using cut_induction hn with
    | none s hcut => rwa [replaceAll_of_cut?_eq_none _ hcut]
    | some s a b hcut ih =>
      rw [replaceAll_of_cut? _ hn hcut, List.append_assoc]
      rw [eq_append_of_cut? hcut] at h
      rcases infix_of_infix_append hneedle hmark h with ha | hb
      · exact ha.trans (List.prefix_append _ _).isInfix
      · exact (ih hb).trans ((List.suffix_append _ _).trans (List.suffix_append _ _)).isInfix

/-! ## At one of the occurrences -/

theorem replaceAll_of_mem_occurrences (hn : needle ≠ []) {o : List Char × List Char}
    (ho : o ∈ occurrences needle s) (new : List Char) :
    replaceAll needle new s = replaceAll needle new o.1 ++ new ++ replaceAll needle new o.2 := by
  induction s using cut_induction hn generalizing o with
  | none s hcut => simp [occurrences_of_cut?_eq_none hcut] at ho
  | some s a b hcut ih =>
    rw [occurrences_of_cut? hn hcut] at ho
    rcases List.mem_cons.mp ho with rfl | ho
    · rw [replaceAll_of_cut? new hn hcut, replaceAll_of_cut?_eq_none new (cut?_eq_none_of_cut? hn hcut)]
    · obtain ⟨o', ho', rfl⟩ := List.mem_map.mp ho
      rw [replaceAll_of_cut? new hn hcut, replaceAll_of_cut? new hn (cut?_of_mem_occurrences hn hcut ho'), ih ho']
      simp

end LabelPress.Text
