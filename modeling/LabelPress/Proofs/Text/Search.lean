import LabelPress.Text.Search
import Mathlib.Data.List.Infix

/-!
# The first occurrence

`cut?` finds an occurrence if there is one, and the first one (`cut?_eq_some_iff`). So a text in which
the needle cannot begin is passed over as a whole.
-/

namespace LabelPress.Text

variable {needle s rest a b u v u' v' : List Char}

theorem takeWhile_append_of_head {p : Char → Bool} (hs : ∀ c ∈ s, p c) (hrest : ∀ c ∈ rest.head?, ¬ p c) :
    (s ++ rest).takeWhile p = s ∧ (s ++ rest).dropWhile p = rest := by
  rw [List.takeWhile_append_of_pos hs, List.dropWhile_append_of_pos hs]
  cases rest with
  | nil => simp
  | cons c rest => simp [hrest c rfl]

theorem rest?_append (needle s : List Char) : rest? needle (needle ++ s) = some s := by
  induction needle with
  | nil => rfl
  | cons c needle ih => simpa [rest?] using ih

theorem cut?_append (needle a b : List Char) : (cut? needle (a ++ needle ++ b)).isSome := by
  induction a with
  | nil =>
    have h := rest?_append needle b
    cases hs : needle ++ b with
    | nil =>
      rw [hs] at h
      simp [hs, cut?, h]
    | cons c s =>
      rw [hs] at h
      simp [hs, cut?, h]
  | cons c a ih =>
    rw [List.cons_append, List.cons_append, cut?]
    split
    · rfl
    · simpa using ih

theorem cut?_eq_none_iff : cut? needle s = none ↔ ¬ needle <:+: s := by
  constructor
  · rintro h ⟨a, b, rfl⟩
    have := cut?_append needle a b
    rw [h] at this
    simp at this
  · intro h
    by_contra hne
    obtain ⟨⟨a, b⟩, hab⟩ := Option.ne_none_iff_exists'.mp hne
    exact h ⟨a, b, (eq_append_of_cut? hab).symm⟩

theorem length_le_of_cut? (h : cut? needle s = some (a, b)) {u v : List Char}
    (hs : s = u ++ needle ++ v) : a.length ≤ u.length := by
  induction s generalizing a u with
  | nil =>
    have := eq_append_of_cut? h
    simp only [List.nil_eq, List.append_eq_nil_iff] at this
    simp [this]
  | cons c s ih =>
    rw [cut?] at h
    split at h
    · simp only [Option.some.injEq, Prod.mk.injEq] at h
      simp [← h.1]
    · next hrest =>
      cases u with
      | nil =>
        rw [hs, List.nil_append, rest?_append] at hrest
        simp at hrest
      | cons d u =>
        simp only [Option.map_eq_some_iff, Prod.mk.injEq] at h
        obtain ⟨⟨a', b'⟩, hcut, rfl, rfl⟩ := h
        simp only [List.cons_append, List.cons.injEq] at hs
        have := ih hcut hs.2
        simpa using this

theorem cut?_eq_some_iff : cut? needle s = some (a, b) ↔
    s = a ++ needle ++ b ∧ ∀ u v, s = u ++ needle ++ v → a.length ≤ u.length := by
  constructor
  · intro h
    exact ⟨eq_append_of_cut? h, fun u v hs => length_le_of_cut? h hs⟩
  · rintro ⟨hs, hfirst⟩
    obtain ⟨⟨a', b'⟩, h⟩ := Option.isSome_iff_exists.mp (cut?_append needle a b)
    rw [← hs] at h
    have hs' := eq_append_of_cut? h
    have hlen : a'.length = a.length :=
      le_antisymm (length_le_of_cut? h hs) (hfirst a' b' hs')
    rw [hs, List.append_assoc, List.append_assoc] at hs'
    obtain ⟨rfl, hrest⟩ := List.append_inj hs'.symm hlen
    rw [h, List.append_cancel_left hrest]

theorem cut?_append_self (needle s : List Char) : cut? needle (needle ++ s) = some ([], s) :=
  cut?_eq_some_iff.mpr ⟨rfl, fun u _ _ => Nat.zero_le u.length⟩

theorem cut?_cons_of_not_prefix {c : Char} (h : ¬ needle <+: c :: s) :
    cut? needle (c :: s) = (cut? needle s).map fun o => (c :: o.1, o.2) := by
  rw [cut?]
  split
  · next t ht => exact absurd ⟨t, (eq_append_of_rest? ht).symm⟩ h
  · rfl

theorem cut?_of_cut?_cons {c : Char} (h : cut? needle (c :: s) = some (c :: a, b)) :
    cut? needle s = some (a, b) := by
  obtain ⟨hs, hfirst⟩ := cut?_eq_some_iff.mp h
  rw [List.cons_append, List.cons_append, List.cons.injEq] at hs
  refine cut?_eq_some_iff.mpr ⟨hs.2, fun u v huv => ?_⟩
  have := hfirst (c :: u) v (by rw [huv]; rfl)
  simpa using this

/-- The needle begins nowhere in the text, whatever follows it. -/
def Misses (needle u : List Char) : Prop := ∀ x y z, u = x ++ y → y ≠ [] → ¬ needle <+: y ++ z

theorem misses_of_not_mem {c : Char} {u : List Char} (hc : c ∉ u) : Misses (c :: needle) u := by
  rintro x (_ | ⟨d, y⟩) z rfl hy ⟨t, ht⟩
  · exact hy rfl
  · simp only [List.cons_append, List.cons.injEq] at ht
    simp [ht.1] at hc

theorem misses_cons {c : Char} {u : List Char} (hc : ∀ z, ¬ needle <+: c :: (u ++ z)) (hu : Misses needle u) :
    Misses needle (c :: u) := by
  rintro (_ | ⟨d, x⟩) y z h hy
  · rw [List.nil_append] at h
    rw [← h]
    exact hc z
  · rw [List.cons_append, List.cons.injEq] at h
    exact hu x y z h.2 hy

theorem Misses.append {u w : List Char} (hu : Misses needle u) (hw : Misses needle w) : Misses needle (u ++ w) := by
  intro x y z h hy
  rcases List.append_eq_append_iff.mp h with ⟨y', -, hw'⟩ | ⟨y', hu', rfl⟩
  · exact hw y' y z hw' hy
  · by_cases hy' : y' = []
    · subst hy'
      exact hw [] w z rfl (by simpa using hy)
    · rw [List.append_assoc]
      exact hu x y' (w ++ z) hu' hy'

theorem Misses.exists_append {u v : List Char} (hu : Misses needle u) (h : u ++ v = a ++ needle ++ b) :
    ∃ w, a = u ++ w := by
  rw [List.append_assoc] at h
  rcases List.append_eq_append_iff.mp h with ⟨w, ha, -⟩ | ⟨y, hu', hy⟩
  · exact ⟨w, ha⟩
  · by_cases hne : y = []
    · exact ⟨[], by simp [hu', hne]⟩
    · exact absurd ⟨b, hy⟩ (hu a y v hu' hne)

theorem cut?_append_left {u : List Char} (h : Misses needle u) (s : List Char) :
    cut? needle (u ++ s) = (cut? needle s).map fun o => (u ++ o.1, o.2) := by
  cases hcut : cut? needle s with
  | none =>
    rw [Option.map_none, cut?_eq_none_iff]
    rintro ⟨x, y, hxy⟩
    obtain ⟨w, rfl⟩ := h.exists_append hxy.symm
    rw [List.append_assoc, List.append_assoc] at hxy
    exact cut?_eq_none_iff.mp hcut ⟨w, y, by simpa using List.append_cancel_left hxy⟩
  | some o =>
    obtain ⟨hs, hfirst⟩ := cut?_eq_some_iff.mp hcut
    rw [Option.map_some, cut?_eq_some_iff]
    refine ⟨by simp [hs], fun x y hxy => ?_⟩
    obtain ⟨w, rfl⟩ := h.exists_append hxy
    rw [List.append_assoc, List.append_assoc] at hxy
    have := hfirst w y (by simpa using List.append_cancel_left hxy)
    simpa using this

theorem cut?_append_right (h : cut? needle s = some (a, b)) (v : List Char) :
    cut? needle (s ++ v) = some (a, b ++ v) := by
  obtain ⟨rfl, hfirst⟩ := cut?_eq_some_iff.mp h
  rw [cut?_eq_some_iff]
  refine ⟨by simp, fun x y hxy => ?_⟩
  by_contra hlt
  -- An earlier occurrence would end before `v`.
  rcases List.append_eq_append_iff.mp hxy with ⟨z, hz, -⟩ | ⟨z, hz, -⟩
  · have := congrArg List.length hz
    simp at this
    omega
  · exact hlt (hfirst x z hz)

/-! ## Where two texts meet -/

/-- The needle begins in the first text and ends in the second. -/
def Joins (needle u v : List Char) : Prop :=
  ∃ i < needle.length, 0 < i ∧ needle.take i <:+ u ∧ needle.drop i <+: v

instance : Decidable (Joins needle u v) :=
  inferInstanceAs (Decidable (∃ i < needle.length, 0 < i ∧ needle.take i <:+ u ∧ needle.drop i <+: v))

theorem Joins.mono (h : Joins needle u v) (hu : u <:+ u') (hv : v <+: v') : Joins needle u' v' := by
  obtain ⟨i, hi, hpos, hfront, hback⟩ := h
  exact ⟨i, hi, hpos, hfront.trans hu, hback.trans hv⟩

theorem prefix_append_cases (hu : u ≠ []) (h : needle <+: u ++ v) : needle <+: u ∨ Joins needle u v := by
  obtain ⟨r, hr⟩ := h
  rcases List.append_eq_append_iff.mp hr with ⟨w, hw, -⟩ | ⟨w, rfl, rfl⟩
  · exact .inl ⟨w, hw.symm⟩
  · by_cases hnil : w = []
    · exact .inl (by simp [hnil])
    · have hpos := List.length_pos_iff.mpr hu
      have hlt := List.length_pos_iff.mpr hnil
      exact .inr ⟨u.length, by simp only [List.length_append]; omega, hpos, by simp, by simp⟩

theorem cut?_append_of_not_joins (hu : cut? needle u = none) (hj : ¬ Joins needle u v) :
    cut? needle (u ++ v) = (cut? needle v).map fun o => (u ++ o.1, o.2) := by
  induction u with
  | nil => simp
  | cons c u ih =>
    rw [cut?_eq_none_iff] at hu
    have hnot : ¬ needle <+: c :: (u ++ v) := by
      intro h
      rcases prefix_append_cases (u := c :: u) (by simp) h with hpre | hjoin
      · exact hu hpre.isInfix
      · exact hj hjoin
    have hrest : cut? needle u = none := cut?_eq_none_iff.mpr fun h => hu (h.trans (List.suffix_cons c u).isInfix)
    rw [List.cons_append, cut?_cons_of_not_prefix hnot,
      ih hrest fun h => hj (h.mono (List.suffix_cons c u) (List.prefix_refl v)), Option.map_map]
    rfl

/-! ## Replacing -/

theorem replaceAll_of_cut?_eq_none (new : List Char) (h : cut? needle s = none) :
    replaceAll needle new s = s := by
  rw [replaceAll]
  split
  · rfl
  · split
    · rfl
    · next hcut => simp [h] at hcut

theorem replaceAll_of_cut? (new : List Char) (hn : needle ≠ []) (h : cut? needle s = some (a, b)) :
    replaceAll needle new s = a ++ new ++ replaceAll needle new b := by
  rw [replaceAll, dif_neg hn]
  split
  · next hcut => simp [h] at hcut
  · next hcut =>
    rw [h, Option.some.injEq, Prod.mk.injEq] at hcut
    rw [hcut.1, hcut.2]

theorem replaceAll_nil (needle new : List Char) : replaceAll needle new [] = [] := by
  by_cases hn : needle = []
  · rw [replaceAll, dif_pos hn]
  · apply replaceAll_of_cut?_eq_none
    rwa [cut?_eq_none_iff, List.infix_nil]

theorem replaceAll_append_self (hn : needle ≠ []) (new s : List Char) :
    replaceAll needle new (needle ++ s) = new ++ replaceAll needle new s := by
  rw [replaceAll_of_cut? new hn (cut?_append_self needle s), List.nil_append]

theorem not_prefix_cons {c d : Char} (h : c ≠ d) : ¬ d :: needle <+: c :: s :=
  fun hpre => h (List.cons_prefix_cons.mp hpre).1.symm

theorem ne_nil_of_not_prefix (h : ¬ needle <+: s) : needle ≠ [] := by
  rintro rfl
  exact h List.nil_prefix

theorem replaceAll_cons {c : Char} (h : ¬ needle <+: c :: s) (new : List Char) :
    replaceAll needle new (c :: s) = c :: replaceAll needle new s := by
  have hn := ne_nil_of_not_prefix h
  have hcut := cut?_cons_of_not_prefix h
  cases hs : cut? needle s with
  | none =>
    rw [hs, Option.map_none] at hcut
    rw [replaceAll_of_cut?_eq_none _ hcut, replaceAll_of_cut?_eq_none _ hs]
  | some o =>
    rw [hs, Option.map_some] at hcut
    rw [replaceAll_of_cut? _ hn hcut, replaceAll_of_cut? _ hn hs]
    rfl

end LabelPress.Text
