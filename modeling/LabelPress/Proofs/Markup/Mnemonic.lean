import LabelPress.Markup.Lexer
import LabelPress.Proofs.Text.Blank
import Mathlib.Data.List.Infix

/-!
# Mnemonics

`mnemonic?` reads the longest mnemonic at the beginning of a text (`mnemonic?_eq_some_iff`). Whether a
mnemonic is the longest is decided by the one character behind it (`mnemonic?_append_iff`).
-/

namespace LabelPress.Markup

open Text

/-- What may stand as a mnemonic. -/
inductive Mnemonic : List Char → Prop where
  | font : Mnemonic ['A']
  | storedFont : Mnemonic ['A', '@']
  | one {c : Char} : isAlphanumeric c → c ≠ 'A' → Mnemonic [c]
  | two {c d : Char} : isAlphanumeric c → c ≠ 'A' → isAlphanumeric d → Mnemonic [c, d]

/-- The longest mnemonic at the beginning of the text. -/
structure LongestMnemonic (name s : List Char) : Prop where
  mnemonic : Mnemonic name
  begins : name <+: s
  longest : ∀ m, Mnemonic m → m <+: s → m.length ≤ name.length

variable {name s t : List Char}

theorem isAlphanumeric_A : isAlphanumeric 'A' := by decide

theorem Mnemonic.ne_nil (h : Mnemonic name) : name ≠ [] := by
  cases h <;> simp

theorem Mnemonic.length_le (h : Mnemonic name) : name.length ≤ 2 := by
  cases h <;> simp

theorem Mnemonic.exists_cons (h : Mnemonic name) : ∃ c u, name = c :: u ∧ isAlphanumeric c := by
  cases h with
  | font => exact ⟨_, _, rfl, isAlphanumeric_A⟩
  | storedFont => exact ⟨_, _, rfl, isAlphanumeric_A⟩
  | one hc _ => exact ⟨_, _, rfl, hc⟩
  | two hc _ _ => exact ⟨_, _, rfl, hc⟩

theorem Mnemonic.mem (h : Mnemonic name) : ∀ c ∈ name, isAlphanumeric c ∨ c = '@' := by
  cases h with
  | font => simp [isAlphanumeric_A]
  | storedFont => simp [isAlphanumeric_A]
  | one hc _ => simp [hc]
  | two hc _ hd => simp [hc, hd]

theorem Mnemonic.not_blank (h : Mnemonic name) : ∀ c ∈ name, ¬ isBlank c := by
  intro c hc
  rcases h.mem c hc with ha | rfl
  · exact not_isBlank_of_isAlphanumeric ha
  · decide

theorem not_mnemonic_concat {d : Char} (hd : ¬ isAlphanumeric d) (hat : d ≠ '@') : ¬ Mnemonic (name ++ [d]) := by
  intro h
  rcases h.mem d (by simp) with ha | ha
  · exact hd ha
  · exact hat ha

/-! ## The reader -/

theorem mnemonic?_eq_none_iff : mnemonic? s = none ↔ ∀ c ∈ s.head?, ¬ isAlphanumeric c := by
  unfold mnemonic?
  grind

theorem mnemonic_of_mnemonic? (h : mnemonic? s = some (name, t)) : Mnemonic name := by
  unfold mnemonic? at h
  grind [Mnemonic]

theorem mnemonic?_append (hname : Mnemonic name) (hend : ∀ d ∈ t.head?, ¬ Mnemonic (name ++ [d])) :
    mnemonic? (name ++ t) = some (name, t) := by
  cases hname with
  | font =>
    cases t with
    | nil => simp [mnemonic?, isAlphanumeric_A]
    | cons d t =>
      have hat : d ≠ '@' := by
        rintro rfl
        exact hend '@' rfl .storedFont
      simp [mnemonic?, isAlphanumeric_A, hat]
  | storedFont => simp [mnemonic?, isAlphanumeric_A]
  | one hc hA =>
    cases t with
    | nil => simp [mnemonic?, hc, hA]
    | cons d t =>
      have hd : ¬ isAlphanumeric d := fun hd => hend d rfl (.two hc hA hd)
      simp [mnemonic?, hc, hA, hd]
  | two hc hA hd => simp [mnemonic?, hc, hA, hd]

theorem not_mnemonic_of_mnemonic? (h : mnemonic? (name ++ t) = some (name, t)) :
    ∀ d ∈ t.head?, ¬ Mnemonic (name ++ [d]) := by
  intro d hd hlong
  obtain ⟨t', rfl⟩ : ∃ t', t = d :: t' := ⟨t.tail, List.eq_cons_of_mem_head? hd⟩
  -- The longer mnemonic has two characters, so nothing goes on behind it.
  have hread := mnemonic?_append (t := t') hlong (by
    intro e _ hthree
    have h3 := hthree.length_le
    have h1 := List.length_pos_iff.mpr (mnemonic_of_mnemonic? h).ne_nil
    simp only [List.length_append, List.length_singleton] at h3
    omega)
  rw [List.append_assoc, List.singleton_append, h] at hread
  simp at hread

theorem mnemonic?_append_iff : mnemonic? (name ++ t) = some (name, t) ↔
    Mnemonic name ∧ ∀ d ∈ t.head?, ¬ Mnemonic (name ++ [d]) :=
  ⟨fun h => ⟨mnemonic_of_mnemonic? h, not_mnemonic_of_mnemonic? h⟩, fun h => mnemonic?_append h.1 h.2⟩

theorem LongestMnemonic.unique {m : List Char} (h : LongestMnemonic name s) (hm : LongestMnemonic m s) :
    m = name := by
  have hlen : m.length = name.length := by
    have h1 := h.longest m hm.mnemonic hm.begins
    have h2 := hm.longest name h.mnemonic h.begins
    omega
  obtain ⟨t, ht⟩ := h.begins
  obtain ⟨u, hu⟩ := hm.begins
  exact (List.append_inj (hu.trans ht.symm) hlen).1

theorem longestMnemonic_of_append (h : Mnemonic name) (hend : ∀ d ∈ t.head?, ¬ Mnemonic (name ++ [d])) :
    LongestMnemonic name (name ++ t) := by
  refine ⟨h, List.prefix_append name t, ?_⟩
  intro m hm hbegins
  by_contra hlt
  obtain ⟨u, rfl⟩ : ∃ u, m = name ++ u := by
    obtain ⟨u, hu⟩ := List.prefix_of_prefix_length_le (List.prefix_append name t) hbegins (by omega)
    exact ⟨u, hu.symm⟩
  -- A longer one has one more character.
  have h1 := List.length_pos_iff.mpr h.ne_nil
  have h2 := hm.length_le
  simp only [List.length_append, not_le] at h2 hlt
  obtain ⟨d, rfl⟩ : ∃ d, u = [d] := List.length_eq_one_iff.mp (by omega)
  obtain ⟨v, hv⟩ := hbegins
  rw [List.append_assoc] at hv
  refine hend d ?_ hm
  rw [← List.append_cancel_left hv]
  rfl

/-- The reader takes the longest mnemonic and leaves what follows it. -/
theorem mnemonic?_eq_some_iff : mnemonic? s = some (name, t) ↔ LongestMnemonic name s ∧ s = name ++ t := by
  constructor
  · intro h
    obtain rfl := eq_append_of_mnemonic? h
    obtain ⟨hname, hend⟩ := mnemonic?_append_iff.mp h
    exact ⟨longestMnemonic_of_append hname hend, rfl⟩
  · rintro ⟨hlong, rfl⟩
    refine mnemonic?_append hlong.mnemonic fun d hd hm => ?_
    obtain ⟨t', rfl⟩ : ∃ t', t = d :: t' := ⟨t.tail, List.eq_cons_of_mem_head? hd⟩
    have := hlong.longest _ hm ⟨t', by simp⟩
    simp only [List.length_append, List.length_singleton] at this
    omega

/-! ## The mnemonic of field data -/

theorem mnemonic_fieldData : Mnemonic fieldData := .two (by decide) (by decide) (by decide)

theorem longestMnemonic_fieldData_iff : LongestMnemonic fieldData s ↔ fieldData <+: s :=
  ⟨fun h => h.begins, fun h => ⟨mnemonic_fieldData, h, fun _ hm _ => hm.length_le⟩⟩

theorem not_fieldData_append {u v : List Char} (hu : LongestMnemonic name u) (hname : name ≠ fieldData)
    (hv : ∀ c ∈ v.head?, ¬ isAlphanumeric c) : ¬ fieldData <+: u ++ v := by
  rintro ⟨z, hz⟩
  rcases List.append_eq_append_iff.mp hz with ⟨y, hy, -⟩ | ⟨y, hy, rfl⟩
  · exact hname (hu.unique (longestMnemonic_fieldData_iff.mpr ⟨y, hy.symm⟩)).symm
  · cases y with
    | nil =>
      rw [List.append_nil] at hy
      exact hname (hu.unique (longestMnemonic_fieldData_iff.mpr ⟨[], by simp [hy]⟩)).symm
    | cons d y =>
      -- The mnemonic would be cut, and its second part would begin with a letter.
      have hd : d ∈ fieldData := by simp [hy]
      apply hv d rfl
      simp only [fieldData, List.mem_cons, List.not_mem_nil, or_false] at hd
      rcases hd with rfl | rfl <;> decide

end LabelPress.Markup
