import LabelPress.Text.Utf8
import Mathlib.Tactic.SplitIfs

/-!
# Bytes and order of UTF-8

Bytes are read as the text that they are written for (`ofUtf8?_eq_some_iff`), also where broken bytes would be
replaced (`ofUtf8Lossy_utf8`). Texts stand in the order of their bytes as in the order of their characters
(`utf8_lt`).
-/

namespace LabelPress.Text

variable {c d : Char} {s t : List Char}

theorem utf8_cons (c : Char) (s : List Char) : utf8 (c :: s) = String.utf8EncodeChar c ++ utf8 s :=
  List.flatMap_cons

theorem ofUtf8?_eq_some_iff {bytes : List UInt8} : ofUtf8? bytes = some s ↔ bytes = utf8 s := by
  constructor
  · intro h
    have hvalid : bytes.toByteArray.IsValidUTF8 := by
      refine Classical.byContradiction fun hn => ?_
      simp [ofUtf8?, String.fromUTF8?, hn] at h
    obtain ⟨t, ht⟩ := hvalid
    have hbytes : bytes = utf8 t := List.toByteArray_inj.mp ht
    rw [hbytes, ofUtf8?_utf8] at h
    rw [hbytes, Option.some.inj h]
  · rintro rfl
    exact ofUtf8?_utf8 s

theorem toNat_lt_toNat (h : c < d) : c.toNat < d.toNat := UInt32.lt_iff_toNat_lt.mp h

theorem toNat_lt (c : Char) : c.toNat < 0x110000 := by
  have := c.valid
  simp only [UInt32.isValidChar, Nat.isValidChar] at this
  rw [Char.toNat]
  omega

/-! ## Reading what may be broken -/

theorem continuing_of_all {rest : List UInt8} (h : ∀ b ∈ rest, 0x80 ≤ b.toNat ∧ b.toNat ≤ 0xBF) (more : List UInt8) :
    continuing rest.length 0x80 0xBF (rest ++ more) = rest.length := by
  induction rest with
  | nil => simp [continuing]
  | cons b rest ih =>
    rw [List.forall_mem_cons] at h
    have hb : 0x80 ≤ b ∧ b ≤ 0xBF := ⟨UInt8.le_iff_toNat_le.mpr h.1.1, UInt8.le_iff_toNat_le.mpr h.1.2⟩
    rw [List.length_cons, List.cons_append, continuing, if_pos hb, ih h.2]

theorem continuation_cases (b : UInt8) (hb : 0xC2 ≤ b.toNat) (hlt : b.toNat < 0xF5) : ∃ low high,
    continuation b = (if b.toNat < 0xE0 then 1 else if b.toNat < 0xF0 then 2 else 3, low, high) ∧
      low.toNat = (if b.toNat = 0xE0 then 0xA0 else if b.toNat = 0xF0 then 0x90 else 0x80) ∧
      high.toNat = (if b.toNat = 0xED then 0x9F else if b.toNat = 0xF4 then 0x8F else 0xBF) := by
  unfold continuation
  simp only [UInt8.lt_iff_toNat_lt, ← UInt8.toNat_inj, UInt8.reduceToNat]
  split_ifs
  all_goals first
    | omega
    | exact ⟨_, _, rfl, rfl, rfl⟩

theorem exists_lead (h : 0x80 ≤ c.toNat) : ∃ b d rest, String.utf8EncodeChar c = b :: d :: rest ∧
    0xC2 ≤ b.toNat ∧ b.toNat < 0xF5 ∧
    rest.length = (if b.toNat < 0xE0 then 0 else if b.toNat < 0xF0 then 1 else 2) ∧
    (if b.toNat = 0xE0 then 0xA0 else if b.toNat = 0xF0 then 0x90 else 0x80) ≤ d.toNat ∧
    d.toNat ≤ (if b.toNat = 0xED then 0x9F else if b.toNat = 0xF4 then 0x8F else 0xBF) ∧
      ∀ e ∈ rest, 0x80 ≤ e.toNat ∧ e.toNat ≤ 0xBF := by
  have hlt := toNat_lt c
  have hvalid := c.valid
  simp only [UInt32.isValidChar, Nat.isValidChar] at hvalid
  simp only [Char.toNat] at h hlt
  unfold String.utf8EncodeChar
  generalize c.val.toNat = n at *
  have hdiv : n / 4096 = n / 64 / 64 ∧ n / 262144 = n / 64 / 64 / 64 := by omega
  simp only [hdiv.1, hdiv.2]
  split_ifs
  · omega
  all_goals
    refine ⟨_, _, _, rfl, ?_, ?_, ?_, ?_, ?_, ?_⟩
    · rw [UInt8.toNat_ofNat']
      omega
    · rw [UInt8.toNat_ofNat']
      omega
    · simp only [UInt8.toNat_ofNat', List.length_cons, List.length_nil]
      split_ifs <;> omega
    · simp only [UInt8.toNat_ofNat']
      split_ifs <;> omega
    · simp only [UInt8.toNat_ofNat']
      split_ifs <;> omega
    · simp <;> omega

theorem ofUtf8Lossy_append (c : Char) (bytes : List UInt8) :
    ofUtf8Lossy (String.utf8EncodeChar c ++ bytes) = c :: ofUtf8Lossy bytes := by
  have hchar : ofUtf8? (String.utf8EncodeChar c) = some [c] := by
    rw [ofUtf8?_eq_some_iff, utf8_cons, utf8, List.flatMap_nil, List.append_nil]
  by_cases hascii : c.toNat < 0x80
  · have hone : String.utf8EncodeChar c = [UInt8.ofNat c.toNat] := by
      unfold String.utf8EncodeChar
      exact if_pos (Nat.le_of_lt_succ hascii)
    have hlt : UInt8.ofNat c.toNat < 0x80 := by
      rw [UInt8.lt_iff_toNat_lt, UInt8.toNat_ofNat']
      exact Nat.lt_of_le_of_lt (Nat.mod_le _ _) hascii
    have hback : Char.ofNat (UInt8.ofNat c.toNat).toNat = c := by
      rw [UInt8.toNat_ofNat', Nat.mod_eq_of_lt (by omega), Char.ofNat_toNat]
    rw [hone, List.singleton_append, ofUtf8Lossy, if_pos hlt, hback]
  · obtain ⟨b, d, rest, hbytes, hb, hlt, hlen, hlow, hhigh, hrest⟩ := exists_lead (Nat.le_of_not_lt hascii)
    obtain ⟨low, high, hcount, hl, hh⟩ := continuation_cases b hb hlt
    have hlead : ¬ b < 0x80 := by
      simp only [UInt8.lt_iff_toNat_lt, UInt8.reduceToNat]
      omega
    have hnumber : (if b.toNat < 0xE0 then 1 else if b.toNat < 0xF0 then 2 else 3) = rest.length + 1 := by
      rw [hlen]
      split_ifs <;> rfl
    have hall : continuing (rest.length + 1) low high (d :: (rest ++ bytes)) = rest.length + 1 := by
      have hbounds : low ≤ d ∧ d ≤ high := by
        rw [UInt8.le_iff_toNat_le, UInt8.le_iff_toNat_le, hl, hh]
        exact ⟨hlow, hhigh⟩
      rw [continuing, if_pos hbounds, continuing_of_all hrest]
    rw [hnumber] at hcount
    rw [hbytes, List.cons_append, List.cons_append, ofUtf8Lossy, if_neg hlead]
    have hrest' : (d :: (rest ++ bytes)).take (rest.length + 1) = d :: rest := by simp
    have hmore : (d :: (rest ++ bytes)).drop (rest.length + 1) = bytes := by simp
    simp only [hcount, hall, if_true, hrest', hmore, ← hbytes, hchar, Option.getD_some, List.singleton_append]

theorem ofUtf8Lossy_utf8 (s : List Char) : ofUtf8Lossy (utf8 s) = s := by
  induction s with
  | nil => simp [utf8, ofUtf8Lossy]
  | cons c s ih => rw [utf8_cons, ofUtf8Lossy_append, ih]

/-! ## Order -/

/-- The first byte that differs decides, so what follows the characters does not count. -/
theorem utf8EncodeChar_lt (h : c < d) (u v : List UInt8) :
    String.utf8EncodeChar c ++ u < String.utf8EncodeChar d ++ v := by
  have hlt := toNat_lt_toNat h
  have hd := toNat_lt d
  simp only [Char.toNat] at hlt hd
  unfold String.utf8EncodeChar
  generalize c.val.toNat = m at *
  generalize d.val.toNat = n at *
  have hdiv : ∀ k : Nat, k / 4096 = k / 64 / 64 ∧ k / 262144 = k / 64 / 64 / 64 := by omega
  simp only [(hdiv m).1, (hdiv m).2, (hdiv n).1, (hdiv n).2]
  -- Of two lengths the longer has the greater first byte. Within one length the bytes are digits to the base 64.
  split_ifs <;>
    simp only [List.cons_append, List.nil_append, List.cons_lt_cons_iff, UInt8.lt_iff_toNat_lt, ← UInt8.toNat_inj,
      UInt8.toNat_ofNat'] <;>
    omega

theorem utf8_lt (h : s < t) : utf8 s < utf8 t := by
  induction h with
  | nil =>
    rename_i d t
    obtain ⟨b, u, hb⟩ := List.exists_cons_of_ne_nil (String.utf8EncodeChar_ne_nil (c := d))
    rw [utf8_cons, hb, utf8]
    exact .nil
  | rel h => exact utf8_cons .. ▸ utf8_cons .. ▸ utf8EncodeChar_lt h _ _
  | cons h ih =>
    rw [utf8_cons, utf8_cons]
    exact List.append_left_lt ih

end LabelPress.Text
