import LabelPress.Json.Node
import LabelPress.Proofs.Number.Decimal
import Mathlib.Tactic.SplitIfs

/-!
# Strings and numbers read back

A string is read back as it was written, with every character that it needs to escape
(`scanString_escape`). So is a number, as long as nothing behind it could be one more part of it
(`scanNumeral_text`).
-/

namespace LabelPress.Json

open Number

variable {n : Nat} {c : Char} {s rest : List Char} {d : Decimal}

/-! ## Strings -/

theorem hex4_eq : ∀ n < 0x20, hex4 n = ['0', '0', Nat.digitChar (n / 16), Nat.digitChar (n % 16)] := by
  decide

theorem hexUnit?_digitChar :
    ∀ n < 0x20, hexUnit? '0' '0' (Nat.digitChar (n / 16)) (Nat.digitChar (n % 16)) = some n := by
  decide

theorem pieces_plain (hquote : c ≠ '"') (hslash : c ≠ '\\') (hc : ¬ c.toNat < 0x20) (rest : List Char) :
    pieces (c :: rest) = (.char c :: (pieces rest).1, (pieces rest).2) := by
  rw [pieces.eq_def]
  split <;> simp_all

theorem pieces_unit (h : n < 0x20) (rest : List Char) :
    pieces ('\\' :: 'u' :: hex4 n ++ rest) = (.unit n :: (pieces rest).1, (pieces rest).2) := by
  rw [hex4_eq n h]
  simp only [List.cons_append, List.nil_append, pieces, hexUnit?_digitChar n h]

theorem assemble_unit (h : n < 0x20) (fault : Option Fault) (ps : List Piece) :
    assemble fault (.unit n :: ps) = (assemble fault ps).map (Char.ofNat n :: ·) := by
  have hlow : isLow n = false := by
    simp [isLow]
    omega
  have hhigh : isHigh n = false := by
    simp [isHigh]
    omega
  rw [assemble.eq_def]
  simp [hlow, hhigh]

theorem exists_pieces_escape (c : Char) (rest : List Char) :
    ∃ p, pieces (escape c ++ rest) = (p :: (pieces rest).1, (pieces rest).2) ∧
      ∀ ps, assemble none (p :: ps) = (assemble none ps).map (c :: ·) := by
  by_cases hshort : c ∈ ['"', '\\', '\x08', '\t', '\n', '\x0C', '\r']
  · refine ⟨.char c, ?_, fun _ => rfl⟩
    simp only [List.mem_cons, List.not_mem_nil, or_false] at hshort
    rcases hshort with rfl | rfl | rfl | rfl | rfl | rfl | rfl <;> rfl
  · simp only [List.mem_cons, List.not_mem_nil, or_false, not_or] at hshort
    obtain ⟨hquote, hslash, h8, ht, hn, hC, hr⟩ := hshort
    simp only [escape, hquote, hslash, h8, ht, hn, hC, hr, or_self, if_false]
    by_cases hc : c.toNat < 0x20
    · refine ⟨.unit c.toNat, ?_, fun ps => ?_⟩
      · rw [if_pos hc]
        exact pieces_unit hc rest
      · rw [assemble_unit hc, Char.ofNat_toNat]
    · exact ⟨.char c, by rw [if_neg hc]; exact pieces_plain hquote hslash hc rest, fun _ => rfl⟩

theorem exists_pieces (s rest : List Char) :
    ∃ ps, pieces (s.flatMap escape ++ '"' :: rest) = (ps, none, rest) ∧ assemble none ps = .ok s := by
  induction s with
  | nil => exact ⟨[], rfl, rfl⟩
  | cons c s ih =>
    obtain ⟨ps, hps, hs⟩ := ih
    obtain ⟨p, hp, hc⟩ := exists_pieces_escape c (s.flatMap escape ++ '"' :: rest)
    refine ⟨p :: ps, ?_, ?_⟩
    · rw [List.flatMap_cons, List.append_assoc, hp, hps]
    · rw [hc, hs]
      rfl

theorem scanString_escape (s rest : List Char) :
    scanString (s.flatMap escape ++ '"' :: rest) = (.good (String.ofList s), rest) := by
  obtain ⟨ps, hps, hs⟩ := exists_pieces s rest
  simp only [scanString, hps, hs]
  rfl

/-! ## Numbers -/

/-- A number with all that is written of it. -/
def Decimal.numeral (d : Decimal) : Numeral where
  negative := d.mantissa < 0
  whole := decimal d.mantissa.natAbs
  fraction := none
  exponent := if d.exponent = 0 then none else some (d.exponent < 0, decimal d.exponent.natAbs)

/-- What may follow a number: no digit, no point and no power of ten. -/
def Stops (rest : List Char) : Prop :=
  ∀ c ∈ rest.head?, ¬ c.isDigit ∧ c ≠ '.' ∧ c ≠ 'e' ∧ c ≠ 'E'

theorem signedDecimal_eq (n : Int) :
    signedDecimal n = (if n < 0 then ['-'] else []) ++ decimal n.natAbs := by
  cases n with
  | ofNat n => simp [signedDecimal]
  | negSucc n => simp [signedDecimal, Int.negSucc_lt_zero]

theorem scanExponent_text (hrest : Stops rest) (m : Numeral) (e : Int) :
    scanExponent m (signedDecimal e ++ rest) =
      (.good { m with exponent := some (e < 0, decimal e.natAbs) }, rest) := by
  obtain ⟨htake, hdrop⟩ := takeWhile_decimal (fun c hc => (hrest c hc).1) e.natAbs
  rw [signedDecimal_eq]
  by_cases he : e < 0
  · simp [scanExponent, htake, hdrop, decimal_ne_nil, he]
  · -- The first digit is no sign.
    obtain ⟨c, t, hc⟩ := List.exists_cons_of_ne_nil (decimal_ne_nil e.natAbs)
    have hdigit : c.isDigit := isDigit_of_mem_decimal (n := e.natAbs) (by simp [hc])
    have hplus : c ≠ '+' := fun h => absurd hdigit (by simp [h])
    have hminus : c ≠ '-' := fun h => absurd hdigit (by simp [h])
    rw [hc] at htake hdrop ⊢
    simp only [List.cons_append] at htake hdrop
    unfold scanExponent
    simp [htake, hdrop, he, hplus, hminus]

theorem scanPower_text (hrest : Stops rest) (m : Numeral) (hm : m.exponent = none) (e : Int) :
    scanPower m ((if e = 0 then [] else 'e' :: signedDecimal e) ++ rest) =
      (.good { m with exponent := if e = 0 then none else some (e < 0, decimal e.natAbs) }, rest) := by
  by_cases he : e = 0
  · rw [if_pos he, if_pos he, ← hm, List.nil_append]
    cases rest with
    | nil => rfl
    | cons c rest =>
      obtain ⟨-, -, hlower, hupper⟩ := hrest c rfl
      simp [scanPower, hlower, hupper]
  · rw [if_neg he, if_neg he, List.cons_append, scanPower, if_pos (.inl rfl), scanExponent_text hrest]

theorem scanFraction_text (hrest : Stops rest) (m : Numeral) (hm : m.exponent = none) (e : Int) :
    scanFraction m ((if e = 0 then [] else 'e' :: signedDecimal e) ++ rest) =
      (.good { m with exponent := if e = 0 then none else some (e < 0, decimal e.natAbs) }, rest) := by
  rw [← scanPower_text hrest m hm e]
  by_cases he : e = 0
  · rw [if_pos he, List.nil_append]
    cases rest with
    | nil => rfl
    | cons c rest => simp [scanFraction, (hrest c rfl).2.1]
  · simp [if_neg he, scanFraction]

theorem scanNumeral_text (hrest : Stops rest) (d : Decimal) :
    scanNumeral (d.mantissa < 0)
        (decimal d.mantissa.natAbs ++ ((if d.exponent = 0 then [] else 'e' :: signedDecimal d.exponent) ++ rest)) =
      (.good d.numeral, rest) := by
  have hdigit : ∀ c ∈ ((if d.exponent = 0 then [] else 'e' :: signedDecimal d.exponent) ++ rest).head?,
      ¬ c.isDigit := by
    intro c hc
    by_cases he : d.exponent = 0
    · rw [if_pos he] at hc
      exact (hrest c hc).1
    · rw [if_neg he] at hc
      obtain rfl : 'e' = c := by simpa using hc
      decide
  obtain ⟨htake, hdrop⟩ := takeWhile_decimal hdigit d.mantissa.natAbs
  have hzero : ¬ ((decimal d.mantissa.natAbs).head? = some '0' ∧ decimal d.mantissa.natAbs ≠ ['0']) :=
    fun h => h.2 (decimal_eq_of_head? h.1)
  simp only [scanNumeral, htake, hdrop, if_neg (decimal_ne_nil _), if_neg hzero]
  exact scanFraction_text hrest _ rfl d.exponent

theorem Decimal.text_eq (d : Decimal) : d.text = (if d.mantissa < 0 then ['-'] else []) ++
    (decimal d.mantissa.natAbs ++ if d.exponent = 0 then [] else 'e' :: signedDecimal d.exponent) := by
  rw [Decimal.text]
  split_ifs <;> simp_all [signedDecimal_eq]

end LabelPress.Json
