import LabelPress.Number.Integer
import LabelPress.Proofs.Text.Search

/-!
# Reading decimal digits back

The decimal digits of a number are read as that number (`int64?_decimal`).
-/

namespace LabelPress.Number

variable {s rest : List Char} {n : Nat}

theorem digitsFrom_of_isDigit (h : ∀ c ∈ s, c.isDigit) (value : Nat) :
    digitsFrom value s = some (Nat.ofDigitChars 10 s value) := by
  induction s generalizing value with
  | nil => rw [digitsFrom, Nat.ofDigitChars_nil]
  | cons c s ih =>
    rw [List.forall_mem_cons] at h
    have hdigit : digit? c = some (c.toNat - '0'.toNat) := if_pos h.1
    rw [digitsFrom, hdigit, Nat.ofDigitChars_cons]
    exact ih h.2 _

theorem isDigit_of_mem_decimal {c : Char} (h : c ∈ decimal n) : c.isDigit :=
  Nat.isDigit_of_mem_toDigits (by decide) (by decide) h

theorem decimal_ne_nil (n : Nat) : decimal n ≠ [] := Nat.toDigits_ne_nil

theorem head?_decimal_ne (hn : 0 < n) : (decimal n).head? ≠ some '0' := by
  induction n using Nat.strongRecOn with
  | _ n ih =>
    by_cases hsmall : n < 10
    · have hdigit : ∀ k < 10, 0 < k → Nat.digitChar k ≠ '0' := by decide
      rw [decimal, Nat.toDigits_of_lt_base hsmall]
      simpa using hdigit n hsmall hn
    · rw [decimal, Nat.toDigits_of_base_le (by decide) (by omega), List.head?_append,
        Option.or_of_isSome (by simp [Nat.toDigits_ne_nil])]
      exact ih (n / 10) (by omega) (by omega)

theorem decimal_eq_of_head? (h : (decimal n).head? = some '0') : decimal n = ['0'] := by
  rcases Nat.eq_zero_or_pos n with rfl | hn
  · rfl
  · exact absurd h (head?_decimal_ne hn)

theorem takeWhile_decimal (h : ∀ c ∈ rest.head?, ¬ c.isDigit) (n : Nat) :
    (decimal n ++ rest).takeWhile Char.isDigit = decimal n ∧ (decimal n ++ rest).dropWhile Char.isDigit = rest :=
  Text.takeWhile_append_of_head (fun _ hc => isDigit_of_mem_decimal hc) h

theorem digits?_decimal (n : Nat) : digits? (decimal n) = some n := by
  have hvalue := digitsFrom_of_isDigit (fun c hc => isDigit_of_mem_decimal hc) 0 (s := decimal n)
  obtain ⟨c, s, hs⟩ := List.exists_cons_of_ne_nil (decimal_ne_nil n)
  rw [hs] at hvalue ⊢
  rw [digits?, hvalue, ← hs, decimal, Nat.ofDigitChars_ten_toDigits]
  simp

theorem signed?_decimal (n : Nat) : signed? (decimal n) = some (n : Int) := by
  unfold signed?
  split
  · next s hs =>
    have hminus : '-' ∈ decimal n := by simp [hs]
    exact absurd (isDigit_of_mem_decimal hminus) (by decide)
  · next s hs =>
    have hplus : '+' ∈ decimal n := by simp [hs]
    exact absurd (isDigit_of_mem_decimal hplus) (by decide)
  · rw [digits?_decimal]
    rfl

theorem int64?_decimal (h : (n : Int) ≤ maxInt64) : int64? (decimal n) = some (n : Int) := by
  have hmin : minInt64 ≤ (n : Int) := Int.le_trans (by decide) (Int.natCast_nonneg n)
  rw [int64?, signed?_decimal, Option.filter_some]
  simp [hmin, h]

end LabelPress.Number
