import LabelPress.Network.Parser
import LabelPress.Proofs.Number.Decimal

/-!
# Numbers of an address read back

The parts of an address are numbers: bytes and ports with decimal digits, groups with hexadecimal
ones. A number is read back as it was written, as long as no digit stands behind it.
-/

namespace LabelPress.Network

open Number

variable {rest : List Char}

/-- No hexadecimal digit stands in front. -/
def NoDigit (rest : List Char) : Prop :=
  ∀ c ∈ rest.head?, hexDigit? c = none

theorem isSome_hexDigit?_of_isDigit {c : Char} (h : c.isDigit) : (hexDigit? c).isSome := by
  rw [hexDigit?, if_pos h]
  rfl

theorem NoDigit.not_isDigit (h : NoDigit rest) : ∀ c ∈ rest.head?, ¬ c.isDigit := by
  intro c hc hdigit
  have := isSome_hexDigit?_of_isDigit hdigit
  simp [h c hc] at this

/-! ## Decimal digits -/

theorem decimalUpTo_decimal {n limit : Nat} (hn : n ≤ limit) (h : NoDigit rest) :
    decimalUpTo limit (decimal n ++ rest) = some (n, rest) := by
  obtain ⟨htake, hdrop⟩ := takeWhile_decimal h.not_isDigit n
  simp only [decimalUpTo, htake, hdrop, digits?_decimal, if_pos hn]

theorem octet_decimal (h : NoDigit rest) (b : UInt8) : octet (decimal b.toNat ++ rest) = some (b, rest) := by
  obtain ⟨htake, -⟩ := takeWhile_decimal h.not_isDigit b.toNat
  have hb : b.toNat < 256 := b.toNat_lt
  have hlen : (decimal b.toNat).length ≤ 3 :=
    (Nat.length_toDigits_le_iff (by decide) (by decide)).mpr (by omega)
  rw [octet, htake, if_pos ⟨hlen, decimal_eq_of_head?⟩, decimalUpTo_decimal (by omega) h]
  simp

theorem port_decimal (h : NoDigit rest) (p : UInt16) : port (':' :: decimal p.toNat ++ rest) = some (p, rest) := by
  have hp : p.toNat < 65536 := p.toNat_lt
  simp [port, char, decimalUpTo_decimal (show p.toNat ≤ 65535 by omega) h]

theorem scope_text (h : NoDigit rest) (hrest : rest.head? ≠ some '%') (n : UInt32) :
    scope ((if n = 0 then [] else '%' :: decimal n.toNat) ++ rest) = some (n, rest) := by
  split
  · next hn =>
    rw [List.nil_append, scope.eq_def, hn]
    split
    · simp at hrest
    · rfl
  · have hn : n.toNat < 4294967296 := n.toNat_lt
    simp [scope, decimalUpTo_decimal (show n.toNat ≤ 4294967295 by omega) h]

/-! ## Hexadecimal digits -/

theorem hexDigit?_digitChar : ∀ d < 16, hexDigit? (Nat.digitChar d) = some d := by decide

theorem isSome_hexDigit?_of_mem {c : Char} {n : Nat} (h : c ∈ Nat.toDigits 16 n) : (hexDigit? c).isSome := by
  induction n using Nat.strongRecOn with
  | _ n ih =>
    by_cases hsmall : n < 16
    · obtain rfl : c = Nat.digitChar n := by simpa [Nat.toDigits_of_lt_base hsmall] using h
      simp [hexDigit?_digitChar n hsmall]
    · rw [Nat.toDigits_of_base_le (by decide) (by omega), List.mem_append, List.mem_singleton] at h
      rcases h with h | rfl
      · exact ih (n / 16) (by omega) h
      · simp [hexDigit?_digitChar (n % 16) (by omega)]

theorem hexNumber_toDigits (n : Nat) : hexNumber (Nat.toDigits 16 n) = n := by
  induction n using Nat.strongRecOn with
  | _ n ih =>
    by_cases hsmall : n < 16
    · simp [hexNumber, Nat.toDigits_of_lt_base hsmall, hexDigit?_digitChar n hsmall]
    · have hfront : hexNumber (Nat.toDigits 16 (n / 16)) = n / 16 := ih (n / 16) (by omega)
      rw [Nat.toDigits_of_base_le (by decide) (by omega)]
      rw [hexNumber] at hfront ⊢
      rw [List.foldl_append, hfront, List.foldl_cons, List.foldl_nil, hexDigit?_digitChar (n % 16) (by omega)]
      exact Nat.div_add_mod n 16

theorem hexGroup_toDigits (h : NoDigit rest) (g : UInt16) :
    hexGroup (Nat.toDigits 16 g.toNat ++ rest) = some (g, rest) := by
  have hrest : ∀ c ∈ rest.head?, ¬ (hexDigit? c).isSome := fun c hc => by simp [h c hc]
  have hdigits : ∀ c ∈ Nat.toDigits 16 g.toNat, (hexDigit? c).isSome := fun c hc => isSome_hexDigit?_of_mem hc
  obtain ⟨htake, hdrop⟩ := Text.takeWhile_append_of_head hdigits hrest
  have hg : g.toNat < 65536 := g.toNat_lt
  have hlen : (Nat.toDigits 16 g.toNat).length ≤ 4 :=
    (Nat.length_toDigits_le_iff (by decide) (by decide)).mpr (by omega)
  simp only [hexGroup, htake, hdrop, hexNumber_toDigits]
  rw [if_pos ⟨Nat.length_toDigits_pos, hlen⟩, UInt16.ofNat_toNat]

end LabelPress.Network
