import LabelPress.Delivery.Destination
import LabelPress.Proofs.Network.Addresses
import LabelPress.Proofs.Text.Blank

/-!
# Printers named by address

An endpoint is found again from its text, and an address from its own, which then has the port of raw
printing (`resolve_text`), however the system looks up hosts. Blanks around either do not count.
-/

namespace LabelPress.Delivery

open Network Text

/-! ## No blanks in an address -/

theorem not_isBlank_of_inAddress {c : Char} (h : InAddress c) : ¬ isBlank c := by
  intro hb
  have hall : ∀ n ∈ blankCodes, ¬ InAddress (Char.ofNat n) := by decide
  have := hall c.toNat (toNat_mem_blankCodes hb)
  rw [Char.ofNat_toNat] at this
  exact this h

theorem not_isBlank_of_mem_ip {c : Char} {ip : Ip} (h : c ∈ ip.text) : ¬ isBlank c :=
  not_isBlank_of_inAddress (Ip.inAddress_of_mem_text h)

theorem not_isBlank_of_mem_endpoint {c : Char} {e : Endpoint} (h : c ∈ e.text) : ¬ isBlank c := by
  cases e with
  | v4 ip p =>
    simp only [Endpoint.text, List.mem_append, List.mem_cons] at h
    rcases h with h | rfl | h
    · exact not_isBlank_of_inAddress (Ipv4.inAddress_of_mem_text h)
    · decide
    · exact not_isBlank_of_inAddress (inAddress_of_mem_decimal h)
  | v6 ip n p =>
    simp only [Endpoint.text, List.mem_append, List.mem_cons] at h
    rcases h with (((rfl | h) | h) | h) | h
    · decide
    · exact not_isBlank_of_inAddress (Ipv6.inAddress_of_mem_text h)
    · split_ifs at h
      · simp at h
      · rcases List.mem_cons.mp h with rfl | h
        · decide
        · exact not_isBlank_of_inAddress (inAddress_of_mem_decimal h)
    · have hmarks : c = ']' ∨ c = ':' := by simpa using h
      rcases hmarks with rfl | rfl
      · decide
      · decide
    · exact not_isBlank_of_inAddress (inAddress_of_mem_decimal h)

/-! ## Endpoints and addresses -/

/-- The text of an endpoint names it, and the text of an address names the endpoint with the port of raw printing,
also if the last group could be a port. Neither is ever looked up. -/
theorem resolve_text (lookUp : LookUp) {before after : List Char} (hbefore : ∀ c ∈ before, isBlank c)
    (hafter : ∀ c ∈ after, isBlank c) :
    (∀ e : Endpoint, resolve (before ++ e.text ++ after) lookUp = .ok e) ∧
      ∀ ip : Ip, resolve (before ++ ip.text ++ after) lookUp = .ok (ip.at rawPort) := by
  have htrim : ∀ s : List Char, (∀ c ∈ s, ¬ isBlank c) → trim (before ++ s ++ after) = s := fun s hs =>
    trim_eq_of_eq_append rfl hbefore hafter (trimmed_of_not_blank hs)
  constructor
  · intro e
    have hread := Endpoint.ofText?_text e
    have hne : e.text ≠ [] := by
      intro hnil
      rw [hnil] at hread
      exact absurd hread (by simp [show Endpoint.ofText? [] = none from rfl])
    simp only [resolve, htrim e.text fun c hc => not_isBlank_of_mem_endpoint hc, if_neg hne, hread]
  · intro ip
    have hread := Ip.ofText?_text ip
    have hne : ip.text ≠ [] := by
      intro hnil
      rw [hnil] at hread
      exact absurd hread (by simp [show Ip.ofText? [] = none from rfl])
    simp only [resolve, htrim ip.text fun c hc => not_isBlank_of_mem_ip hc, if_neg hne, hread,
      Endpoint.ofText?_ip]

/-- Knows every host, as this machine itself. -/
def atHome : LookUp := fun _ port => some (.v4 ⟨127, 0, 0, 1⟩ port)

/-- A scope, and a group that would be the port of raw printing. -/
theorem resolve_text_groups :
    resolve " [fe80::1%3]:515\n".toList atHome = .ok (.v6 ⟨[0xFE80, 0, 0, 0, 0, 0, 0, 1], rfl⟩ 3 515) ∧
      resolve " 1:2:3:4:5:6:7:9100\n".toList atHome = .ok (.v6 ⟨[1, 2, 3, 4, 5, 6, 7, 0x9100], rfl⟩ 0 9100) := by
  obtain ⟨hendpoint, hip⟩ := resolve_text atHome
    (List.forall_mem_singleton.mpr (by decide : isBlank ' ')) isBlank_of_mem_lineFeed
  exact ⟨hendpoint (.v6 ⟨[0xFE80, 0, 0, 0, 0, 0, 0, 1], rfl⟩ 3 515),
    hip (.v6 ⟨[1, 2, 3, 4, 5, 6, 7, 0x9100], rfl⟩)⟩

end LabelPress.Delivery
