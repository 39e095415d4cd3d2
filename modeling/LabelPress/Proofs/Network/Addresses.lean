import LabelPress.Proofs.Network.Numbers
import Mathlib.Data.List.Basic
import Mathlib.Data.List.TakeWhile
import Mathlib.Tactic.SplitIfs

/-!
# Addresses read back

An address of either version is read back as it was written, as long as nothing behind it could be
more of an address (`ipv4_text`, `ipv6_text`). An endpoint is read back from its text and an address
from its own, and the text of an address alone is no text of an endpoint (`Endpoint.ofText?_ip`).
-/

namespace LabelPress.Network

open Number

variable {rest : List Char}

/-! ## Characters of an address -/

/-- What the text of an address is made of. -/
def InAddress (c : Char) : Prop :=
  (hexDigit? c).isSome ∨ c = ':' ∨ c = '.'

instance (c : Char) : Decidable (InAddress c) :=
  inferInstanceAs (Decidable (_ ∨ _ ∨ _))

/-- Nothing that could be more of an address stands in front. -/
def Ends (rest : List Char) : Prop :=
  ∀ c ∈ rest.head?, ¬ InAddress c

theorem Ends.noDigit (h : Ends rest) : NoDigit rest := by
  intro c hc
  have hnone : ¬ (hexDigit? c).isSome := fun hsome => h c hc (.inl hsome)
  simpa using hnone

theorem Ends.head_ne (h : Ends rest) {c : Char} (hc : InAddress c) : rest.head? ≠ some c :=
  fun hhead => h c hhead hc

theorem ends_nil : Ends [] := by simp [Ends]

theorem ends_cons {c : Char} (h : ¬ InAddress c) (s : List Char) : Ends (c :: s) := by
  simpa [Ends] using h

theorem noDigit_cons {c : Char} (h : hexDigit? c = none) (s : List Char) : NoDigit (c :: s) := by
  simpa [NoDigit] using h

theorem inAddress_of_mem_decimal {c : Char} {n : Nat} (h : c ∈ decimal n) : InAddress c :=
  .inl (isSome_hexDigit?_of_isDigit (isDigit_of_mem_decimal h))

theorem Ipv4.inAddress_of_mem_text {c : Char} {ip : Ipv4} (h : c ∈ ip.text) : InAddress c := by
  simp only [Ipv4.text, List.mem_append, List.mem_cons] at h
  rcases h with ((h | rfl | h) | rfl | h) | rfl | h
  all_goals first | exact inAddress_of_mem_decimal h | exact .inr (.inr rfl)

theorem groupsText_cons_cons (g h : UInt16) (gs : List UInt16) :
    groupsText (g :: h :: gs) = Nat.toDigits 16 g.toNat ++ ':' :: groupsText (h :: gs) := by
  simp [groupsText, List.intercalate]

theorem groupsText_singleton (g : UInt16) : groupsText [g] = Nat.toDigits 16 g.toNat := by
  simp [groupsText, List.intercalate]

theorem inAddress_of_mem_groupsText {c : Char} {gs : List UInt16} (h : c ∈ groupsText gs) : InAddress c := by
  induction gs with
  | nil => simp [groupsText] at h
  | cons g gs ih =>
    cases gs with
    | nil =>
      rw [groupsText_singleton] at h
      exact .inl (isSome_hexDigit?_of_mem h)
    | cons g' gs =>
      rw [groupsText_cons_cons, List.mem_append, List.mem_cons] at h
      rcases h with h | rfl | h
      · exact .inl (isSome_hexDigit?_of_mem h)
      · exact .inr (.inl rfl)
      · exact ih h

theorem Ipv6.inAddress_of_mem_text {c : Char} {ip : Ipv6} (h : c ∈ ip.text) : InAddress c := by
  unfold Ipv6.text at h
  split at h
  · rcases List.mem_append.mp h with h | h
    · have hmarks : c = ':' ∨ c = 'f' ∨ c = ':' := by simpa using h
      rcases hmarks with rfl | rfl | rfl
      all_goals decide
    · exact Ipv4.inAddress_of_mem_text h
  · split at h
    split_ifs at h
    · simp only [List.mem_append, List.mem_cons, List.not_mem_nil, or_false, or_self] at h
      rcases h with (h | rfl) | h
      · exact inAddress_of_mem_groupsText h
      · exact .inr (.inl rfl)
      · exact inAddress_of_mem_groupsText h
    · exact inAddress_of_mem_groupsText h

theorem Ip.inAddress_of_mem_text {c : Char} {ip : Ip} (h : c ∈ ip.text) : InAddress c := by
  cases ip with
  | v4 ip => exact Ipv4.inAddress_of_mem_text h
  | v6 ip => exact Ipv6.inAddress_of_mem_text h

/-! ## Version 4 -/

theorem char_eq_none {c : Char} {s : List Char} (h : s.head? ≠ some c) : char c s = none := by
  cases s with
  | nil => rfl
  | cons d s =>
    rw [char, if_neg]
    rintro rfl
    exact h rfl

theorem ipv4_text (h : NoDigit rest) (ip : Ipv4) : ipv4 (ip.text ++ rest) = some (ip, rest) := by
  have hpoint : ∀ s, NoDigit ('.' :: s) := noDigit_cons (by decide)
  simp [ipv4, Ipv4.text, char, octet_decimal (hpoint _), octet_decimal h]

theorem ipv4_of_noDigit (h : NoDigit rest) : ipv4 rest = none := by
  have hdigits : rest.takeWhile Char.isDigit = [] := by
    cases rest with
    | nil => rfl
    | cons c rest => exact List.takeWhile_cons_of_neg (h.not_isDigit c rfl)
  have hoctet : octet rest = none := by simp [octet, decimalUpTo, hdigits, digits?]
  simp [ipv4, hoctet]

theorem ipv4_eq_none {s : List Char} (h : (s.dropWhile Char.isDigit).head? ≠ some '.') : ipv4 s = none := by
  cases hoctet : octet s with
  | none => simp [ipv4, hoctet]
  | some read =>
    obtain ⟨a, t⟩ := read
    obtain rfl : s.dropWhile Char.isDigit = t := by
      simp only [octet, decimalUpTo] at hoctet
      split_ifs at hoctet
      split at hoctet
      · split_ifs at hoctet
        · exact (Prod.mk.inj (Option.some.inj hoctet)).2
        · simp at hoctet
      · simp at hoctet
    simp [ipv4, hoctet, char_eq_none h]

theorem ipv4_group (hrest : NoDigit rest) (hpoint : rest.head? ≠ some '.') (n : Nat) :
    ipv4 (Nat.toDigits 16 n ++ rest) = none := by
  apply ipv4_eq_none
  rw [List.dropWhile_append]
  split_ifs with hempty
  · cases rest with
    | nil => simp
    | cons c rest => rwa [List.dropWhile_cons_of_neg (hrest.not_isDigit c rfl)]
  · rw [List.head?_append_of_ne_nil _ (by simpa using hempty)]
    intro hhead
    have hmem : '.' ∈ Nat.toDigits 16 n := List.dropWhile_subset _ (List.mem_of_mem_head? hhead)
    exact absurd (isSome_hexDigit?_of_mem hmem) (by decide)

theorem ipv4_groupsText (hrest : NoDigit rest) (hpoint : rest.head? ≠ some '.') (gs : List UInt16) :
    ipv4 (groupsText gs ++ rest) = none := by
  match gs with
  | [] => exact ipv4_of_noDigit hrest
  | [g] =>
    rw [groupsText_singleton]
    exact ipv4_group hrest hpoint g.toNat
  | g :: h :: gs =>
    rw [groupsText_cons_cons, List.append_assoc]
    exact ipv4_group (noDigit_cons (by decide) _) (by simp) g.toNat

/-! ## Groups -/

section Groups

variable {first : Bool} {s : List Char} {g : UInt16} {gs : List UInt16}

theorem hexGroups_group (hsep : separator first s = some ((), Nat.toDigits 16 g.toNat ++ rest))
    (hrest : NoDigit rest) (hpoint : rest.head? ≠ some '.') (room : Nat) :
    hexGroups first (room + 1) s = (g :: (hexGroups false room rest).1, (hexGroups false room rest).2) := by
  rw [hexGroups, hsep]
  simp [ipv4_group hrest hpoint, hexGroup_toDigits hrest]

theorem hexGroups_eq_nil (h : ∀ t, separator first s = some ((), t) → NoDigit t) (room : Nat) :
    hexGroups first room s = ([], false, s) := by
  cases room with
  | zero => rfl
  | succ room =>
    rw [hexGroups]
    cases hsep : separator first s with
    | none => simp
    | some read =>
      have ht := h read.2 hsep
      have hdigits : read.2.takeWhile (fun c => (hexDigit? c).isSome) = [] := by
        cases hread : read.2 with
        | nil => rfl
        | cons c t =>
          rw [hread] at ht
          exact List.takeWhile_cons_of_neg (by simp [ht c rfl])
      simp [ipv4_of_noDigit ht, hexGroup, hdigits]

theorem hexGroups_cons (hrest : NoDigit rest) (hpoint : rest.head? ≠ some '.') (room : Nat)
    (hsep : separator first s = some ((), groupsText (g :: gs) ++ rest)) :
    hexGroups first (gs.length + 1 + room) s =
      (g :: gs ++ (hexGroups false room rest).1, (hexGroups false room rest).2) := by
  -- Only the first group may stand without a colon in front.
  induction gs generalizing first s g with
  | nil =>
    rw [groupsText_singleton] at hsep
    rw [List.length_nil, Nat.zero_add, Nat.add_comm]
    exact hexGroups_group hsep hrest hpoint room
  | cons h gs ih =>
    rw [groupsText_cons_cons, List.append_assoc] at hsep
    have hbehind : hexGroups false (gs.length + 1 + room) (':' :: groupsText (h :: gs) ++ rest) =
        (h :: gs ++ (hexGroups false room rest).1, (hexGroups false room rest).2) := ih rfl
    rw [List.length_cons, Nat.add_right_comm,
      hexGroups_group hsep (noDigit_cons (by decide) _) (by simp), hbehind]
    rfl

theorem hexGroups_groupsText (hrest : NoDigit rest) (hpoint : rest.head? ≠ some '.') (room : Nat)
    (hend : hexGroups false room rest = ([], false, rest)) (gs : List UInt16) :
    hexGroups true (gs.length + room) (groupsText gs ++ rest) = (gs, false, rest) := by
  cases gs with
  | nil =>
    refine hexGroups_eq_nil (fun t ht => ?_) _
    obtain rfl : rest = t := by simpa [separator, groupsText] using ht
    exact hrest
  | cons g gs =>
    rw [List.length_cons, hexGroups_cons hrest hpoint room rfl, hend, List.append_nil]

theorem fillZeros_eq {ip : Ipv6} {head tail : List UInt16} {n : Nat}
    (h : ip.groups = head ++ List.replicate n 0 ++ tail) : fillZeros head tail = some ip := by
  obtain ⟨groups, hlength⟩ := ip
  obtain rfl : groups = head ++ List.replicate n 0 ++ tail := h
  have hn : 8 - head.length - tail.length = n := by
    simp only [List.length_append, List.length_replicate] at hlength
    omega
  simp only [fillZeros, hn]
  rw [dif_pos hlength]

end Groups

/-! ## Version 6 -/

theorem exists_longestZeros (gs : List UInt16) : ∃ head tail,
    gs = head ++ List.replicate (longestZeros gs).2 0 ++ tail ∧ (longestZeros gs).1 = head.length := by
  induction gs with
  | nil => exact ⟨[], [], rfl, rfl⟩
  | cons g gs ih =>
    have hstep : longestZeros (g :: gs) = if (longestZeros gs).2 ≤ zeroRun (g :: gs)
        then (0, zeroRun (g :: gs)) else ((longestZeros gs).1 + 1, (longestZeros gs).2) := rfl
    rw [hstep]
    split_ifs
    · -- The run in front is the longest.
      have hzeros : (g :: gs).takeWhile (· == 0) = List.replicate (zeroRun (g :: gs)) 0 :=
        List.eq_replicate_iff.mpr ⟨rfl, fun b hb => by simpa using List.mem_takeWhile_imp hb⟩
      refine ⟨[], (g :: gs).dropWhile (· == 0), ?_, rfl⟩
      rw [List.nil_append, ← hzeros, List.takeWhile_append_dropWhile]
    · obtain ⟨head, tail, hgs, hstart⟩ := ih
      refine ⟨g :: head, tail, ?_, by simp [hstart]⟩
      rw [List.cons_append, List.cons_append, ← hgs]

theorem hexGroups_of_ends (h : Ends rest) (room : Nat) : hexGroups false room rest = ([], false, rest) := by
  refine hexGroups_eq_nil (fun t ht => ?_) room
  simp [separator, char_eq_none (h.head_ne (.inr (.inl rfl)))] at ht

theorem hexGroups_colons (room : Nat) (s : List Char) :
    hexGroups false room (':' :: ':' :: s) = ([], false, ':' :: ':' :: s) := by
  refine hexGroups_eq_nil (fun t ht => ?_) room
  obtain rfl : ':' :: s = t := by simpa [separator, char] using ht
  exact noDigit_cons (by decide) s

theorem ipv6_groupsText (h : Ends rest) (ip : Ipv6) : ipv6 (groupsText ip.groups ++ rest) = some (ip, rest) := by
  have hread := hexGroups_groupsText h.noDigit (h.head_ne (.inr (.inr rfl))) 0 rfl ip.groups
  have hfill : fillZeros ip.groups [] = some ip := fillZeros_eq (n := 0) (by simp)
  rw [ip.length_groups, Nat.add_zero] at hread
  simp [ipv6, hread, ip.length_groups, hfill]

/-- Zeros are left out, however the groups behind them are written. -/
theorem ipv6_colons {ip : Ipv6} {head tail : List UInt16} {n : Nat} {closed : Bool} {s : List Char}
    (hgroups : ip.groups = head ++ List.replicate n 0 ++ tail) (hn : 0 < n)
    (htail : hexGroups true (7 - head.length) s = (tail, closed, rest)) :
    ipv6 (groupsText head ++ ':' :: ':' :: s) = some (ip, rest) := by
  have hlength : head.length + n + tail.length = 8 := by
    simpa [hgroups, Nat.add_assoc] using ip.length_groups
  have hhead := hexGroups_groupsText (noDigit_cons (by decide) _) (by simp) (8 - head.length)
    (hexGroups_colons _ s) head
  rw [Nat.add_sub_cancel' (by omega)] at hhead
  simp [ipv6, hhead, htail, char, fillZeros_eq hgroups, show head.length ≠ 8 by omega]

theorem ipv6_shortened (h : Ends rest) {ip : Ipv6} {head tail : List UInt16} {n : Nat}
    (hgroups : ip.groups = head ++ List.replicate n 0 ++ tail) (hn : 0 < n) :
    ipv6 (groupsText head ++ ':' :: ':' :: (groupsText tail ++ rest)) = some (ip, rest) := by
  have hlength : head.length + n + tail.length = 8 := by
    simpa [hgroups, Nat.add_assoc] using ip.length_groups
  have htail := hexGroups_groupsText h.noDigit (h.head_ne (.inr (.inr rfl))) (7 - head.length - tail.length)
    (hexGroups_of_ends h _) tail
  rw [Nat.add_sub_cancel' (by omega)] at htail
  exact ipv6_colons hgroups hn htail

theorem group_groupBytes (g : UInt16) : group (groupBytes g).1 (groupBytes g).2 = g := by
  have hg : g.toNat < 65536 := g.toNat_lt
  apply UInt16.toNat_inj.mp
  simp [group, groupBytes]
  omega

theorem mapped?_eq_some {ip : Ipv6} {v4 : Ipv4} (h : ip.mapped? = some v4) :
    ip.groups = [] ++ List.replicate 5 0 ++ [0xFFFF, group v4.a v4.b, group v4.c v4.d] := by
  unfold Ipv6.mapped? at h
  split at h
  · next hgroups =>
    obtain rfl := Option.some.inj h
    rw [hgroups, group_groupBytes, group_groupBytes]
    rfl
  · simp at h

theorem hexGroups_embedded (hrest : NoDigit rest) (v4 : Ipv4) (room : Nat) :
    hexGroups false (room + 2) (':' :: (v4.text ++ rest)) =
      ([group v4.a v4.b, group v4.c v4.d], true, rest) := by
  rw [hexGroups]
  simp [separator, char, ipv4_text hrest]

theorem ipv6_mapped (hrest : NoDigit rest) {ip : Ipv6} {v4 : Ipv4} (hmapped : ip.mapped? = some v4) :
    ipv6 ("::ffff:".toList ++ v4.text ++ rest) = some (ip, rest) := by
  have htail : hexGroups true 7 ("ffff".toList ++ ':' :: (v4.text ++ rest)) =
      ([0xFFFF, group v4.a v4.b, group v4.c v4.d], true, rest) := by
    rw [hexGroups_group (g := 0xFFFF) rfl (noDigit_cons (by decide) _) (by simp) 6,
      hexGroups_embedded hrest v4 4]
  exact ipv6_colons (mapped?_eq_some hmapped) (by decide) htail

theorem ipv6_text (h : Ends rest) (ip : Ipv6) : ipv6 (ip.text ++ rest) = some (ip, rest) := by
  unfold Ipv6.text
  split
  · next v4 hmapped => exact ipv6_mapped h.noDigit hmapped
  · obtain ⟨head, tail, hgroups, hstart⟩ := exists_longestZeros ip.groups
    split
    next start length hrun =>
    rw [hrun] at hgroups hstart
    obtain rfl : start = head.length := hstart
    split_ifs with hlong
    · have htake : ip.groups.take head.length = head := by simp [hgroups]
      have hdrop : ip.groups.drop (head.length + length) = tail := by simp [hgroups, ← List.drop_drop]
      have := ipv6_shortened h hgroups (by omega)
      simpa [htake, hdrop] using this
    · exact ipv6_groupsText h ip

theorem Ipv6.ipv4_text_eq_none (ip : Ipv6) : ipv4 ip.text = none := by
  unfold Ipv6.text
  split
  · exact ipv4_of_noDigit (noDigit_cons (by decide) _)
  · split
    split_ifs
    · rw [List.append_assoc]
      exact ipv4_groupsText (noDigit_cons (by decide) _) (by simp) _
    · rw [← List.append_nil (groupsText _)]
      exact ipv4_groupsText ends_nil.noDigit (by simp) _

/-! ## Endpoints -/

theorem Endpoint.ofText?_text (e : Endpoint) : Endpoint.ofText? e.text = some e := by
  have hport := port_decimal ends_nil.noDigit e.port
  rw [List.append_nil] at hport
  rw [Endpoint.ofText?, whole]
  cases e with
  | v4 ip p =>
    have hip := ipv4_text (noDigit_cons (c := ':') (by decide) (decimal p.toNat)) ip
    rw [Endpoint.port] at hport
    simp [endpointV4, Endpoint.text, hip, hport]
  | v6 ip n p =>
    have hv4 : ∀ s, ipv4 ('[' :: s) = none := fun s => ipv4_of_noDigit (noDigit_cons (by decide) s)
    have hscope := scope_text (noDigit_cons (c := ']') (by decide) (':' :: decimal p.toNat)) (by simp) n
    have hends : Ends ((if n = 0 then [] else '%' :: decimal n.toNat) ++ ']' :: ':' :: decimal p.toNat) := by
      split_ifs
      · exact ends_cons (by decide) _
      · exact ends_cons (by decide) _
    rw [Endpoint.port] at hport
    simp [endpointV4, endpointV6, Endpoint.text, hv4, char, ipv6_text hends, hscope, hport]

theorem Ip.ofText?_text (ip : Ip) : Ip.ofText? ip.text = some ip := by
  rw [Ip.ofText?, whole]
  cases ip with
  | v4 ip =>
    have hip := ipv4_text ends_nil.noDigit ip
    rw [List.append_nil] at hip
    simp [Ip.text, hip]
  | v6 ip =>
    have hip := ipv6_text ends_nil ip
    rw [List.append_nil] at hip
    simp [Ip.text, ip.ipv4_text_eq_none, hip]

theorem Endpoint.ofText?_ip (ip : Ip) : Endpoint.ofText? ip.text = none := by
  have hbracket : char '[' ip.text = none := by
    refine char_eq_none fun hhead => ?_
    exact absurd (Ip.inAddress_of_mem_text (List.mem_of_mem_head? hhead)) (by decide)
  have hv4 : endpointV4 ip.text = none := by
    cases ip with
    | v4 ip =>
      have hip := ipv4_text ends_nil.noDigit ip
      rw [List.append_nil] at hip
      have hport : Network.port [] = none := rfl
      simp [endpointV4, Ip.text, hip, hport]
    | v6 ip => simp [endpointV4, Ip.text, ip.ipv4_text_eq_none]
  simp [Endpoint.ofText?, whole, hv4, endpointV6, hbracket]

end LabelPress.Network
