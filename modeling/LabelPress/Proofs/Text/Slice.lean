import LabelPress.Text.Bytes

/-!
# Parts of a text between two offsets

Offsets count bytes. A part that begins and ends between two characters is found again from its
offsets (`slice_append`).
-/

namespace LabelPress.Text

/-- The text after its first bytes. A character that only begins in them is left out with them. -/
def dropBytes : Nat → List Char → List Char
  | 0, s => s
  | _ + 1, [] => []
  | n + 1, c :: s => dropBytes (n + 1 - c.utf8Size) s

/-- The characters that begin in the first bytes of the text. -/
def takeBytes : Nat → List Char → List Char
  | 0, _ => []
  | _ + 1, [] => []
  | n + 1, c :: s => c :: takeBytes (n + 1 - c.utf8Size) s

/-- The text from one offset to another. -/
def slice (s : List Char) (start stop : Nat) : List Char :=
  takeBytes (stop - start) (dropBytes start s)

theorem dropBytes_append (u s : List Char) : dropBytes (byteLength u) (u ++ s) = s := by
  induction u with
  | nil => simp [dropBytes]
  | cons c u ih =>
    obtain ⟨n, hn⟩ : ∃ n, byteLength (c :: u) = n + 1 :=
      Nat.exists_eq_succ_of_ne_zero (by have := c.utf8Size_pos; simp; omega)
    rw [hn, List.cons_append, dropBytes, ← hn, byteLength_cons, Nat.add_sub_cancel_left, ih]

theorem takeBytes_append (u s : List Char) : takeBytes (byteLength u) (u ++ s) = u := by
  induction u with
  | nil => simp [takeBytes]
  | cons c u ih =>
    obtain ⟨n, hn⟩ : ∃ n, byteLength (c :: u) = n + 1 :=
      Nat.exists_eq_succ_of_ne_zero (by have := c.utf8Size_pos; simp; omega)
    rw [hn, List.cons_append, takeBytes, ← hn, byteLength_cons, Nat.add_sub_cancel_left, ih]

theorem slice_append (u m w : List Char) :
    slice (u ++ m ++ w) (byteLength u) (byteLength (u ++ m)) = m := by
  rw [slice, List.append_assoc, dropBytes_append, byteLength_append, Nat.add_sub_cancel_left, takeBytes_append]

theorem exists_append_of_byteLength_le {u v s t : List Char} (h : u ++ s = v ++ t)
    (hle : byteLength u ≤ byteLength v) : ∃ w, v = u ++ w := by
  rcases List.append_eq_append_iff.mp h with ⟨w, hv, -⟩ | ⟨w, hu, -⟩
  · exact ⟨w, hv⟩
  · cases w with
    | nil => exact ⟨[], by simpa using hu.symm⟩
    | cons c w =>
      have := c.utf8Size_pos
      rw [hu, byteLength_append, byteLength_cons] at hle
      omega

end LabelPress.Text
