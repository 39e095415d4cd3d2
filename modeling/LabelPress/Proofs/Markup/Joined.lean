import LabelPress.Proofs.Markup.Parts

/-!
# Texts one behind the other

Where a leader begins the second of two texts and no field data of the first is left open, each is read as if it
stood alone (`tokenize_append`).
-/

namespace LabelPress.Markup

open Text

/-- The token of the same command that many bytes further on. -/
def Token.shift (n : Nat) (t : Token) : Token := { t with start := t.start + n, stop := t.stop + n }

variable {l : Leaders}

theorem Span.token_add (p : Span) (offset n : Nat) : p.token (offset + n) = (p.token offset).shift n := by
  simp only [Span.token, Token.shift, Token.mk.injEq, true_and]
  omega

theorem scan_add (l : Leaders) (offset n : Nat) (s : List Char) :
    scan l (offset + n) s = (scan l offset s).map (Token.shift n) := by
  induction s using text_induction (l := l) generalizing offset with
  | nil => simp [scan_nil]
  | skip c s hskip ih => rw [scan_skip hskip, scan_skip hskip, Nat.add_right_comm, ih]
  | span p rest hp ih =>
    rw [scan_span hp, scan_span hp, List.map_cons, p.token_add, Nat.add_right_comm, ih]

/-- The tokens of two texts one behind the other are those of the first and those of the second, with the offsets
that the second has behind the first. -/
theorem tokenize_append (l : Leaders) (a b : List Char) (hl : ∀ c, l.isLeader c → ¬ isAlphanumeric c ∧ c ≠ '@')
    (ha : ∀ t ∈ tokenize l a, t.name = fieldData → l.terminator <:+ slice a t.start t.stop)
    (hb : b = [] ∨ ∃ c s, b = c :: s ∧ l.isLeader c) :
    tokenize l (a ++ b) = tokenize l a ++ (tokenize l b).map (Token.shift (byteLength a)) := by
  have hapart : l.Apart := ⟨fun c hc => (hl c hc).1, fun hat => (hl '@' hat).2 rfl⟩
  have hhead : ∀ c ∈ b.head?, l.isLeader c := by
    rcases hb with rfl | ⟨c, s, rfl, hc⟩
    · simp
    · simpa using hc
  have hscan := scan_append hapart (sealed_of_tokens hapart ha) hhead 0
  rw [scan_add l 0 (byteLength a) b] at hscan
  exact hscan

/-- A text that ends in a font command, and is followed by field data without an end. -/
theorem tokenize_append_font :
    let l : Leaders := { command := '#' }
    (∀ c, l.isLeader c → ¬ isAlphanumeric c ∧ c ≠ '@') ∧
      (∀ t ∈ tokenize l "ab#FDé#FS##A".toList, t.name = fieldData →
        l.terminator <:+ slice "ab#FDé#FS##A".toList t.start t.stop) ∧
      tokenize l ("ab#FDé#FS##A".toList ++ "#FD~x".toList) =
        [⟨fieldData, ['é'], 2, 10⟩, ⟨['A'], [], 11, 13⟩, ⟨fieldData, ['~', 'x'], 13, 18⟩] := by
  intro l
  have hl : ∀ c, l.isLeader c → ¬ isAlphanumeric c ∧ c ≠ '@' := by
    intro c hc
    have hsign : c = '#' ∨ c = '~' := by simpa [l, Leaders.isLeader] using hc
    rcases hsign with rfl | rfl <;> decide
  have hfirst : tokenize l "ab#FDé#FS##A".toList = [⟨fieldData, ['é'], 2, 10⟩, ⟨['A'], [], 11, 13⟩] := by
    decide +kernel
  have hsecond : tokenize l "#FD~x".toList = [⟨fieldData, ['~', 'x'], 0, 5⟩] := by
    decide +kernel
  have hclosed : ∀ t ∈ tokenize l "ab#FDé#FS##A".toList, t.name = fieldData →
      l.terminator <:+ slice "ab#FDé#FS##A".toList t.start t.stop := by
    rw [hfirst]
    decide
  have hleader : "#FD~x".toList = [] ∨ ∃ c s, "#FD~x".toList = c :: s ∧ l.isLeader c :=
    .inr ⟨'#', "FD~x".toList, rfl, rfl⟩
  refine ⟨hl, hclosed, ?_⟩
  rw [tokenize_append l _ _ hl hclosed hleader, hfirst, hsecond]
  rfl

end LabelPress.Markup
