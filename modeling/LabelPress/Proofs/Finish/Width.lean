import LabelPress.Finish.Finish
import LabelPress.Proofs.Estimate.Asked
import LabelPress.Proofs.Estimate.LineCount
import LabelPress.Proofs.Markup.Parts

/-!
# The width command changes no length

The width command goes behind the first opening in the text. If that is a command, one more command that
means nothing to lengths follows it. If it stands in field data, the field data keeps its lines. Either way
a label asks for the same lengths and reaches as far as before (`alike_insertWidth`).
-/

namespace LabelPress.Finish

open Markup Number Text Estimate

/-- Contents that no estimate tells apart and that ask for the same lengths. -/
structure Alike (os us : List (List Char × List Char)) : Prop where
  walk : ∀ a y, os.foldl (Layout.stepOn a) y = us.foldl (Layout.stepOn a) y
  lengths : os.filter (·.1 == labelLength) = us.filter (·.1 == labelLength)

variable {os us os' us' : List (List Char × List Char)} {n : UInt32} {s a b : List Char}

theorem Alike.refl (os : List (List Char × List Char)) : Alike os os := ⟨fun _ _ => rfl, rfl⟩

theorem Alike.append (h : Alike os us) (h' : Alike os' us') : Alike (os ++ os') (us ++ us') := by
  constructor
  · intro a y
    rw [List.foldl_append, List.foldl_append, h.walk, h'.walk]
  · rw [List.filter_append, List.filter_append, h.lengths, h'.lengths]

theorem Alike.symm (h : Alike os us) : Alike us os := ⟨fun a y => (h.walk a y).symm, h.lengths.symm⟩

theorem Alike.trans (h : Alike os us) (h' : Alike us us') : Alike os us' :=
  ⟨fun a y => (h.walk a y).trans (h'.walk a y), h.lengths.trans h'.lengths⟩

theorem alike_of_not_mem (h : ∀ o ∈ os, o.1 ∉ interpreted ∧ o.1 ≠ fieldData) : Alike os [] := by
  constructor
  · intro a y
    induction os generalizing y with
    | nil => rfl
    | cons o os ih =>
      rw [List.forall_mem_cons] at h
      rw [List.foldl_cons, stepOn_of_not_mem h.1.1 h.1.2]
      exact ih h.2 y
  · refine List.filter_eq_nil_iff.mpr fun o ho hlength => (h o ho).1 ?_
    rw [beq_iff_eq.mp hlength]
    decide

theorem alike_fieldData {u v : List Char} (h : lineCount u = lineCount v) :
    Alike [(fieldData, u)] [(fieldData, v)] := by
  have hstep : ∀ a y s, Layout.stepOn a y (fieldData, s) = y.extend (y.textHeight a (lineCount s)) :=
    fun _ _ _ => rfl
  constructor
  · intro a y
    rw [List.foldl_cons, List.foldl_cons, hstep, hstep, h]
  · rfl

/-! ## The opening and the width -/

theorem decimal_not_mem {c : Char} (hc : c.isDigit = false) (k : Nat) : c ∉ decimal k := by
  intro h
  rw [isDigit_of_mem_decimal h] at hc
  simp at hc

theorem mem_widthCommand {c : Char} (h : c ∈ widthCommand n) : c ∈ widthLeader ∨ c.isDigit := by
  rcases List.mem_append.mp h with h | h
  · exact .inl h
  · exact .inr (isDigit_of_mem_decimal h)

theorem contents_two {c d : Char} (hm : Mnemonic [c, d]) (hname : [c, d] ≠ fieldData) {w : List Char}
    (hw : ∀ e ∈ w, ¬ ({} : Leaders).isLeader e) (b : List Char) :
    ∃ params, contents {} ('^' :: c :: d :: (w ++ b)) = ([c, d], params) :: contents {} b := by
  have hread : mnemonic? (c :: d :: (w ++ b)) = some ([c, d], w ++ b) := by
    rw [show c :: d :: (w ++ b) = [c, d] ++ (w ++ b) from rfl]
    refine mnemonic?_append hm fun e _ hlong => ?_
    have := hlong.length_le
    simp at this
  obtain ⟨p, hp, hspans⟩ := exists_spans_cons plain_usual (c := '^') (by decide) hread hname
  have hfree : ∀ e ∈ [c, d] ++ w, ¬ ({} : Leaders).isLeader e := by
    intro e he
    rcases List.mem_append.mp he with he | he
    · exact plain_usual.not_leader hm e he
    · exact hw e he
  have hrest := spans_of_not_leader hfree b
  refine ⟨p.params, ?_⟩
  rw [contents, hspans, List.map_cons, Span.content, hp]
  congr 1
  rw [contents, ← hrest]
  simp

theorem contents_opening (b : List Char) :
    ∃ params, contents {} (opening ++ b) = (['X', 'A'], params) :: contents {} b :=
  contents_two (w := []) (.two (by decide) (by decide) (by decide)) (by decide) (by simp) b

theorem contents_widthCommand (n : UInt32) (b : List Char) :
    ∃ params, contents {} (widthCommand n ++ b) = (['P', 'W'], params) :: contents {} b := by
  have hfree : ∀ e ∈ decimal n.toNat, ¬ ({} : Leaders).isLeader e := fun e he =>
    not_isLeader_of_isDigit (isDigit_of_mem_decimal he)
  exact contents_two (.two (by decide) (by decide) (by decide)) (by decide) hfree b

theorem misses_opening : Misses ({} : Leaders).terminator opening := by
  refine misses_cons (fun z => ?_) (misses_of_not_mem (by decide))
  simp [Leaders.terminator, fieldSeparator, List.cons_prefix_cons]

theorem misses_widthCommand (n : UInt32) : Misses ({} : Leaders).terminator (widthCommand n) := by
  refine misses_cons (fun z => ?_) (misses_of_not_mem ?_)
  · simp [Leaders.terminator, fieldSeparator, List.cons_prefix_cons]
  · simpa using decimal_not_mem (c := '^') (by decide) n.toNat

theorem opening_not_mem_breakCharacters : ∀ c ∈ opening, c ∉ breakCharacters := by
  simp [opening, breakCharacters]

theorem not_mem_breakCharacters_of_isDigit {c : Char} (hc : c.isDigit) : c ∉ breakCharacters := by
  intro hbreak
  simp only [breakCharacters, List.mem_cons, List.not_mem_nil, or_false] at hbreak
  rcases hbreak with rfl | rfl | rfl | rfl <;> exact absurd hc (by decide)

theorem widthCommand_not_mem_breakCharacters : ∀ c ∈ widthCommand n, c ∉ breakCharacters := by
  have hleader : ∀ c ∈ widthLeader, c ∉ breakCharacters := by simp [widthLeader, breakCharacters]
  intro c hc
  rcases mem_widthCommand hc with hc | hc
  · exact hleader c hc
  · exact not_mem_breakCharacters_of_isDigit hc

/-! ## The width command -/

theorem alike_widthCommand (n : UInt32) (a b : List Char) :
    Alike (contents {} (a ++ (opening ++ widthCommand n ++ b))) (contents {} (a ++ (opening ++ b))) := by
  by_cases hsealed : Sealed {} a
  · -- The opening is a command.
    obtain ⟨u, hu⟩ := contents_opening b
    obtain ⟨v, hv⟩ := contents_opening (widthCommand n ++ b)
    obtain ⟨w, hw⟩ := contents_widthCommand n b
    have hleader : ∀ s, ∀ c ∈ (opening ++ s).head?, ({} : Leaders).isLeader c := by
      intro s c hc
      obtain rfl : '^' = c := by simpa [opening] using hc
      decide
    rw [List.append_assoc, contents_append_leader plain_usual hsealed (hleader _),
      contents_append_leader plain_usual hsealed (hleader _), hu, hv, hw]
    have hone : Alike [(['X', 'A'], u)] [] := alike_of_not_mem (by simp [interpreted, fieldData])
    have htwo : Alike [(['X', 'A'], v), (['P', 'W'], w)] [] := alike_of_not_mem (by simp [interpreted, fieldData])
    exact (Alike.refl _).append ((htwo.trans hone.symm).append (.refl _))
  · -- The opening stands in field data.
    obtain ⟨cs, before, p, rfl, hp, hcontents⟩ := exists_open_contents plain_usual hsealed
    have hhead : ∀ s, ∀ c ∈ (opening ++ s).head?, ¬ isAlphanumeric c := by
      intro s c hc
      obtain rfl : '^' = c := by simpa [opening] using hc
      decide
    have hlines : lineCount (p.raw ++ (opening ++ widthCommand n) ++ (body {} fieldData b).params) =
        lineCount (p.raw ++ opening ++ (body {} fieldData b).params) := by
      have hwide : ∀ c ∈ opening ++ widthCommand n, c ∉ breakCharacters := fun c hc =>
        (List.mem_append.mp hc).elim (opening_not_mem_breakCharacters c) (widthCommand_not_mem_breakCharacters c)
      have h1 := lineCount_append opening_not_mem_breakCharacters (by decide) p.raw (body {} fieldData b).params
      have h2 := lineCount_append hwide (by simp [opening]) p.raw (body {} fieldData b).params
      omega
    have hnarrow := hp.contents_append misses_opening (by simpa using hhead []) (by decide) b
    have hwide := hp.contents_append (misses_opening.append (misses_widthCommand n)) (hhead _) (by simp [opening]) b
    rw [hcontents, hcontents, hnarrow, hwide]
    exact (Alike.refl _).append ((alike_fieldData hlines).append (.refl _))

theorem alike_insertWidth (n : UInt32) (s : List Char) : Alike (contents {} (insertWidth n s)) (contents {} s) := by
  rw [insertWidth]
  split_ifs with hwidth
  · exact .refl _
  · cases hcut : cut? opening s with
    | none => exact .refl _
    | some o =>
      obtain ⟨a, b⟩ := o
      have h := alike_widthCommand n a b
      rw [← List.append_assoc, ← List.append_assoc, ← List.append_assoc, ← eq_append_of_cut? hcut] at h
      exact h

end LabelPress.Finish
