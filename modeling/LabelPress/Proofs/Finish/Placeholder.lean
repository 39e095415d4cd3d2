import LabelPress.Proofs.Markup.Parts
import LabelPress.Proofs.Text.Replaced

/-!
# A command in the place of a placeholder

Where placeholders stand between commands, a command in their place is read as one more command each time and
changes no other (`Separate.contents_replaceAll`). So it is where they stand outside field data and in front of
a leader (`contents_replaceAll`).
-/

namespace LabelPress.Finish

open Markup Text

/-- Blanks and placeholders, and then a leader or the end of the text. -/
inductive Clear (l : Leaders) (needle : List Char) : List Char → Prop where
  | nil : Clear l needle []
  | leader (c : Char) (s : List Char) : l.isLeader c → Clear l needle (c :: s)
  | blank (c : Char) (s : List Char) : isBlank c → Clear l needle s → Clear l needle (c :: s)
  | again (s : List Char) : Clear l needle s → Clear l needle (needle ++ s)

/-- Every placeholder leaves no field data open before it and has a clear text behind it. -/
def Placed (l : Leaders) (needle s : List Char) : Prop :=
  ∀ o ∈ occurrences needle s, Sealed l o.1 ∧ Clear l needle o.2

/-- Where a placeholder is taken out, no field data is open before it, and behind it come blanks and then a
leader or the end of the text. -/
def Separate (l : Leaders) (needle s : List Char) : Prop :=
  ∀ o ∈ occurrences needle s, Sealed l (replaceAll needle [] o.1) ∧ Fresh l (replaceAll needle [] o.2)

variable {l : Leaders} {needle new s a b u v : List Char} {c : List Char × List Char}

/-! ## Clear texts -/

theorem fresh_of_leader {d : Char} (hl : l.Plain) (hd : l.isLeader d) (s : List Char) :
    Fresh l (d :: s) := by
  have hblank := hl.not_blank d hd
  rw [Fresh, trimStart_of_head (by simpa using hblank)]
  simpa using hd

theorem fresh_cons_blank {d : Char} (hd : isBlank d) : Fresh l (d :: s) ↔ Fresh l s := by
  rw [Fresh, Fresh, trimStart, List.dropWhile_cons_of_pos hd, trimStart]

theorem Clear.fresh_of_cut?_eq_none (hl : l.Plain) (h : Clear l needle s)
    (hcut : cut? needle s = none) : Fresh l s := by
  induction h with
  | nil => simp [Fresh, trimStart]
  | leader d s hd => exact fresh_of_leader hl hd s
  | blank d s hd _ ih =>
    rw [cut?_eq_none_iff] at hcut ih
    exact (fresh_cons_blank hd).mpr (ih fun h => hcut (h.trans (List.suffix_cons d s).isInfix))
  | again s _ _ => exact absurd ⟨[], s, rfl⟩ (cut?_eq_none_iff.mp hcut)

theorem Clear.fresh (hl : l.Plain) (hn : needle ≠ []) (h : Clear l needle s)
    (hall : ∀ o ∈ occurrences needle s, Clear l needle o.2) : Fresh l (replaceAll needle [] s) := by
  induction hlen : s.length using Nat.strong_induction_on generalizing s with
  | _ n ih =>
    cases hcut : cut? needle s with
    | none =>
      rw [replaceAll_of_cut?_eq_none [] hcut]
      exact h.fresh_of_cut?_eq_none hl hcut
    | some o =>
      obtain ⟨a, b⟩ := o
      obtain ⟨hclear, hrest⟩ := forall_occurrences_of_cut? (P := fun _ v => Clear l needle v) hn hcut hall
      have hs := eq_append_of_cut? hcut
      have hneedlelen := List.length_pos_iff.mpr hn
      rw [replaceAll_of_cut? [] hn hcut]
      cases a with
      | nil =>
        -- The text begins with a placeholder.
        have hb' : b.length < n := by
          rw [← hlen, hs]
          simp only [List.length_append]
          omega
        exact ih b.length hb' hclear hrest rfl
      | cons d a =>
        cases h with
        | nil => simp at hs
        | leader d' t hd =>
          rw [List.cons_append, List.cons_append, List.cons.injEq] at hs
          rw [← hs.1]
          exact fresh_of_leader hl hd _
        | blank d' t hd ht =>
          obtain ⟨rfl, hs'⟩ : d' = d ∧ t = a ++ needle ++ b := by simpa using hs
          have hcut' := cut?_of_cut?_cons hcut
          have hall' : ∀ o ∈ occurrences needle t, Clear l needle o.2 := by
            rw [occurrences_of_cut? hn hcut', List.forall_mem_cons, List.forall_mem_map]
            exact ⟨hclear, hrest⟩
          have hfresh := ih t.length (by rw [← hlen]; simp) ht hall' rfl
          rw [replaceAll_of_cut? [] hn hcut'] at hfresh
          exact (fresh_cons_blank hd).mpr hfresh
        | again t ht =>
          -- The first placeholder would stand at the beginning.
          have := length_le_of_cut? hcut (u := []) (v := t) rfl
          simp at this

/-! ## Separate placeholders -/

theorem separate_iff_of_cut? (hl : l.Plain) (hn : needle ≠ []) (hcut : cut? needle s = some (a, b)) :
    Separate l needle s ↔ Sealed l a ∧ Fresh l (replaceAll needle [] b) ∧ Separate l needle b := by
  have ha := replaceAll_of_cut?_eq_none [] (cut?_eq_none_of_cut? hn hcut)
  rw [Separate, occurrences_of_cut? hn hcut, List.forall_mem_cons, List.forall_mem_map, ha, and_assoc]
  refine and_congr_right fun hsealed => and_congr_right fun hfresh => forall₂_congr fun o ho => and_congr_left' ?_
  -- What stands in front of a later placeholder is read apart from `a`.
  have hb := replaceAll_of_mem_occurrences hn ho []
  have hhead : ∀ d ∈ (replaceAll needle [] o.1).head?, ¬ isAlphanumeric d := by
    intro d hd
    apply (hfresh.head hl d _).1
    rw [hb, List.append_nil, List.head?_append, Option.mem_def.mp hd]
    rfl
  rw [replaceAll_of_cut? [] hn (cut?_of_mem_occurrences hn hcut ho), List.append_nil,
    sealed_append_iff hl hsealed hhead]

theorem Placed.of_cut? (hl : l.Plain) (hn : needle ≠ []) (hneedle : ∀ c ∈ needle, ¬ l.isLeader c)
    (hhead : ∀ c ∈ needle.head?, ¬ isAlphanumeric c) (h : Placed l needle s)
    (hcut : cut? needle s = some (a, b)) :
    Sealed l a ∧ Clear l needle b ∧ Placed l needle b := by
  obtain ⟨⟨hsealed, hclear⟩, hrest⟩ :=
    forall_occurrences_of_cut? (P := fun u v => Sealed l u ∧ Clear l needle v) hn hcut h
  refine ⟨hsealed, hclear, fun o ho => ⟨?_, (hrest o ho).2⟩⟩
  -- The placeholder before it belongs to no field data.
  have hopen := (hrest o ho).1
  have hv : ∀ c ∈ (needle ++ o.1).head?, ¬ isAlphanumeric c := by
    rw [List.head?_append_of_ne_nil _ hn]
    exact hhead
  rwa [List.append_assoc, sealed_append_iff hl hsealed hv, Sealed, spans_of_not_leader hneedle] at hopen

theorem Placed.separate (hl : l.Plain) (hn : needle ≠ []) (hneedle : ∀ c ∈ needle, ¬ l.isLeader c)
    (hhead : ∀ c ∈ needle.head?, ¬ isAlphanumeric c) (h : Placed l needle s) : Separate l needle s := by
  induction s using cut_induction hn with
  | none s hcut => simp [Separate, occurrences_of_cut?_eq_none hcut]
  | some s a b hcut ih =>
    obtain ⟨hsealed, hclear, hrest⟩ := h.of_cut? hl hn hneedle hhead hcut
    have hfresh := hclear.fresh hl hn fun o ho => (hrest o ho).2
    exact (separate_iff_of_cut? hl hn hcut).mpr ⟨hsealed, hfresh, ih hrest⟩

theorem fresh_append_right (hl : l.Plain) (h : Fresh l (a ++ u)) (hv : Fresh l v) : Fresh l (a ++ v) := by
  induction a with
  | nil => exact hv
  | cons d a ih =>
    rw [List.cons_append] at h ⊢
    by_cases hd : isBlank d
    · exact (fresh_cons_blank hd).mpr (ih ((fresh_cons_blank hd).mp h))
    · rw [Fresh, trimStart_of_head (by simpa using hd)] at h
      exact fresh_of_leader hl (h d rfl) _

theorem fresh_replaceAll (hl : l.Plain) (hn : needle ≠ []) (hnew : ∀ v, Fresh l (new ++ v))
    (h : Fresh l (replaceAll needle [] s)) : Fresh l (replaceAll needle new s) := by
  cases hcut : cut? needle s with
  | none =>
    rw [replaceAll_of_cut?_eq_none [] hcut] at h
    rwa [replaceAll_of_cut?_eq_none new hcut]
  | some o =>
    rw [replaceAll_of_cut? [] hn hcut, List.append_nil] at h
    rw [replaceAll_of_cut? new hn hcut, List.append_assoc]
    exact fresh_append_right hl h (hnew _)

/-! ## Commands in the places of placeholders -/

/-- A text that is one command. -/
structure IsCommand (l : Leaders) (new : List Char) (c : List Char × List Char) : Prop where
  leader : ∀ v, Fresh l (new ++ v)
  closed : Sealed l new
  contents_eq : contents l new = [c]

/-- A command in the place of each separate placeholder is read as that command each time, and the text without
the placeholders has all the others. -/
theorem Separate.contents_replaceAll (hl : l.Plain) (hn : needle ≠ []) (hnew : IsCommand l new c)
    (h : Separate l needle s) :
    (contents l (replaceAll needle new s)).Perm
        (contents l (replaceAll needle [] s) ++ List.replicate (occurrences needle s).length c) ∧
      ∀ q, q c = false → (contents l (replaceAll needle new s)).filter q =
        (contents l (replaceAll needle [] s)).filter q := by
  induction s using cut_induction hn with
  | none s hcut =>
    rw [replaceAll_of_cut?_eq_none new hcut, replaceAll_of_cut?_eq_none [] hcut, occurrences_of_cut?_eq_none hcut]
    simp
  | some s a b hcut ih =>
    obtain ⟨hsealed, hbare, hrest⟩ := (separate_iff_of_cut? hl hn hcut).mp h
    have hfilled : Fresh l (replaceAll needle new b) := fresh_replaceAll hl hn hnew.leader hbare
    have hcontents : contents l (replaceAll needle new s) =
        contents l a ++ c :: contents l (replaceAll needle new b) := by
      rw [replaceAll_of_cut? new hn hcut, List.append_assoc, contents_append hl hsealed (hnew.leader _),
        contents_append hl hnew.closed hfilled, hnew.contents_eq, List.singleton_append]
    have hcontents' : contents l (replaceAll needle [] s) = contents l a ++ contents l (replaceAll needle [] b) := by
      rw [replaceAll_of_cut? [] hn hcut, List.append_nil, contents_append hl hsealed hbare]
    obtain ⟨hperm, hfilter⟩ := ih hrest
    rw [hcontents, hcontents', occurrences_of_cut? hn hcut, List.length_cons, List.length_map, List.replicate_succ]
    constructor
    · rw [List.append_assoc]
      apply List.Perm.append_left
      exact (hperm.cons c).trans List.perm_middle.symm
    · intro q hq
      rw [List.filter_append, List.filter_append, List.filter_cons_of_neg (by simp [hq]), hfilter q hq]

theorem contents_replaceAll (hl : l.Plain) (hn : needle ≠ [])
    (hneedle : ∀ c ∈ needle, ¬ l.isLeader c) (hhead : ∀ c ∈ needle.head?, ¬ isAlphanumeric c)
    (hnew : IsCommand l new c) (h : Placed l needle s) :
    (contents l (replaceAll needle new s)).Perm
        (contents l (replaceAll needle [] s) ++ List.replicate (occurrences needle s).length c) ∧
      ∀ q, q c = false → (contents l (replaceAll needle new s)).filter q =
        (contents l (replaceAll needle [] s)).filter q :=
  (h.separate hl hn hneedle hhead).contents_replaceAll hl hn hnew

end LabelPress.Finish
