import LabelPress.Proofs.Estimate.Contents
import LabelPress.Proofs.Number.Decimal

/-!
# The length a label asks for

The commands that ask for a length and all others do not touch each other (`foldl_stepOn`). So the length
asked for is the greatest of all, wherever they stand, and the others decide how far the contents reach.
-/

namespace LabelPress.Estimate

open Markup Number Text

/-- The mnemonic that asks for a length. -/
def labelLength : List Char := ['L', 'L']

/-- The lengths asked for. -/
def asked (os : List (List Char × List Char)) : List Int :=
  (os.filter (·.1 == labelLength)).filterMap fun o => number? o.2 0

/-- The commands that do not ask for a length. -/
def others (os : List (List Char × List Char)) : List (List Char × List Char) :=
  os.filter (·.1 != labelLength)

/-- The greatest length asked for, after an earlier one. -/
def greatest (e : Option Int) (ns : List Int) : Option Int :=
  ns.foldl (fun e n => some (max n (e.getD n))) e

def Layout.withExplicit (y : Layout) (e : Option Int) : Layout := { y with explicit := e }

variable {a : Assumptions} {y : Layout} {o : List Char × List Char}
  {os us : List (List Char × List Char)} {n : Int}
  {ns ms : List Int}

/-! ## Two walks in one -/

theorem stepOn_labelLength (a : Assumptions) (y : Layout) (s : List Char) :
    Layout.stepOn a y (labelLength, s) = y.withExplicit (greatest y.explicit (number? s 0).toList) := by
  cases hn : number? s 0 with
  | none => simp [Layout.stepOn, Layout.step, Layout.withExplicit, labelLength, greatest, hn]
  | some n => simp [Layout.stepOn, Layout.step, Layout.withExplicit, labelLength, greatest, hn]

theorem stepOn_withExplicit (h : o.1 ≠ labelLength) (a : Assumptions) (y : Layout) (e : Option Int) :
    Layout.stepOn a (y.withExplicit e) o = (Layout.stepOn a y o).withExplicit e := by
  have hname : o.1 ≠ ['L', 'L'] := h
  simp only [Layout.stepOn, Layout.step, Layout.withExplicit, hname, if_false, Layout.extend, Layout.textHeight]
  split_ifs
  · rfl
  · rfl
  · rfl
  · rfl
  · split <;> rfl
  · rfl
  · rfl

theorem foldl_withExplicit (h : ∀ o ∈ os, o.1 ≠ labelLength) (a : Assumptions) (y : Layout) (e : Option Int) :
    os.foldl (Layout.stepOn a) (y.withExplicit e) = (os.foldl (Layout.stepOn a) y).withExplicit e := by
  induction os generalizing y with
  | nil => rfl
  | cons o os ih =>
    rw [List.forall_mem_cons] at h
    rw [List.foldl_cons, stepOn_withExplicit h.1, ih h.2, List.foldl_cons]

theorem stepOn_explicit (h : o.1 ≠ labelLength) (a : Assumptions) (y : Layout) :
    (Layout.stepOn a y o).explicit = y.explicit := by
  have hstep := stepOn_withExplicit h a y y.explicit
  have hself : y.withExplicit y.explicit = y := rfl
  rw [hself] at hstep
  rw [hstep]
  rfl

theorem not_labelLength_of_mem_others : ∀ o ∈ others os, o.1 ≠ labelLength := by
  intro o ho
  simpa using List.of_mem_filter ho

/-- The walk is the walk over the other commands, with the greatest length asked for. -/
theorem foldl_stepOn (a : Assumptions) (os : List (List Char × List Char)) (y : Layout) :
    os.foldl (Layout.stepOn a) y =
      ((others os).foldl (Layout.stepOn a) y).withExplicit (greatest y.explicit (asked os)) := by
  induction os generalizing y with
  | nil => rfl
  | cons o os ih =>
    rw [List.foldl_cons, ih]
    by_cases h : o.1 = labelLength
    · obtain ⟨name, s⟩ := o
      obtain rfl : name = labelLength := h
      have hothers : others ((labelLength, s) :: os) = others os := List.filter_cons_of_neg (by simp)
      have hasked : asked ((labelLength, s) :: os) = (number? s 0).toList ++ asked os := by
        rw [asked, List.filter_cons_of_pos (by simp), List.filterMap_cons, asked]
        cases number? s 0 <;> rfl
      rw [stepOn_labelLength, foldl_withExplicit not_labelLength_of_mem_others, hothers, hasked, greatest, greatest,
        greatest, List.foldl_append]
      rfl
    · have hothers : others (o :: os) = o :: others os := List.filter_cons_of_pos (by simpa using h)
      have hasked : asked (o :: os) = asked os := by
        rw [asked, List.filter_cons_of_neg (by simpa using h), asked]
      rw [stepOn_explicit h, hothers, hasked, List.foldl_cons]

/-! ## The greatest length -/

theorem greatest_perm (h : ns.Perm ms) (e : Option Int) : greatest e ns = greatest e ms := by
  refine h.foldl_eq' (fun m _ n _ e => ?_) e
  cases e with
  | none =>
    simp only [Option.getD_none, Option.getD_some, Option.some.injEq]
    omega
  | some k =>
    simp only [Option.getD_some, Option.some.injEq]
    omega

theorem greatest_append (e : Option Int) (ns ms : List Int) : greatest e (ns ++ ms) = greatest (greatest e ns) ms :=
  List.foldl_append

theorem greatest_replicate (e : Option Int) (n : Int) {k : Nat} (hk : k ≠ 0) :
    greatest e (List.replicate k n) = some (max n (e.getD n)) := by
  induction k generalizing e with
  | zero => exact absurd rfl hk
  | succ k ih =>
    rw [List.replicate_succ]
    change greatest (some (max n (e.getD n))) (List.replicate k n) = _
    cases k with
    | zero => rfl
    | succ k => simp [ih]

end LabelPress.Estimate
