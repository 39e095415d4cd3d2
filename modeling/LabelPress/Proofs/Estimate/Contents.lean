import LabelPress.Proofs.Estimate.Readings
import LabelPress.Proofs.Markup.Spans

/-!
# The walk over contents

An estimate depends on what the commands say, not on where they stand (`ofMarkup_eq`). Of the
parameters of a command it takes nothing but their readings, field data apart (`stepOn_congr`).
-/

namespace LabelPress.Estimate

open Markup Text

/-- Where the walk begins. -/
def start (a : Assumptions) : Layout := { fontHeight := a.fontHeight.toNat }

/-- A step of the walk over what a command says. -/
def Layout.stepOn (a : Assumptions) (y : Layout) (o : List Char × List Char) : Layout :=
  y.step a ⟨o.1, o.2, 0, 0⟩

/-- The mnemonics that mean something to the walk, field data apart. -/
def interpreted : List (List Char) :=
  [['L', 'H'], ['F', 'O'], ['A'], ['A', '@'], ['C', 'F'], ['B', 'C'], ['G', 'B'], ['L', 'L']]

variable {a : Assumptions} {y : Layout} {o : List Char × List Char} {name s t : List Char}

theorem foldl_step (a : Assumptions) (ts : List Token) (y : Layout) :
    ts.foldl (Layout.step a) y = (ts.map Token.content).foldl (Layout.stepOn a) y := by
  rw [List.foldl_map]
  rfl

theorem ofMarkup_eq (a : Assumptions) (s : List Char) :
    ofMarkup a s = ((contents {} s).foldl (Layout.stepOn a) (start a)).extent := by
  rw [ofMarkup, ofTokens, foldl_step, map_content_tokenize]
  rfl

/-! ## One step -/

theorem stepOn_of_not_mem (h : o.1 ∉ interpreted) (hdata : o.1 ≠ fieldData) : Layout.stepOn a y o = y := by
  simp only [interpreted, List.mem_cons, List.not_mem_nil, or_false, not_or] at h
  obtain ⟨hLH, hFO, hA, hAt, hCF, hBC, hGB, hLL⟩ := h
  simp only [Layout.stepOn, Layout.step, hLH, hFO, hA, hAt, hCF, hBC, hGB, hLL, hdata, or_self, if_false]

theorem numbers_eq (s : List Char) : numbers s = (readings s).map Prod.fst := by
  rw [numbers, readings, List.map_map]
  rfl

theorem number?_congr (h : readings s = readings t) (index : Nat) : number? s index = number? t index := by
  rw [number?, number?, numbers_eq, numbers_eq, h]

theorem firstNumber?_congr (h : readings s = readings t) : firstNumber? s = firstNumber? t := by
  rw [firstNumber?, firstNumber?, numbers_eq, numbers_eq, h]

theorem barcodeHeight?_congr (h : readings s = readings t) : barcodeHeight? s = barcodeHeight? t := by
  have hshort : ∀ s, decide ((trim ((fields ',' s).headD [])).length ≤ 1) =
      ((readings s).head?.map Prod.snd).getD true := by
    intro s
    obtain ⟨f, fs, hfs⟩ := List.exists_cons_of_ne_nil (fields_ne_nil ',' s)
    simp [readings, reading, hfs]
  have hiff := hshort s
  rw [h, ← hshort t, decide_eq_decide] at hiff
  simp only [barcodeHeight?, hiff, number?_congr h]

/-- Readings are all that a step takes from parameters. -/
theorem stepOn_congr (hname : name ≠ fieldData) (h : readings s = readings t) :
    Layout.stepOn a y (name, s) = Layout.stepOn a y (name, t) := by
  simp only [Layout.stepOn, Layout.step, hname, if_false, number?_congr h, firstNumber?_congr h,
    barcodeHeight?_congr h]

end LabelPress.Estimate
