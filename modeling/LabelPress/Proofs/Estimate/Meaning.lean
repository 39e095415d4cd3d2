import LabelPress.Proofs.Estimate.Contents
import Mathlib

/-!
# What an estimate means

What contents reach down to is told by the commands before them: the last field origin, the home position
in front of that, and the last font. Here sums are whole numbers without bounds. The walk keeps 64 bits, and
finds the same as long as the label is modest (`ofTokens_eq`).
-/

namespace LabelPress.Estimate

open Markup Number Text

variable {a : Assumptions} {t : Token} {ts before : List Token} {m n : Int}

/-! ## What commands leave behind -/

/-- The second parameter of a position. One that is no number is 0. -/
def height (t : Token) : Int := (number? t.params 1).getD 0

/-- The height of the home position that the last command for it has set. -/
def homeAfter (before : List Token) : Int :=
  ((before.reverse.find? (·.name == ['L', 'H'])).map height).getD 0

/-- The height of the last field origin, from the home position in front of it. -/
def originAfter (before : List Token) : Int :=
  match before.reverse.dropWhile (·.name != ['F', 'O']) with
  | [] => 0
  | origin :: earlier => height origin + homeAfter earlier.reverse

def fonts : List (List Char) := [['A'], ['A', '@'], ['C', 'F']]

def fontHeight? (t : Token) : Option Int :=
  if t.name ∈ fonts then firstNumber? t.params else none

/-- The height of the last font, or the assumed one. -/
def fontAfter (a : Assumptions) (before : List Token) : Int :=
  (before.reverse.findSome? fontHeight?).getD a.fontHeight.toNat

/-! ## What a label reaches down to -/

/-- How high the contents are that a command places behind these, if it places any. -/
def contentHeight? (a : Assumptions) (before : List Token) (t : Token) : Option Int :=
  if t.name = fieldData then
    let lines : Int := lineCount t.params
    some (lines * fontAfter a before + (lines - 1) * a.lineGap.toNat)
  else if t.name = ['B', 'C'] then
    let orientation := trim ((fields ',' t.params).headD [])
    let stated := if orientation.length ≤ 1 then number? t.params 1 else number? t.params 0
    some (stated.getD a.barcodeHeight.toNat)
  else if t.name = ['G', 'B'] then number? t.params 1
  else none

def reach? (a : Assumptions) (before : List Token) (t : Token) : Option Int :=
  (contentHeight? a before t).map (originAfter before + ·)

def reaches (a : Assumptions) (ts : List Token) : List Int :=
  ts.zipIdx.filterMap fun (t, i) => reach? a (ts.take i) t

def statedLengths (ts : List Token) : List Int :=
  (ts.filter (·.name == ['L', 'L'])).filterMap fun t => number? t.params 0

def nearestDots (n : Int) : Int := max 0 (min n (2 ^ 32 - 1))

/-- Numbers and lines that stay far from the ends of 64 bits. Field data may hold any numbers. -/
structure Modest (ts : List Token) : Prop where
  bounds : ∀ t ∈ ts, t.name ≠ fieldData → ∀ n, some n ∈ numbers t.params → -2 ^ 31 ≤ n ∧ n ≤ 2 ^ 31
  lines : ∀ t ∈ ts, t.name = fieldData → lineCount t.params ≤ 2 ^ 29

/-! ## One more command -/

theorem homeAfter_concat (ts : List Token) (t : Token) :
    homeAfter (ts ++ [t]) = if t.name = ['L', 'H'] then height t else homeAfter ts := by
  rw [homeAfter, List.reverse_concat, homeAfter]
  by_cases h : t.name = ['L', 'H']
  · rw [List.find?_cons_of_pos (by simpa using h), if_pos h]
    rfl
  · rw [List.find?_cons_of_neg (by simpa using h), if_neg h]

theorem originAfter_concat (ts : List Token) (t : Token) :
    originAfter (ts ++ [t]) = if t.name = ['F', 'O'] then height t + homeAfter ts else originAfter ts := by
  rw [originAfter, List.reverse_concat, originAfter]
  by_cases h : t.name = ['F', 'O']
  · rw [List.dropWhile_cons_of_neg (by simpa using h), if_pos h]
    simp only [List.reverse_reverse]
  · rw [List.dropWhile_cons_of_pos (by simpa using h), if_neg h]

theorem fontAfter_concat (a : Assumptions) (ts : List Token) (t : Token) :
    fontAfter a (ts ++ [t]) = (fontHeight? t).getD (fontAfter a ts) := by
  rw [fontAfter, List.reverse_concat, List.findSome?_cons, fontAfter]
  cases fontHeight? t <;> rfl

theorem reaches_concat (a : Assumptions) (ts : List Token) (t : Token) :
    reaches a (ts ++ [t]) = reaches a ts ++ (reach? a ts t).toList := by
  rw [reaches, List.zipIdx_append, List.filterMap_append]
  congr 1
  · refine List.filterMap_congr ?_
    rintro ⟨u, i⟩ hu
    have hlt : i < ts.length := List.snd_lt_of_mem_zipIdx hu
    simp only [List.take_append_of_le_length hlt.le]
  · cases h : reach? a ts t <;> simp [h]

theorem statedLengths_concat (ts : List Token) (t : Token) :
    statedLengths (ts ++ [t]) =
      statedLengths ts ++ if t.name = ['L', 'L'] then (number? t.params 0).toList else [] := by
  rw [statedLengths, List.filter_append, List.filterMap_append, statedLengths]
  by_cases h : t.name = ['L', 'L']
  · cases hn : number? t.params 0 <;> simp [h, hn]
  · simp [h]

theorem max?_concat (ns : List Int) (n : Int) : (ns ++ [n]).max? = some (max n (ns.max?.getD n)) := by
  cases ns with
  | nil => simp
  | cons m ns =>
    rw [List.cons_append, List.max?_cons', List.max?_cons', List.foldl_concat, Option.getD_some, Option.some.injEq]
    omega

/-! ## Bounds -/

theorem clampInt64_eq (hlow : minInt64 ≤ n) (hhigh : n ≤ maxInt64) : clampInt64 n = n := by
  rw [clampInt64]
  omega

theorem number?_mem {s : List Char} {index : Nat} (h : number? s index = some n) : some n ∈ numbers s := by
  rw [number?, Option.join_eq_some_iff] at h
  exact List.mem_of_getElem? h

theorem firstNumber?_mem {s : List Char} (h : firstNumber? s = some n) : some n ∈ numbers s := by
  obtain ⟨o, ho, rfl⟩ := List.exists_of_findSome?_eq_some h
  exact ho

theorem Modest.of_concat (h : Modest (ts ++ [t])) : Modest ts where
  bounds u hu := h.bounds u (List.mem_append_left _ hu)
  lines u hu := h.lines u (List.mem_append_left _ hu)

theorem Modest.height_bounds (h : Modest ts) (ht : t ∈ ts) (hname : t.name ≠ fieldData) :
    -2 ^ 31 ≤ height t ∧ height t ≤ 2 ^ 31 := by
  rw [height]
  cases hn : number? t.params 1 with
  | none => decide
  | some n => exact h.bounds t ht hname n (number?_mem hn)

theorem Modest.home_bounds (h : Modest ts) : -2 ^ 31 ≤ homeAfter ts ∧ homeAfter ts ≤ 2 ^ 31 := by
  induction ts using List.reverseRecOn with
  | nil => decide
  | append_singleton ts t ih =>
    rw [homeAfter_concat]
    split_ifs with hname
    · exact h.height_bounds (by simp) (by simp [hname, fieldData])
    · exact ih h.of_concat

theorem Modest.origin_bounds (h : Modest ts) : -2 ^ 32 ≤ originAfter ts ∧ originAfter ts ≤ 2 ^ 32 := by
  induction ts using List.reverseRecOn with
  | nil => decide
  | append_singleton ts t ih =>
    rw [originAfter_concat]
    split_ifs with hname
    · have hheight := h.height_bounds (t := t) (by simp) (by simp [hname, fieldData])
      have hhome := h.of_concat.home_bounds
      omega
    · exact ih h.of_concat

theorem Modest.font_bounds (h : Modest ts) (a : Assumptions) :
    -2 ^ 31 ≤ fontAfter a ts ∧ fontAfter a ts ≤ 2 ^ 32 := by
  induction ts using List.reverseRecOn with
  | nil =>
    have hlt := a.fontHeight.toNat_lt
    simp only [fontAfter, List.reverse_nil, List.findSome?_nil, Option.getD_none]
    omega
  | append_singleton ts t ih =>
    rw [fontAfter_concat]
    cases hfont : fontHeight? t with
    | none => exact ih h.of_concat
    | some n =>
      rw [fontHeight?] at hfont
      split_ifs at hfont with hname
      have hdata : t.name ≠ fieldData := by
        intro heq
        rw [heq] at hname
        exact absurd hname (by decide)
      have hbounds := h.bounds t (by simp) hdata n (firstNumber?_mem hfont)
      simp only [Option.getD_some]
      omega

theorem mul_bounds {k m x y : Int} (hk : 0 ≤ k ∧ k ≤ m) (hx : -y ≤ x ∧ x ≤ y) :
    -(m * y) ≤ k * x ∧ k * x ≤ m * y := by
  rw [← abs_le, abs_mul, abs_of_nonneg hk.1]
  exact mul_le_mul hk.2 (abs_le.mpr hx) (abs_nonneg x) (hk.1.trans hk.2)

theorem lineCount_pos (s : List Char) : 0 < lineCount s := by
  rw [lineCount, length_fields]
  omega

theorem Modest.text_bounds (h : Modest (ts ++ [t])) (hname : t.name = fieldData) (a : Assumptions) :
    (-2 ^ 61 ≤ lineCount t.params * fontAfter a ts ∧ lineCount t.params * fontAfter a ts ≤ 2 ^ 61) ∧
      -2 ^ 61 ≤ ((lineCount t.params : Int) - 1) * a.lineGap.toNat ∧
      ((lineCount t.params : Int) - 1) * a.lineGap.toNat ≤ 2 ^ 61 := by
  have hpos := lineCount_pos t.params
  have hlines := h.lines t (by simp) hname
  have hfont := h.of_concat.font_bounds a
  have hgap := a.lineGap.toNat_lt
  have htext := mul_bounds (k := lineCount t.params) (m := 2 ^ 29) (x := fontAfter a ts) (y := 2 ^ 32) (by omega)
    (by omega)
  have hgaps := mul_bounds (k := lineCount t.params - 1) (m := 2 ^ 29) (x := a.lineGap.toNat) (y := 2 ^ 32) (by omega)
    (by omega)
  omega

theorem Modest.contentHeight_bounds (h : Modest (ts ++ [t])) (hn : contentHeight? a ts t = some n) :
    -2 ^ 62 ≤ n ∧ n ≤ 2 ^ 62 := by
  have hfield : t.name ≠ fieldData →
      ∀ index m, number? t.params index = some m → -2 ^ 31 ≤ m ∧ m ≤ 2 ^ 31 :=
    fun hname index m hm => h.bounds t (by simp) hname m (number?_mem hm)
  rw [contentHeight?] at hn
  split_ifs at hn with hdata hcode hbox
  · have htext := h.text_bounds hdata a
    rw [Option.some.injEq] at hn
    omega
  · have hlt := a.barcodeHeight.toNat_lt
    replace hn : (barcodeHeight? t.params).getD a.barcodeHeight.toNat = n := Option.some.inj hn
    cases hstated : barcodeHeight? t.params with
    | none =>
      rw [hstated, Option.getD_none] at hn
      omega
    | some m =>
      have hm : -2 ^ 31 ≤ m ∧ m ≤ 2 ^ 31 := by
        rw [barcodeHeight?] at hstated
        split_ifs at hstated
        · exact hfield hdata 1 m hstated
        · exact hfield hdata 0 m hstated
      rw [hstated, Option.getD_some] at hn
      omega
  · have := hfield hdata 1 n hn
    omega

/-! ## The walk -/

/-- Where the walk stands behind commands, as they tell it. -/
def Layout.told (a : Assumptions) (ts : List Token) : Layout where
  homeY := homeAfter ts
  fieldY := originAfter ts
  fontHeight := fontAfter a ts
  bottom := (reaches a ts).foldl max 0
  explicit := (statedLengths ts).max?

theorem told_concat (a : Assumptions) (ts : List Token) (t : Token) :
    Layout.told a (ts ++ [t]) =
      { homeY := if t.name = ['L', 'H'] then height t else homeAfter ts
        fieldY := if t.name = ['F', 'O'] then height t + homeAfter ts else originAfter ts
        fontHeight := (fontHeight? t).getD (fontAfter a ts)
        bottom := (reach? a ts t).toList.foldl max ((reaches a ts).foldl max 0)
        explicit := (statedLengths ts ++ if t.name = ['L', 'L'] then (number? t.params 0).toList else []).max? } := by
  rw [Layout.told, homeAfter_concat, originAfter_concat, fontAfter_concat, reaches_concat, List.foldl_append,
    statedLengths_concat]

theorem Modest.extend_told (h : Modest (ts ++ [t])) (hn : contentHeight? a ts t = some n) :
    (Layout.told a ts).extend n = Layout.told a (ts ++ [t]) := by
  have horigin := h.of_concat.origin_bounds
  have hheight := h.contentHeight_bounds hn
  have hsum : addInt64 (originAfter ts) n = originAfter ts + n :=
    clampInt64_eq (by rw [minInt64]; omega) (by rw [maxInt64]; omega)
  have hname : t.name = fieldData ∨ t.name = ['B', 'C'] ∨ t.name = ['G', 'B'] := by
    by_contra hother
    rw [not_or, not_or] at hother
    simp [contentHeight?, hother] at hn
  rw [told_concat, reach?, hn]
  rcases hname with hname | hname | hname <;>
    simp [Layout.extend, Layout.told, hsum, hname, fontHeight?, fonts, fieldData]

theorem Modest.textHeight_told (h : Modest (ts ++ [t])) (hname : t.name = fieldData) (a : Assumptions) :
    contentHeight? a ts t = some ((Layout.told a ts).textHeight a (lineCount t.params)) := by
  have htext := h.text_bounds hname a
  have hlines : mulInt64 (lineCount t.params) (fontAfter a ts) = lineCount t.params * fontAfter a ts :=
    clampInt64_eq (by rw [minInt64]; omega) (by rw [maxInt64]; omega)
  have hgaps : mulInt64 ((lineCount t.params : Int) - 1) a.lineGap.toNat =
      ((lineCount t.params : Int) - 1) * a.lineGap.toNat :=
    clampInt64_eq (by rw [minInt64]; omega) (by rw [maxInt64]; omega)
  rw [contentHeight?, if_pos hname, Layout.textHeight, Layout.told, hlines, hgaps, addInt64, clampInt64_eq]
  · rw [minInt64]
    omega
  · rw [maxInt64]
    omega

theorem Modest.step_told (h : Modest (ts ++ [t])) (a : Assumptions) :
    (Layout.told a ts).step a t = Layout.told a (ts ++ [t]) := by
  rw [Layout.step]
  split_ifs with hLH hFO hfont hBC hGB hLL hFD
  · rw [told_concat]
    simp [Layout.told, reach?, contentHeight?, fontHeight?, fonts, fieldData, height, hLH]
  · have horigin : addInt64 (height t) (homeAfter ts) = height t + homeAfter ts := by
      have hheight := h.height_bounds (t := t) (by simp) (by simp [hFO, fieldData])
      have hhome := h.of_concat.home_bounds
      exact clampInt64_eq (by rw [minInt64]; omega) (by rw [maxInt64]; omega)
    rw [height] at horigin
    rw [told_concat]
    simp [Layout.told, reach?, contentHeight?, fontHeight?, fonts, fieldData, height, hFO, horigin]
  · rw [told_concat]
    rcases hfont with hfont | hfont | hfont <;>
      simp [Layout.told, reach?, contentHeight?, fontHeight?, fonts, fieldData, hfont]
  · refine h.extend_told ?_
    rw [contentHeight?, if_neg (by simp [hBC, fieldData]), if_pos hBC, barcodeHeight?]
  · cases hn : number? t.params 1 with
    | some n =>
      refine h.extend_told ?_
      rw [contentHeight?, if_neg (by simp [hGB, fieldData]), if_neg hBC, if_pos hGB, hn]
    | none =>
      rw [told_concat]
      simp [Layout.told, reach?, contentHeight?, fontHeight?, fonts, fieldData, hGB, hn]
  · rw [told_concat]
    cases hn : number? t.params 0 with
    | some n => simp [Layout.told, reach?, contentHeight?, fontHeight?, fonts, fieldData, hLL, max?_concat]
    | none => simp [Layout.told, reach?, contentHeight?, fontHeight?, fonts, fieldData, hLL]
  · exact h.extend_told (h.textHeight_told hFD a)
  · have hfonts : t.name ∉ fonts := by simpa [fonts] using hfont
    rw [told_concat]
    simp [Layout.told, reach?, contentHeight?, fontHeight?, hLH, hFO, hfonts, hBC, hGB, hLL, hFD]

theorem foldl_step_told (h : Modest ts) (a : Assumptions) :
    ts.foldl (Layout.step a) (start a) = Layout.told a ts := by
  -- From the end: a command acts on what those before it tell, and modesty passes to them.
  induction ts using List.reverseRecOn with
  | nil => rfl
  | append_singleton ts t ih => rw [List.foldl_concat, ih h.of_concat, h.step_told]

theorem toNat_clampUInt32_eq (n : Int) : ((clampUInt32 n).toNat : Int) = nearestDots n := by
  rw [toNat_clampUInt32, nearestDots, UInt32.size]
  omega

/-- Modest labels are as long as their commands tell: the contents decide by the furthest that they reach,
and the label by the greatest length that it asks for. Sums have no bounds before the last step. -/
theorem ofTokens_eq (a : Assumptions) (ts : List Token) (h : Modest ts) :
    ((ofTokens a ts).structural.toNat : Int) = nearestDots ((reaches a ts).foldl max 0) ∧
      (ofTokens a ts).explicit.map (fun n => (n.toNat : Int)) = (statedLengths ts).max?.map nearestDots ∧
      (ofTokens a ts).dots = max (ofTokens a ts).structural ((ofTokens a ts).explicit.getD 0) := by
  have hwalk : ofTokens a ts = (Layout.told a ts).extent := by
    rw [← foldl_step_told h, start, ofTokens]
  rw [hwalk, Layout.extent, Layout.told]
  refine ⟨toNat_clampUInt32_eq _, ?_, rfl⟩
  rw [Option.map_map]
  exact Option.map_congr fun n _ => toNat_clampUInt32_eq n

/-- A label with two home positions, a font without height, and contents of each kind. -/
def ticket : List Token :=
  tokenize {} "^LH0,40^FO9,10^A0N,x^BCN,^LH0,7^CFD,20^FDa,9999999999\\&b^FS^FO,-5^GB3,60^LL-4^LL90".toList

theorem modest_ticket : Modest ticket := by
  have hread : ticket.map (fun t => (t.name, numbers t.params, lineCount t.params)) =
      [("LH".toList, [some 0, some 40], 1), ("FO".toList, [some 9, some 10], 1), ("A".toList, [none, none], 1),
        ("BC".toList, [none, none], 1), ("LH".toList, [some 0, some 7], 1), ("CF".toList, [none, some 20], 1),
        ("FD".toList, [none, none], 2), ("FO".toList, [none, some (-5)], 1), ("GB".toList, [some 3, some 60], 1),
        ("LL".toList, [some (-4)], 1), ("LL".toList, [some 90], 1)] := by
    cbv
  have hall : ∀ o ∈ ticket.map (fun t => (t.name, numbers t.params, lineCount t.params)),
      (∀ m ∈ o.2.1, ∀ n ∈ m, -2 ^ 31 ≤ n ∧ n ≤ 2 ^ 31) ∧ o.2.2 ≤ 2 ^ 29 := by
    rw [hread]
    decide
  rw [List.forall_mem_map] at hall
  exact ⟨fun t ht _ n hn => (hall t ht).1 _ hn n rfl, fun t ht _ => (hall t ht).2⟩

theorem ofTokens_eq_ticket :
    Modest ticket ∧ reaches {} ticket = [150, 92, 62] ∧ statedLengths ticket = [-4, 90] ∧
      ofTokens {} ticket = ⟨150, some 90, 150⟩ := by
  have hreaches : reaches {} ticket = [150, 92, 62] := by
    cbv
  have hlengths : statedLengths ticket = [-4, 90] := by
    cbv
  obtain ⟨hstructural, hexplicit, hdots⟩ := ofTokens_eq {} ticket modest_ticket
  rw [hreaches] at hstructural
  rw [hlengths] at hexplicit
  refine ⟨modest_ticket, hreaches, hlengths, ?_⟩
  generalize ofTokens {} ticket = e at hstructural hexplicit hdots ⊢
  obtain ⟨structural, explicit, dots⟩ := e
  obtain rfl : structural = 150 := UInt32.toNat_inj.mp (Int.ofNat_inj.mp hstructural)
  cases explicit with
  | none => simp at hexplicit
  | some n =>
    obtain rfl : n = 90 := UInt32.toNat_inj.mp (Int.ofNat_inj.mp (Option.some.inj hexplicit))
    exact congrArg _ hdots

end LabelPress.Estimate
