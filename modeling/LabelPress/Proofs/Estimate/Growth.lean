import LabelPress.Proofs.Estimate.Meaning

/-!
# Longer labels

No command takes back what those before it have reached or asked for, and greater assumptions make nothing shorter. So
a label does not get shorter when commands are added to it, whatever their parameters are (`ofTokens_mono`).
-/

namespace LabelPress.Estimate

open Markup Number

/-- What there is stays, or gives way to something greater. -/
def Rises {α : Type} [LE α] (o o' : Option α) : Prop := ∀ n ∈ o, ∃ m ∈ o', n ≤ m

structure Assumptions.Below (a b : Assumptions) : Prop where
  fontHeight : a.fontHeight ≤ b.fontHeight
  lineGap : a.lineGap ≤ b.lineGap
  barcodeHeight : a.barcodeHeight ≤ b.barcodeHeight

/-- The second walk has found at least as much. -/
structure Layout.Within (y z : Layout) : Prop where
  bottom : y.bottom ≤ z.bottom
  explicit : Rises y.explicit z.explicit

/-- The walks stand at the same place. The font of the second is at least as high. -/
structure Layout.Beside (y z : Layout) : Prop extends y.Within z where
  homeY : y.homeY = z.homeY
  fieldY : y.fieldY = z.fieldY
  fontHeight : y.fontHeight ≤ z.fontHeight

variable {a b : Assumptions} {y z : Layout} {m n k : Int}

/-! ## Sums -/

theorem clampInt64_mono (h : m ≤ n) : clampInt64 m ≤ clampInt64 n := by
  unfold clampInt64
  omega

theorem addInt64_mono (hm : m ≤ n) {m' n' : Int} (hm' : m' ≤ n') : addInt64 m m' ≤ addInt64 n n' :=
  clampInt64_mono (Int.add_le_add hm hm')

theorem mulInt64_mono (hk : 0 ≤ k) (h : m ≤ n) : mulInt64 k m ≤ mulInt64 k n :=
  clampInt64_mono (Int.mul_le_mul_of_nonneg_left h hk)

theorem clampUInt32_mono (h : m ≤ n) : clampUInt32 m ≤ clampUInt32 n := by
  rw [UInt32.le_iff_toNat_le, toNat_clampUInt32, toNat_clampUInt32]
  omega

theorem natCast_toNat_mono {v w : UInt32} (h : v ≤ w) : (v.toNat : Int) ≤ w.toNat :=
  Int.ofNat_le.mpr (UInt32.le_iff_toNat_le.mp h)

theorem Rises.refl {α : Type} [Preorder α] (o : Option α) : Rises o o :=
  fun n hn => ⟨n, hn, le_refl n⟩

theorem Rises.trans {α : Type} [Preorder α] {o o' o'' : Option α} (h : Rises o o') (h' : Rises o' o'') :
    Rises o o'' := by
  intro n hn
  obtain ⟨m, hm, hnm⟩ := h n hn
  obtain ⟨l, hl, hml⟩ := h' m hm
  exact ⟨l, hl, hnm.trans hml⟩

/-! ## One command -/

theorem Layout.Within.refl (y : Layout) : y.Within y := ⟨le_refl _, .refl _⟩

theorem Layout.Within.trans {x : Layout} (h : x.Within y) (h' : y.Within z) : x.Within z :=
  ⟨h.bottom.trans h'.bottom, h.explicit.trans h'.explicit⟩

theorem Layout.within_extend (y : Layout) (n : Int) : y.Within (y.extend n) :=
  ⟨le_max_left _ _, .refl _⟩

theorem Layout.Beside.extend (h : y.Beside z) (hmn : m ≤ n) : (y.extend m).Beside (z.extend n) := by
  obtain ⟨⟨hbottom, hexplicit⟩, hhome, hfield, hfont⟩ := h
  refine ⟨⟨?_, hexplicit⟩, hhome, hfield, hfont⟩
  exact max_le_max hbottom (addInt64_mono hfield.le hmn)

theorem Layout.Beside.textHeight (h : y.Beside z) (hab : a.Below b) {lines : Nat} (hlines : 0 < lines) :
    y.textHeight a lines ≤ z.textHeight b lines := by
  have hgap := natCast_toNat_mono hab.lineGap
  exact addInt64_mono (mulInt64_mono (by omega) h.fontHeight) (mulInt64_mono (by omega) hgap)

theorem Rises.max {o o' : Option Int} (h : Rises o o') (n : Int) :
    Rises (some (max n (o.getD n))) (some (max n (o'.getD n))) := by
  rintro _ ⟨⟩
  refine ⟨_, rfl, ?_⟩
  cases o with
  | none =>
    rw [Option.getD_none, max_self]
    exact le_max_left n _
  | some l =>
    obtain ⟨m, hm, hlm⟩ := h l rfl
    rw [Option.mem_def.mp hm]
    exact max_le_max_left n hlm

theorem rises_max (o : Option Int) (n : Int) : Rises o (some (max n (o.getD n))) := by
  rintro l ⟨⟩
  exact ⟨_, rfl, le_max_right n l⟩

theorem Layout.within_step (a : Assumptions) (y : Layout) (t : Token) : y.Within (y.step a t) := by
  rw [Layout.step]
  split_ifs
  case pos => exact ⟨le_refl _, .refl _⟩
  case pos => exact ⟨le_refl _, .refl _⟩
  case pos => exact ⟨le_refl _, .refl _⟩
  case pos => exact y.within_extend _
  case pos =>
    cases number? t.params 1 with
    | some h => exact y.within_extend h
    | none => exact .refl y
  case pos =>
    cases number? t.params 0 with
    | some n => exact ⟨le_refl _, rises_max y.explicit n⟩
    | none => exact .refl y
  case pos => exact y.within_extend _
  case neg => exact .refl y

theorem Layout.Beside.step (h : y.Beside z) (hab : a.Below b) (t : Token) :
    (y.step a t).Beside (z.step b t) := by
  rw [Layout.step, Layout.step]
  split_ifs
  case pos => exact ⟨⟨h.bottom, h.explicit⟩, rfl, h.fieldY, h.fontHeight⟩
  case pos => exact ⟨⟨h.bottom, h.explicit⟩, h.homeY, by rw [h.homeY], h.fontHeight⟩
  case pos =>
    refine ⟨⟨h.bottom, h.explicit⟩, h.homeY, h.fieldY, ?_⟩
    cases firstNumber? t.params with
    | some n => exact le_refl n
    | none => exact h.fontHeight
  case pos =>
    refine h.extend ?_
    cases barcodeHeight? t.params with
    | some n => exact le_refl n
    | none => exact natCast_toNat_mono hab.barcodeHeight
  case pos =>
    cases number? t.params 1 with
    | some n => exact h.extend (le_refl n)
    | none => exact h
  case pos =>
    cases number? t.params 0 with
    | some n => exact ⟨⟨h.bottom, h.explicit.max n⟩, h.homeY, h.fieldY, h.fontHeight⟩
    | none => exact h
  case pos => exact h.extend (h.textHeight hab (lineCount_pos t.params))
  case neg => exact h

/-! ## All commands -/

theorem Layout.within_foldl (a : Assumptions) (ts : List Token) (y : Layout) :
    y.Within (ts.foldl (Layout.step a) y) := by
  induction ts generalizing y with
  | nil => exact .refl y
  | cons t ts ih => exact (y.within_step a t).trans (ih (y.step a t))

theorem Layout.Beside.foldl (h : y.Beside z) (hab : a.Below b) (ts : List Token) :
    (ts.foldl (Layout.step a) y).Beside (ts.foldl (Layout.step b) z) := by
  induction ts generalizing y z with
  | nil => exact h
  | cons t ts ih => exact ih (h.step hab t)

theorem start_beside (hab : a.Below b) : (start a).Beside (start b) where
  bottom := le_refl _
  explicit := .refl _
  homeY := rfl
  fieldY := rfl
  fontHeight := natCast_toNat_mono hab.fontHeight

theorem Layout.Within.extent (h : y.Within z) :
    y.extent.structural ≤ z.extent.structural ∧ Rises y.extent.explicit z.extent.explicit ∧
      y.extent.dots ≤ z.extent.dots := by
  have hstructural : clampUInt32 y.bottom ≤ clampUInt32 z.bottom := clampUInt32_mono h.bottom
  have hexplicit : Rises (y.explicit.map clampUInt32) (z.explicit.map clampUInt32) := by
    intro n hn
    obtain ⟨m, hm, rfl⟩ := Option.map_eq_some_iff.mp hn
    obtain ⟨l, hl, hml⟩ := h.explicit m hm
    exact ⟨clampUInt32 l, Option.mem_map_of_mem _ hl, clampUInt32_mono hml⟩
  have hasked : (y.explicit.map clampUInt32).getD 0 ≤ (z.explicit.map clampUInt32).getD 0 := by
    cases hy : y.explicit.map clampUInt32 with
    | none => exact UInt32.zero_le
    | some n =>
      obtain ⟨m, hm, hnm⟩ := hexplicit n hy
      rw [Option.mem_def.mp hm]
      exact hnm
  refine ⟨hstructural, hexplicit, ?_⟩
  rw [UInt32.le_iff_toNat_le] at hstructural hasked ⊢
  rw [Layout.extent, Layout.extent, UInt32.toNat_max, UInt32.toNat_max]
  exact max_le_max hstructural hasked

/-- A label with more commands behind it, or with greater assumptions, is estimated no shorter. A length that it
asks for stays or gives way to a greater one. -/
theorem ofTokens_mono (hab : a.Below b) (ts us : List Token) :
    (ofTokens a ts).structural ≤ (ofTokens b (ts ++ us)).structural ∧
      Rises (ofTokens a ts).explicit (ofTokens b (ts ++ us)).explicit ∧
      (ofTokens a ts).dots ≤ (ofTokens b (ts ++ us)).dots := by
  have hwalk : (ts.foldl (Layout.step a) (start a)).Within ((ts ++ us).foldl (Layout.step b) (start b)) := by
    rw [List.foldl_append]
    exact ((start_beside hab).foldl hab ts).toWithin.trans (Layout.within_foldl b us _)
  exact hwalk.extent

/-- The commands behind the others ask for less, and place nothing lower. -/
theorem ofTokens_mono_ticket :
    let usual : Assumptions := {}
    let wide : Assumptions := { lineGap := 5 }
    let more := tokenize {} "^FO0,-9999999999999999999^FDa^LL-80".toList
    usual.Below wide ∧ ofTokens usual ticket = ⟨150, some 90, 150⟩ ∧
      (ofTokens usual ticket).structural ≤ (ofTokens wide (ticket ++ more)).structural ∧
      Rises (ofTokens usual ticket).explicit (ofTokens wide (ticket ++ more)).explicit ∧
      (ofTokens usual ticket).dots ≤ (ofTokens wide (ticket ++ more)).dots := by
  intro usual wide more
  have hbelow : usual.Below wide := ⟨by decide, by decide, by decide⟩
  exact ⟨hbelow, by cbv, ofTokens_mono hbelow ticket more⟩

end LabelPress.Estimate
