import LabelPress.Proofs.Finish.Opening

/-!
# The limit of a finished label

A label is checked before its length is put in. No printer gets one beyond its limit exactly if the length that is
put in does not make the label longer, and it does not where placeholders stand between commands or in field data
(`finishResult_within`). Elsewhere a placeholder may run into what follows it: digits behind it become digits of its
length (`not_finish_within`).
-/

namespace LabelPress.Finish

open Markup Number Text Estimate

variable {c : Config} {a : Assumptions} {m n : UInt32} {k : Int} {needle s u v : List Char}

/-! ## Extents within a limit -/

theorem clampUInt32_le_iff : clampUInt32 k ≤ m ↔ min k.toNat (UInt32.size - 1) ≤ m.toNat := by
  rw [UInt32.le_iff_toNat_le, toNat_clampUInt32]

theorem clampUInt32_toNat (n : UInt32) : clampUInt32 n.toNat = n := by
  have := n.toNat_lt
  rw [← UInt32.toNat_inj, toNat_clampUInt32, UInt32.size, Int.toNat_natCast]
  omega

theorem greatest_le_iff (e : Option Int) (ks : List Int) :
    (((greatest e ks).map clampUInt32).getD 0) ≤ m ↔ (e.map clampUInt32).getD 0 ≤ m ∧ ∀ k ∈ ks, clampUInt32 k ≤ m := by
  induction ks generalizing e with
  | nil => simp [greatest]
  | cons k ks ih =>
    have hstep : clampUInt32 (max k (e.getD k)) ≤ m ↔ (e.map clampUInt32).getD 0 ≤ m ∧ clampUInt32 k ≤ m := by
      cases e with
      | none =>
        have hzero : (0 : UInt32) ≤ m := UInt32.zero_le
        simp only [Option.getD_none, Option.map_none, hzero, true_and, clampUInt32_le_iff]
        omega
      | some j =>
        simp only [Option.getD_some, Option.map_some, clampUInt32_le_iff]
        omega
    have hcons : greatest e (k :: ks) = greatest (some (max k (e.getD k))) ks := rfl
    rw [hcons, ih, List.forall_mem_cons, Option.map_some, Option.getD_some, hstep, and_assoc]

theorem dots_le_iff (a : Assumptions) (s : List Char) : (ofMarkup a s).dots ≤ m ↔
    clampUInt32 ((others (contents {} s)).foldl (Layout.stepOn a) (start a)).bottom ≤ m ∧
      ∀ k ∈ asked (contents {} s), clampUInt32 k ≤ m := by
  have hgreatest := greatest_le_iff (m := m) none (asked (contents {} s))
  have hstart : (start a).explicit = none := rfl
  rw [ofMarkup_eq, foldl_stepOn, hstart]
  simp only [Layout.extent, Layout.withExplicit]
  rw [UInt32.le_iff_toNat_le, UInt32.toNat_max, Nat.max_le, ← UInt32.le_iff_toNat_le, ← UInt32.le_iff_toNat_le,
    hgreatest]
  simp

theorem mem_asked {t : Token} (ht : t ∈ tokenize {} s) (hname : t.name = labelLength)
    (hk : number? t.params 0 = some k) : k ∈ asked (contents {} s) := by
  refine List.mem_filterMap.mpr ⟨t.content, List.mem_filter.mpr ⟨?_, by simpa [Token.content] using hname⟩, hk⟩
  rw [← map_content_tokenize]
  exact List.mem_map_of_mem ht

/-- The text is no longer than the limit, and none of its length commands asks for more. -/
structure Within (c : Config) (m : UInt32) (s : List Char) : Prop where
  dots : (ofMarkup c.assumptions s).dots ≤ m
  asked : ∀ t ∈ tokenize {} s, t.name = labelLength → ∀ k, number? t.params 0 = some k → clampUInt32 k ≤ m

theorem within_of_dots (h : (ofMarkup c.assumptions s).dots ≤ m) : Within c m s where
  dots := h
  asked := fun _ ht hname k hk => ((dots_le_iff _ _).mp h).2 k (mem_asked ht hname hk)

theorem within_iff_dots : Within c m s ↔ (ofMarkup c.assumptions s).dots ≤ m :=
  ⟨Within.dots, within_of_dots⟩

/-! ## Where a placeholder does no harm -/

/-- What is read as one: the end of field data and the line breaks in it. -/
def seams : List (List Char) := ({} : Leaders).terminator :: oneBreak

/-- What is put between two texts changes neither of them: it stands between commands, or in field data and not in
the middle of a line break or of the end. -/
def Apart (u v : List Char) : Prop :=
  Sealed {} u ∧ Fresh {} v ∨ ¬ Sealed {} u ∧ ∀ seam ∈ seams, ¬ Joins seam u v

/-- Where a placeholder is taken out, it did no harm. -/
def Harmless (needle s : List Char) : Prop :=
  ∀ o ∈ occurrences needle s, Apart (replaceAll needle [] o.1) (replaceAll needle [] o.2)

theorem lengthCommand_not_mem_breakCharacters (n : UInt32) : ∀ d ∈ lengthCommand n, d ∉ breakCharacters := by
  have hleader : ∀ d ∈ ['^', 'L', 'L'], d ∉ breakCharacters := by simp [breakCharacters]
  intro d hd
  rcases List.mem_append.mp hd with hd | hd
  · exact hleader d hd
  · exact not_mem_breakCharacters_of_isDigit (isDigit_of_mem_decimal hd)

/-! ## One length command -/

theorem contents_insert_outside (hu : Sealed {} u) (hv : Fresh {} v) (n : UInt32) :
    contents {} (u ++ (lengthCommand n ++ v)) = contents {} u ++ (labelLength, decimal n.toNat) :: contents {} v := by
  have hnew := isCommand_lengthCommand n
  rw [contents_append plain_usual hu (hnew.leader v), contents_append plain_usual hnew.closed hv, hnew.contents_eq,
    List.singleton_append]

theorem alike_insert_inside (hu : ¬ Sealed {} u) (hj : ∀ seam ∈ seams, ¬ Joins seam u v) (n : UInt32) :
    Alike (contents {} (u ++ (lengthCommand n ++ v))) (contents {} (u ++ v)) := by
  obtain ⟨cs, before, p, rfl, hp, hcontents⟩ := exists_open_contents plain_usual hu
  have hpass := passes_lengthCommand n
  have hraw : p.raw <:+ before ++ p.text := ⟨before ++ p.leader :: p.name, by simp [Span.text, hp.closing]⟩
  have hparams : (body {} fieldData v).params <+: v := by
    conv_rhs => rw [← body_append {} fieldData v, List.append_assoc]
    exact List.prefix_append _ _
  obtain ⟨hend, hbreaks⟩ := List.forall_mem_cons.mp hj
  have hbare := hp.body_of_not_joins fun h => hend (h.mono hraw (List.prefix_refl v))
  have hlines := lineCount_insert (lengthCommand_not_mem_breakCharacters n) hpass.ne_nil
    fun b hb h => hbreaks b hb (h.mono hraw hparams)
  rw [hcontents, hcontents, hp.contents_append hpass.misses hpass.head hpass.ne_nil, hp.contents_eq, hbare]
  exact (Alike.refl cs).append ((alike_fieldData hlines).append (.refl _))

theorem dots_insert_le (h : Apart u v) (hn : n ≤ m) (hdots : (ofMarkup a (u ++ v)).dots ≤ m) :
    (ofMarkup a (u ++ (lengthCommand n ++ v))).dots ≤ m := by
  rcases h with ⟨hu, hv⟩ | ⟨hu, hj⟩
  · have hothers : others (contents {} (u ++ (lengthCommand n ++ v))) = others (contents {} (u ++ v)) := by
      rw [contents_insert_outside hu hv, contents_append plain_usual hu hv, others, others, List.filter_append,
        List.filter_append, List.filter_cons_of_neg (by simp)]
    have hasked : (asked (contents {} (u ++ (lengthCommand n ++ v)))).Perm
        ((n.toNat : Int) :: asked (contents {} (u ++ v))) := by
      rw [contents_insert_outside hu hv, contents_append plain_usual hu hv, asked_append, asked_append,
        asked_lengthCommand_cons]
      exact List.perm_middle
    rw [dots_le_iff] at hdots ⊢
    refine ⟨by rw [hothers]; exact hdots.1, fun k hk => ?_⟩
    rcases List.mem_cons.mp (hasked.mem_iff.mp hk) with rfl | hk
    · rwa [clampUInt32_toNat]
    · exact hdots.2 k hk
  · rwa [(alike_insert_inside hu hj n).ofMarkup_eq]

/-! ## One for each placeholder -/

theorem Apart.filled (h : Apart u (replaceAll needle [] s)) (hn : needle ≠ []) (n : UInt32) :
    Apart u (replaceAll needle (lengthCommand n) s) := by
  rcases h with ⟨hu, hs⟩ | ⟨hu, hj⟩
  · exact .inl ⟨hu, fresh_replaceAll plain_usual hn (isCommand_lengthCommand n).leader hs⟩
  · refine .inr ⟨hu, fun seam hseam h => hj seam hseam ?_⟩
    obtain ⟨i, hi, hpos, hfront, hback⟩ := h
    -- Behind its first character no seam has a leader.
    have htail : ∀ seam ∈ seams, '^' ∉ seam.drop 1 := by
      simp [seams, oneBreak, fused, Leaders.terminator, fieldSeparator]
    have hno : '^' ∉ seam.drop i := fun hmem => htail seam hseam (List.drop_subset_drop_left _ hpos hmem)
    exact ⟨i, hi, hpos, hfront, prefix_replaceAll hno hback⟩

theorem dots_replaceAll_le (hn : needle ≠ []) (hle : n ≤ m)
    (h : ∀ o ∈ occurrences needle s, Apart (u ++ replaceAll needle [] o.1) (replaceAll needle [] o.2))
    (hdots : (ofMarkup a (u ++ replaceAll needle [] s)).dots ≤ m) :
    (ofMarkup a (u ++ replaceAll needle (lengthCommand n) s)).dots ≤ m := by
  induction s using cut_induction hn generalizing u with
  | none s hcut =>
    rw [replaceAll_of_cut?_eq_none _ hcut] at hdots ⊢
    exact hdots
  | some s b d hcut ih =>
    rw [replaceAll_of_cut? _ hn hcut, List.append_nil, ← List.append_assoc] at hdots
    rw [replaceAll_of_cut? _ hn hcut, List.append_assoc, ← List.append_assoc]
    obtain ⟨hfirst, hrest⟩ := forall_occurrences_of_cut?
      (P := fun x y => Apart (u ++ replaceAll needle [] x) (replaceAll needle [] y)) hn hcut h
    rw [replaceAll_of_cut?_eq_none [] (cut?_eq_none_of_cut? hn hcut)] at hfirst
    -- The length commands behind this one are put in first.
    refine dots_insert_le (hfirst.filled hn n) hle (ih (fun o ho => ?_) hdots)
    have happart := hrest o ho
    rwa [replaceAll_of_cut? [] hn (cut?_of_mem_occurrences hn hcut ho), List.append_nil, ← List.append_assoc]
      at happart

theorem dots_le_length (c : Config) (s : List Char) :
    (ofMarkup c.assumptions (replaceAll c.placeholder [] s)).dots ≤ c.length s := by
  have hlt := (ofMarkup c.assumptions (replaceAll c.placeholder [] s)).dots.toNat_lt
  rw [Config.length, UInt32.le_iff_toNat_le, toNat_addUInt32, UInt32.size]
  omega

/-- Where placeholders do no harm, a label with its length is no longer than that. -/
theorem Harmless.dots_putLength_le (h : Harmless c.placeholder s) :
    (ofMarkup c.assumptions (c.putLength s)).dots ≤ c.length s := by
  have hbare := dots_le_length c s
  by_cases hn : c.placeholder = []
  · rw [replaceAll, dif_pos hn] at hbare
    rwa [Config.putLength, replaceAll, dif_pos hn]
  · exact dots_replaceAll_le (u := []) hn (UInt32.le_refl _) h hbare

/-! ## Finished labels within their limit -/

theorem Config.finishResult_eq_ok {markup : Except Label.SourceError (List Char)} {setup : Media.Setup} {y : List Char}
    (h : c.finishResult setup markup = .ok y) : ∃ x, markup = .ok x ∧ c.finish setup x = .ok y := by
  cases markup with
  | ok x => exact ⟨x, rfl, h⟩
  | error e => simp [Config.finishResult] at h

theorem finish_within_iff {setup : Media.Setup} {x y : List Char} (hok : c.finish setup x = .ok y) :
    Within c m y ↔ Within c m (c.putLength (frame x)) := by
  obtain ⟨-, rfl⟩ := finish_eq_ok hok
  rw [within_iff_dots, within_iff_dots, (alike_fill c _ (frame x)).ofMarkup_eq]

/-- A printer that takes labels of this length and no longer ones. -/
def pressOf (n : UInt32) : Media.Setup := { press with device := { press.device with maxLength := n } }

theorem finish_pressOf (c : Config) (x : List Char) : ∃ y, c.finish (pressOf (c.length (frame x))) x = .ok y := by
  let setup := pressOf (c.length (frame x))
  have hdpi : c.strict → setup.surface.dpi = setup.device.resolution.dpi := fun _ => rfl
  have hfits : press.stock.width.toDots press.device.resolution ≤ press.device.maxWidth := by decide
  have hwidth : setup.stock.width.toDots setup.device.resolution ≤ setup.device.maxWidth := hfits
  exact ⟨_, (finish_eq hdpi hwidth x).trans (if_neg (UInt32.not_lt.mpr (UInt32.le_refl _)))⟩

/-- No printer gets a label beyond its limit exactly if the length that is put into the label does not make it longer
than that. Where placeholders do no harm, it does not. -/
theorem finishResult_within (c : Config) (markup : Except Label.SourceError (List Char)) :
    ((∀ setup y, c.finishResult setup markup = .ok y → Within c setup.device.maxLength y) ↔
      ∀ x, markup = .ok x → (ofMarkup c.assumptions (c.putLength (frame x))).dots ≤ c.length (frame x)) ∧
    ((∀ x, markup = .ok x → Harmless c.placeholder (frame x)) →
      ∀ setup y, c.finishResult setup markup = .ok y → Within c setup.device.maxLength y) := by
  have hiff : (∀ setup y, c.finishResult setup markup = .ok y → Within c setup.device.maxLength y) ↔
      ∀ x, markup = .ok x → (ofMarkup c.assumptions (c.putLength (frame x))).dots ≤ c.length (frame x) := by
    constructor
    · rintro h x rfl
      obtain ⟨y, hok⟩ := finish_pressOf c x
      exact ((finish_within_iff hok).mp (h _ y hok)).dots
    · intro h setup y hok
      obtain ⟨x, rfl, hok⟩ := Config.finishResult_eq_ok hok
      rw [finish_within_iff hok, within_iff_dots]
      exact UInt32.le_trans (h x rfl) (finish_eq_ok hok).1
  exact ⟨hiff, fun h => hiff.mpr fun x hx => (h x hx).dots_putLength_le⟩

/-- A placeholder may be written as commands. -/
def boxed : Config := { placeholder := "^FO0,5000^GB1,1^FS".toList }

/-- It stands between commands and in field data. -/
def box : List Char := "^XA^FO0,5000^GB1,1^FS ^FO0,0^FDx^FO0,5000^GB1,1^FSy^FS^XZ".toList

def finishedBox : List Char := "^XA^LL180 ^FO0,0^FDx^LL180y^FS^XZ".toList

theorem harmless_box : Harmless boxed.placeholder (frame box) := by
  have hocc : occurrences boxed.placeholder (frame box) =
      [("^XA".toList, " ^FO0,0^FDx^FO0,5000^GB1,1^FSy^FS^XZ".toList),
        ("^XA^FO0,5000^GB1,1^FS ^FO0,0^FDx".toList, "y^FS^XZ".toList)] := by
    cbv
  have hopening : spans {} (replaceAll boxed.placeholder [] "^XA".toList) = [⟨'^', ['X', 'A'], [], []⟩] := by
    cbv
  have hbehind : replaceAll boxed.placeholder [] " ^FO0,0^FDx^FO0,5000^GB1,1^FSy^FS^XZ".toList =
      ' ' :: "^FO0,0^FDxy^FS^XZ".toList := by
    cbv
  have hfront : replaceAll boxed.placeholder [] "^XA^FO0,5000^GB1,1^FS ^FO0,0^FDx".toList =
      "^XA ^FO0,0^FDx".toList := by
    cbv
  have hend : replaceAll boxed.placeholder [] "y^FS^XZ".toList = "y^FS^XZ".toList := by
    cbv
  have hdata : spans {} "^XA ^FO0,0^FDx".toList =
      [⟨'^', ['X', 'A'], [' '], []⟩, ⟨'^', ['F', 'O'], "0,0".toList, []⟩, ⟨'^', fieldData, ['x'], []⟩] := by
    cbv
  rw [Harmless, hocc, List.forall_mem_cons, List.forall_mem_singleton]
  constructor
  · left
    rw [Sealed, hopening, hbehind]
    exact ⟨by decide, (fresh_cons_blank (by decide)).mpr (fresh_of_leader plain_usual (by decide) _)⟩
  · right
    rw [hfront, hend, Sealed, hdata]
    exact ⟨by decide, by decide⟩

theorem finishResult_within_box : Harmless boxed.placeholder (frame box) ∧
    boxed.finishResult press (.ok box) = .ok finishedBox ∧ Within boxed 7917 finishedBox := by
  have hok : boxed.finishResult press (.ok box) = .ok finishedBox := by
    cbv
  have hwithin := (finishResult_within boxed (.ok box)).2 (fun x hx => Except.ok.inj hx ▸ harmless_box)
  exact ⟨harmless_box, hok, hwithin press finishedBox hok⟩

/-- Digits behind a placeholder become digits of the length that stands in its place. -/
theorem not_finish_within : ¬ ∀ (c : Config) (setup : Media.Setup) (x y : List Char), c.finish setup x = .ok y →
    (ofMarkup c.assumptions y).dots ≤ setup.device.maxLength := by
  intro h
  have hok : Config.finish {} press "^XA<<LL_MARKER>>99999^XZ".toList = .ok "^XA^LL15099999^XZ".toList := by
    cbv
  have hextent : ofMarkup {} "^XA^LL15099999^XZ".toList = ⟨0, some 15099999, 15099999⟩ := by
    cbv
  have hlimit := h {} press _ _ hok
  rw [hextent] at hlimit
  exact absurd hlimit (by decide)

end LabelPress.Finish
