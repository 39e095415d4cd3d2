import LabelPress.Proofs.Finish.Frame

/-!
# Finishing a finished label

A finished label has its frame, its width and no placeholder, so finishing leaves its text as it is. All that
may happen is that it is refused, because a margin is added to the length it asks for by now
(`finish_finished`).
-/

namespace LabelPress.Finish

open Markup Number Text Estimate

variable {c : Config} {setup : Media.Setup} {needle mark s x y : List Char}

/-! ## Frames -/

theorem frame_of_marks (ho : opening <:+: s) (he : ending <:+: s) : frame s = s := by
  rw [frame, opened, if_pos (occurs_iff.mpr ho), closed, if_pos (occurs_iff.mpr he)]

theorem opening_infix_frame (x : List Char) : opening <:+: frame x := by
  have hopened : opening <:+: opened x := by
    unfold opened
    split_ifs with h
    · exact occurs_iff.mp h
    · exact (List.prefix_append _ _).isInfix
  unfold frame closed
  split_ifs
  · exact hopened
  · exact hopened.trans (List.prefix_append _ _).isInfix

theorem ending_infix_frame (x : List Char) : ending <:+: frame x := by
  unfold frame closed
  split_ifs with h
  · exact occurs_iff.mp h
  · exact ⟨opened x ++ ['\n'], [], by simp⟩

/-! ## Placeholders -/

/-- The commands of a frame and of a width, as they are found in a text. -/
def IsMark (mark : List Char) : Prop := mark ∈ [opening, ending, widthLeader]

theorem Foreign.head_not_mem_of_alphanum (h : Foreign needle) {w : List Char} (hw : ∀ e ∈ w, e.isAlphanum) :
    ∀ d ∈ needle.head?, d ∉ w :=
  fun d hd hmem => h.head d hd (hw d hmem)

theorem Foreign.misses_mark (h : Foreign needle) (hn : needle ≠ []) (hmark : IsMark mark) :
    Misses needle mark ∧ Misses mark needle := by
  obtain ⟨w, rfl, hw⟩ : ∃ w, mark = '^' :: w ∧ ∀ e ∈ w, e.isAlphanum := by
    simp only [IsMark, List.mem_cons, List.not_mem_nil, or_false] at hmark
    rcases hmark with rfl | rfl | rfl
    · exact ⟨['X', 'A'], rfl, List.forall_iff_forall_mem.mp (by decide)⟩
    · exact ⟨['X', 'Z'], rfl, List.forall_iff_forall_mem.mp (by decide)⟩
    · exact ⟨['P', 'W'], rfl, List.forall_iff_forall_mem.mp (by decide)⟩
  refine ⟨misses_of_head hn fun d hd hmem => ?_, misses_of_not_mem h.no_command⟩
  rcases List.mem_cons.mp hmem with rfl | hmem
  · exact h.no_command (List.mem_of_mem_head? hd)
  · exact h.head_not_mem_of_alphanum hw d hd hmem

theorem Foreign.infix_putLength (h : Foreign c.placeholder) (hmark : IsMark mark) (hs : mark <:+: s) :
    mark <:+: c.putLength s := by
  rw [Config.putLength]
  by_cases hn : c.placeholder = []
  · rwa [replaceAll, dif_pos hn]
  · obtain ⟨hneedle, hback⟩ := h.misses_mark hn hmark
    exact infix_replaceAll hneedle hback _ hs

theorem Foreign.head_not_mem_append_decimal (h : Foreign needle) {w : List Char} (hw : ∀ e ∈ w, e.isAlphanum)
    (k : Nat) :
    ∀ d ∈ needle.head?, d ∉ w ++ decimal k := by
  apply h.head_not_mem_of_alphanum
  intro e he
  rcases List.mem_append.mp he with he | he
  · exact hw e he
  · simp [Char.isAlphanum, isDigit_of_mem_decimal he]

theorem Foreign.not_infix_putLength (h : Foreign c.placeholder) (hn : c.placeholder ≠ []) (s : List Char) :
    ¬ c.placeholder <:+: c.putLength s :=
  not_infix_replaceAll (w := ['L', 'L'] ++ decimal (c.length s).toNat) hn h.no_command
    (h.head_not_mem_append_decimal (List.forall_iff_forall_mem.mp (by decide)) _) s

/-- No placeholder stands in the text. An empty one stands nowhere. -/
def Bare (needle s : List Char) : Prop := needle = [] ∨ ¬ needle <:+: s

theorem Bare.replaceAll_eq (h : Bare needle s) (new : List Char) : replaceAll needle new s = s := by
  rcases h with hnil | hnone
  · rw [replaceAll, dif_pos hnil]
  · exact replaceAll_of_cut?_eq_none new (cut?_eq_none_iff.mpr hnone)

/-! ## Widths -/

theorem exists_insertWidth (n : UInt32) (s : List Char) : insertWidth n s = s ∨
    ∃ a b, s = a ++ opening ++ b ∧ insertWidth n s = a ++ opening ++ widthCommand n ++ b := by
  rw [insertWidth]
  split_ifs
  · exact .inl rfl
  · cases hcut : cut? opening s with
    | none => exact .inl rfl
    | some o => exact .inr ⟨o.1, o.2, eq_append_of_cut? hcut, rfl⟩

theorem insertWidth_insertWidth (n : UInt32) (s : List Char) :
    insertWidth n (insertWidth n s) = insertWidth n s := by
  rcases exists_insertWidth n s with h | ⟨a, b, -, h⟩
  · rw [h, h]
  · have hwidth : widthLeader <:+: insertWidth n s := ⟨a ++ opening, decimal n.toNat ++ b, by simp [h, widthCommand]⟩
    rw [insertWidth, if_pos (occurs_iff.mpr hwidth)]

theorem misses_opening_ending : Misses opening ending ∧ Misses ending opening := by
  constructor
  · refine misses_cons (fun z => ?_) (misses_of_not_mem (by decide))
    simp [opening, List.cons_prefix_cons]
  · refine misses_cons (fun z => ?_) (misses_of_not_mem (by decide))
    simp [ending, List.cons_prefix_cons]

theorem opening_infix_insertWidth (h : opening <:+: s) (n : UInt32) : opening <:+: insertWidth n s := by
  rcases exists_insertWidth n s with hs | ⟨a, b, -, hs⟩
  · rwa [hs]
  · exact ⟨a, widthCommand n ++ b, by simp [hs]⟩

theorem ending_infix_insertWidth (h : ending <:+: s) (n : UInt32) : ending <:+: insertWidth n s := by
  rcases exists_insertWidth n s with hs | ⟨a, b, rfl, hs⟩
  · rwa [hs]
  · rw [hs]
    rcases infix_of_infix_append misses_opening_ending.1 misses_opening_ending.2 h with ha | hb
    · rw [List.append_assoc, List.append_assoc]
      exact ha.trans (List.prefix_append _ _).isInfix
    · exact hb.trans (List.suffix_append _ _).isInfix

theorem Foreign.not_infix_insertWidth (h : Foreign needle) (hn : needle ≠ []) (hs : ¬ needle <:+: s) (n : UInt32) :
    ¬ needle <:+: insertWidth n s := by
  rcases exists_insertWidth n s with heq | ⟨a, b, rfl, heq⟩
  · rwa [heq]
  · have htext : a ++ opening ++ widthCommand n ++ b =
        (a ++ opening) ++ '^' :: (['P', 'W'] ++ decimal n.toNat ++ b) := by
      simp [widthCommand, widthLeader]
    have hmiss : Misses needle (['P', 'W'] ++ decimal n.toNat) :=
      misses_of_head hn (h.head_not_mem_append_decimal (List.forall_iff_forall_mem.mp (by decide)) _)
    rw [heq, htext]
    intro hinfix
    rcases infix_of_infix_append_cons h.no_command hinfix with ha | hb
    · exact hs (ha.trans (List.prefix_append _ _).isInfix)
    · exact hs ((hmiss.infix_of_append hb).trans (List.suffix_append _ _).isInfix)

/-! ## Finished labels -/

theorem frame_fill (h : Foreign c.placeholder) (width : UInt32) (x : List Char) :
    frame (c.fill width (frame x)) = c.fill width (frame x) := by
  have ho := h.infix_putLength (by simp [IsMark]) (opening_infix_frame x)
  have he := h.infix_putLength (by simp [IsMark]) (ending_infix_frame x)
  unfold Config.fill
  split_ifs
  · exact frame_of_marks (opening_infix_insertWidth ho width) (ending_infix_insertWidth he width)
  · exact frame_of_marks ho he

theorem Foreign.bare_fill (h : Foreign c.placeholder) (width : UInt32) (s : List Char) :
    Bare c.placeholder (c.fill width s) := by
  by_cases hn : c.placeholder = []
  · exact .inl hn
  right
  have hnone := h.not_infix_putLength hn s
  unfold Config.fill
  split_ifs
  · exact h.not_infix_insertWidth hn hnone width
  · exact hnone

theorem fill_fill (h : Foreign c.placeholder) (width : UInt32) (s : List Char) :
    c.fill width (c.fill width s) = c.fill width s := by
  have hput : c.putLength (c.fill width s) = c.fill width s := (h.bare_fill width s).replaceAll_eq _
  conv_lhs => rw [Config.fill, hput]
  split_ifs with hwidth
  · rw [Config.fill, if_pos hwidth, insertWidth_insertWidth]
  · rfl

theorem length_fill (h : Foreign c.placeholder) (hbare : Bare c.placeholder s) (width : UInt32) :
    c.length (c.fill width s) = c.length s := by
  have hput : c.putLength s = s := hbare.replaceAll_eq _
  rw [Config.length, Config.length, (h.bare_fill width s).replaceAll_eq, hbare.replaceAll_eq,
    (alike_fill c width s).ofMarkup_eq, hput]

theorem finish_checks (h : c.finish setup x = .ok y) : (c.strict → setup.surface.dpi = setup.device.resolution.dpi) ∧
    setup.stock.width.toDots setup.device.resolution ≤ setup.device.maxWidth := by
  simp only [Config.finish] at h
  split_ifs at h with hstrict hwidth
  refine ⟨fun hc => ?_, UInt32.not_lt.mp hwidth⟩
  by_contra hne
  exact hstrict ⟨hc, hne⟩

/-- A finished label has no placeholder, and finishing gives it back or refuses its length. If the framed label
had no placeholder in the first place, it is given back. -/
theorem finish_finished (c : Config) (setup : Media.Setup) (x y : List Char) (hneedle : Foreign c.placeholder)
    (hok : c.finish setup x = .ok y) :
    (c.placeholder ≠ [] → occurs c.placeholder y = false) ∧
      (c.finish setup y = .ok y ∨
        ∃ n, setup.device.maxLength < n ∧ c.finish setup y = .error (.overflow .length n setup.device.maxLength)) ∧
      (c.placeholder = [] ∨ occurs c.placeholder (frame x) = false → c.finish setup y = .ok y) := by
  obtain ⟨hstrict, hwidth⟩ := finish_checks hok
  obtain ⟨hmax, rfl⟩ := finish_eq_ok hok
  generalize hw : setup.stock.width.toDots setup.device.resolution = width at *
  have hagain := finish_eq hstrict (hw ▸ hwidth) (c.fill width (frame x))
  rw [hw, frame_fill hneedle, fill_fill hneedle] at hagain
  rw [hagain]
  refine ⟨fun hn => occurs_eq_false_iff.mpr ((hneedle.bare_fill _ _).resolve_left hn), ?_, fun hnone => ?_⟩
  · split_ifs with hlong
    · exact .inr ⟨_, hlong, rfl⟩
    · exact .inl rfl
  · rw [occurs_eq_false_iff] at hnone
    rw [if_neg (by rwa [length_fill hneedle hnone, UInt32.not_lt])]

/-- A label that is nearly as long as the printer allows. -/
def banner : List Char := "<<LL_MARKER>>^FO0,7700^FD<<LL>>^FS".toList

def finishedBanner : List Char := "^XA^PW448\n^LL7880^FO0,7700^FD<<LL>>^FS\n^XZ".toList

theorem finish_finished_banner : Foreign Label.Archive.defaultPlaceholder ∧
    Config.finish { addWidth := true } press banner = .ok finishedBanner ∧
    occurs Label.Archive.defaultPlaceholder finishedBanner = false ∧
    ∃ n, 7917 < n ∧ Config.finish { addWidth := true } press finishedBanner = .error (.overflow .length n 7917) := by
  have hok : Config.finish { addWidth := true } press banner = .ok finishedBanner := by
    cbv
  have hrefused : Config.finish { addWidth := true } press finishedBanner ≠ .ok finishedBanner := by
    have h : Config.finish { addWidth := true } press finishedBanner = .error (.overflow .length 8030 7917) := by
      cbv
    simp [h]
  obtain ⟨hnone, hagain, -⟩ := finish_finished { addWidth := true } press banner finishedBanner foreign_default hok
  exact ⟨foreign_default, hok, hnone (by decide), hagain.resolve_left hrefused⟩

end LabelPress.Finish
