import LabelPress.Label.Source
import LabelPress.Proofs.Finish.Inserted
import LabelPress.Proofs.Label.Pieces

/-!
# Lengths in templates

A template has tags where its length goes. Expanding it puts a placeholder there, and finishing finds those and no
others, if the placeholder begins with a character of its own. So the length stands where the tags are, and
nothing else is changed (`finishResult_template`).
-/

namespace LabelPress.Finish

open Label Number Text

/-- A placeholder whose first character stands neither in the commands of a frame nor in the literal text of a
template or in the values that are put into it. -/
structure Singular (needle : List Char) (context : Context) (ps : List Piece) : Prop where
  ne_nil : needle ≠ []
  no_command : '^' ∉ needle
  not_frame : ∀ d ∈ needle.head?, d ∉ ['X', 'A', 'Z', '\n']
  not_literal : ∀ d ∈ needle.head?, ∀ s, .literal s ∈ ps → d ∉ s
  not_value : ∀ d ∈ needle.head?, ∀ inner s, .tag .variable inner ∈ ps →
    context.get? (String.ofList (trim inner)) = some s → d ∉ s

variable {c : Config} {setup : Media.Setup} {needle mark x y : List Char} {context : Context} {p : Piece}
  {ps : List Piece}

theorem Singular.tail (h : Singular needle context (p :: ps)) : Singular needle context ps where
  ne_nil := h.ne_nil
  no_command := h.no_command
  not_frame := h.not_frame
  not_literal := fun d hd s hs => h.not_literal d hd s (List.mem_cons_of_mem p hs)
  not_value := fun d hd inner s hs => h.not_value d hd inner s (List.mem_cons_of_mem p hs)

theorem Singular.misses_of_frame (h : Singular needle context ps) {u : List Char}
    (hu : ∀ e ∈ u, e = '^' ∨ e ∈ ['X', 'A', 'Z', '\n']) : Misses needle u := by
  apply misses_of_head h.ne_nil
  intro d hd hmem
  rcases hu d hmem with rfl | hframe
  · exact h.no_command (List.mem_of_mem_head? hd)
  · exact h.not_frame d hd hframe

/-! ## Placeholders in an expansion -/

theorem Singular.replaceAll_append (h : Singular needle context ps) (new s : List Char) :
    replaceAll needle new (ps.flatMap (Piece.filled context needle) ++ s) =
      ps.flatMap (Piece.filled context new) ++ replaceAll needle new s := by
  induction ps with
  | nil => rfl
  | cons p ps ih =>
    have hrest := ih h.tail
    rw [List.flatMap_cons, List.flatMap_cons, List.append_assoc, List.append_assoc]
    cases p with
    | literal t =>
      have hmiss : Misses needle t :=
        misses_of_head h.ne_nil fun d hd => h.not_literal d hd t List.mem_cons_self
      rw [Piece.filled, Piece.filled, replaceAll_append_left hmiss, hrest]
    | tag kind inner =>
      rcases kind
      · have hmiss : Misses needle ((context.get? (String.ofList (trim inner))).getD []) := by
          apply misses_of_head h.ne_nil
          intro d hd
          cases hvalue : context.get? (String.ofList (trim inner)) with
          | none => exact List.not_mem_nil
          | some t => exact h.not_value d hd inner t List.mem_cons_self hvalue
        rw [Piece.filled, Piece.filled, replaceAll_append_left hmiss, hrest]
      · rw [Piece.filled, Piece.filled, replaceAll_append_self h.ne_nil, hrest]

theorem Singular.replaceAll_filled (h : Singular needle context ps) (new : List Char) :
    replaceAll needle new (ps.flatMap (Piece.filled context needle)) = ps.flatMap (Piece.filled context new) := by
  have happend := h.replaceAll_append new []
  rwa [replaceAll_nil, List.append_nil, List.append_nil] at happend

theorem Singular.infix_filled_iff (h : Singular needle context ps) (hmark : mark = opening ∨ mark = ending)
    (n : UInt32) : mark <:+: ps.flatMap (Piece.filled context needle) ↔
      mark <:+: ps.flatMap (Piece.filled context (lengthCommand n)) := by
  obtain ⟨d, w, rfl, hd, hw, hframe⟩ : ∃ d w, mark = '^' :: d :: w ∧ d ≠ 'L' ∧ '^' ∉ d :: w ∧
      ∀ e ∈ '^' :: d :: w, e = '^' ∨ e ∈ ['X', 'A', 'Z', '\n'] := by
    rcases hmark with rfl | rfl
    · exact ⟨'X', ['A'], rfl, by decide, by decide, List.forall_iff_forall_mem.mp (by decide)⟩
    · exact ⟨'X', ['Z'], rfl, by decide, by decide, List.forall_iff_forall_mem.mp (by decide)⟩
  rw [← h.replaceAll_filled (lengthCommand n)]
  constructor
  · exact infix_replaceAll (h.misses_of_frame hframe) (misses_of_not_mem h.no_command) _
  · exact infix_of_infix_replaceAll (misses_command hd.symm hw) (misses_command hd (no_command_lengthCommand n))

theorem Singular.replaceAll_frame (h : Singular needle context ps) (n : UInt32) :
    replaceAll needle (lengthCommand n) (frame (ps.flatMap (Piece.filled context needle))) =
      frame (ps.flatMap (Piece.filled context (lengthCommand n))) := by
  simp only [frame_eq, h.infix_filled_iff (.inl rfl) n, h.infix_filled_iff (.inr rfl) n]
  generalize hfront : (if opening <:+: ps.flatMap (Piece.filled context (lengthCommand n)) then []
    else opening ++ ['\n']) = u
  generalize hback : (if ending <:+: ps.flatMap (Piece.filled context (lengthCommand n)) then []
    else '\n' :: ending) = v
  have hu : Misses needle u := by
    apply h.misses_of_frame
    rw [← hfront]
    split_ifs
    · simp
    · exact List.forall_iff_forall_mem.mp (by decide)
  have hv : Misses needle v := by
    apply h.misses_of_frame
    rw [← hback]
    split_ifs
    · simp
    · exact List.forall_iff_forall_mem.mp (by decide)
  have hend := replaceAll_append_left hv (lengthCommand n) []
  rw [replaceAll_nil, List.append_nil] at hend
  rw [List.append_assoc, replaceAll_append_left hu, h.replaceAll_append, hend, List.append_assoc]

/-! ## Finishing -/

theorem finish_eq_ok_iff : c.finish setup x = .ok y ↔
    (c.strict → setup.surface.dpi = setup.device.resolution.dpi) ∧
      setup.stock.width.toDots setup.device.resolution ≤ setup.device.maxWidth ∧
      c.length (frame x) ≤ setup.device.maxLength ∧
      y = c.fill (setup.stock.width.toDots setup.device.resolution) (frame x) := by
  constructor
  · intro h
    obtain ⟨hstrict, hwidth⟩ := finish_checks h
    exact ⟨hstrict, hwidth, finish_eq_ok h⟩
  · rintro ⟨hstrict, hwidth, hlength, rfl⟩
    rw [finish_eq hstrict hwidth, if_neg (UInt32.not_lt.mpr hlength)]

/-- A template that can be expanded is finished with its length in the place of each length tag, with its values
as they are, and with the lines of a frame that it does not have. It is refused only for its size or resolution. -/
theorem finishResult_template (c : Config) (setup : Media.Setup) (files : Files.Store) (archive : Archive)
    (name : String) (body : List Char) (context : Context) (ps : List Piece)
    (hbody : archive.get? name = some body) (hps : MadeOf ps body)
    (hneedle : Singular c.placeholder context ps) (hwidth : c.addWidth = false) :
    let markup := (Source.template archive name context c.placeholder).markup files
    ∃ (x : List Char) (n : UInt32), markup = .ok x ∧
      n.toNat = min (2 ^ 32 - 1)
        ((Estimate.ofMarkup c.assumptions (replaceAll c.placeholder [] (frame x))).dots.toNat + c.margin.toNat) ∧
      let filled := ps.flatMap (Piece.filled context (lengthCommand n))
      ∀ y, c.finishResult setup markup = .ok y ↔
        (c.strict → setup.surface.dpi = setup.device.resolution.dpi) ∧
          setup.stock.width.toDots setup.device.resolution ≤ setup.device.maxWidth ∧
          n ≤ setup.device.maxLength ∧
          y = (if opening <:+: filled then [] else opening ++ ['\n']) ++ filled ++
            (if ending <:+: filled then [] else '\n' :: ending) := by
  intro markup
  have hmarkup : markup = .ok (ps.flatMap (Piece.filled context c.placeholder)) := by
    have hpieces := pieces_eq_ok_iff.mpr hps
    change archive.render name context c.placeholder = _
    rw [Archive.render, hbody]
    change expand context c.placeholder body = _
    rw [expand, expandFrom_eq_map, ← pieces, hpieces]
    rfl
  refine ⟨_, c.length (frame (ps.flatMap (Piece.filled context c.placeholder))), hmarkup, ?_, ?_⟩
  · rw [min_comm]
    exact toNat_addUInt32 _ c.margin
  · intro filled y
    have hfill : ∀ width, c.fill width (frame (ps.flatMap (Piece.filled context c.placeholder))) = frame filled := by
      intro width
      rw [Config.fill, hwidth, if_neg Bool.false_ne_true, Config.putLength, hneedle.replaceAll_frame]
    rw [hmarkup, Config.finishResult, finish_eq_ok_iff, hfill, frame_eq filled]

/-- A slip with two length tags side by side, and a value that looks like a tag. -/
def slip : List Char := "{% ll %}{%ll%}^FO0,0^FD{{ who }}^FS".toList

def slips : Archive := { templates := NameMap.empty.insert "slip" slip }

def slipPieces : List Piece :=
  [.tag .block " ll ".toList, .tag .block "ll".toList, .literal "^FO0,0^FD".toList, .tag .variable " who ".toList,
    .literal "^FS".toList]

/-- The placeholder may overlap with itself. -/
theorem finishResult_template_slip :
    let context : Context := NameMap.empty.insert "who" "{% ll %}".toList
    let c : Config := { placeholder := ['@', '@'] }
    slips.get? "slip" = some slip ∧ MadeOf slipPieces slip ∧ Singular c.placeholder context slipPieces ∧
      c.finishResult press ((Source.template slips "slip" context c.placeholder).markup .empty) =
        .ok "^XA\n^LL180^LL180^FO0,0^FD{% ll %}^FS\n^XZ".toList := by
  intro context c
  have hbody : slips.get? "slip" = some slip := by decide +kernel
  have hps : MadeOf slipPieces slip := pieces_eq_ok_iff.mp (by cbv)
  have hvalue : context.get? (String.ofList (trim " who ".toList)) = some "{% ll %}".toList := by decide +kernel
  have hneedle : Singular c.placeholder context slipPieces := by
    have hhead : ∀ d ∈ c.placeholder.head?, d = '@' := fun d hd => (Option.mem_some_iff.mp hd).symm
    refine ⟨by decide, by decide, fun d hd => ?_, fun d hd s hs => ?_, fun d hd inner s hs hget => ?_⟩
    · rw [hhead d hd]
      decide
    · rw [hhead d hd]
      have hs : s = "^FO0,0^FD".toList ∨ s = "^FS".toList := by simpa [slipPieces] using hs
      rcases hs with rfl | rfl <;> decide
    · rw [hhead d hd]
      obtain rfl : inner = " who ".toList := by simpa [slipPieces] using hs
      obtain rfl := Option.some.inj (hvalue.symm.trans hget)
      decide
  obtain ⟨x, n, hx, hn, hfinish⟩ :=
    finishResult_template c press .empty slips "slip" slip context slipPieces hbody hps hneedle rfl
  have hmarkup : (Source.template slips "slip" context c.placeholder).markup .empty =
      .ok "@@@@^FO0,0^FD{% ll %}^FS".toList := by
    decide +kernel
  obtain rfl := Except.ok.inj (hx.symm.trans hmarkup)
  have hextent : Estimate.ofMarkup {} (replaceAll c.placeholder [] (frame "@@@@^FO0,0^FD{% ll %}^FS".toList)) =
      ⟨30, none, 30⟩ := by
    cbv
  rw [hextent] at hn
  obtain rfl : n = 180 := UInt32.toNat_inj.mp hn
  have hfilled : slipPieces.flatMap (Piece.filled context (lengthCommand 180)) =
      "^LL180^LL180^FO0,0^FD{% ll %}^FS".toList := by
    decide +kernel
  refine ⟨hbody, hps, hneedle, (hfinish _).mpr ⟨by decide, by decide, by decide, ?_⟩⟩
  rw [hfilled]
  decide +kernel

end LabelPress.Finish
