import LabelPress.Proofs.Finish.Length
import LabelPress.Proofs.Markup.Lines
import LabelPress.Proofs.Text.Replaced

/-!
# A frame changes no length

Neither the opening nor the ending of a frame touches a placeholder or a command of the label. So a label is
as long without its frame, and what becomes of it is known before it is framed (`finish_eq_of_closed`).
-/

namespace LabelPress.Finish

open Markup Number Text Estimate

/-- A placeholder that is no part of a frame: it holds no leader of a format command and does not begin with a
letter or digit. -/
structure Foreign (needle : List Char) : Prop where
  no_command : '^' ∉ needle
  head : ∀ d ∈ needle.head?, ¬ d.isAlphanum

variable {c : Config} {setup : Media.Setup} {needle s u v x : List Char}

theorem Foreign.head_not_mem (h : Foreign needle) (hu : ∀ e ∈ u, e = '^' ∨ e.isAlphanum ∨ isBlank e)
    (hblank : ∀ d ∈ needle.head?, ¬ isBlank d) :
    ∀ d ∈ needle.head?, d ∉ u := by
  intro d hd hmem
  rcases hu d hmem with rfl | halnum | hb
  · exact h.no_command (List.mem_of_mem_head? hd)
  · exact h.head d hd halnum
  · exact hblank d hd hb

/-! ## The parts of a frame -/

theorem frame_eq (x : List Char) : frame x = (if opening <:+: x then [] else opening ++ ['\n']) ++ x ++
    (if ending <:+: x then [] else '\n' :: ending) := by
  have hending : ending <:+: opened x ↔ ending <:+: x := by
    unfold opened
    split_ifs
    · rfl
    · refine ⟨fun h => ?_, fun h => h.trans ⟨opening ++ ['\n'], [], by simp⟩⟩
      exact (infix_of_infix_append_cons (by decide) h).resolve_left (by decide)
  simp only [frame, closed, occurs_iff, hending]
  simp only [opened, occurs_iff]
  split_ifs <;> simp

theorem exists_frame (x : List Char) : ∃ u v, frame x = u ++ x ++ v ∧ (u = [] ∨ u = opening ++ ['\n']) ∧
    (v = [] ∨ v = '\n' :: ending) := by
  refine ⟨_, _, frame_eq x, ?_, ?_⟩
  · exact (ite_eq_or_eq _ _ _)
  · exact (ite_eq_or_eq _ _ _)

theorem replaceAll_framed (h : Foreign needle) (hblank : ∀ d ∈ needle, ¬ isBlank d)
    (hu : u = [] ∨ u = opening ++ ['\n']) (hv : v = [] ∨ v = '\n' :: ending) (new s : List Char) :
    replaceAll needle new (u ++ s ++ v) = u ++ replaceAll needle new s ++ v := by
  by_cases hn : needle = []
  · rw [replaceAll, dif_pos hn, replaceAll, dif_pos hn]
  have hhead : ∀ d ∈ needle.head?, ¬ isBlank d := fun d hd => hblank d (List.mem_of_mem_head? hd)
  have hfront : Misses needle u := by
    refine misses_of_head hn (h.head_not_mem ?_ hhead)
    rcases hu with rfl | rfl
    · simp
    · exact List.forall_iff_forall_mem.mp (by decide)
  rw [List.append_assoc, replaceAll_append_left hfront, List.append_assoc]
  congr 1
  rcases hv with rfl | rfl
  · simp
  · -- The line feed and the leader keep the ending and the label apart.
    have hmiss : Misses needle ['X', 'Z'] := misses_of_head hn
      (h.head_not_mem (List.forall_iff_forall_mem.mp (by decide)) hhead)
    have hseam : ∀ e ∈ ['\n', '^'], e ∉ needle := by
      intro e he hmem
      rcases List.mem_cons.mp he with rfl | he
      · exact hblank _ hmem (by decide)
      · rw [List.mem_singleton] at he
        exact h.no_command (he ▸ hmem)
    have hend := replaceAll_append_left hmiss new []
    rw [List.append_nil, replaceAll_nil, List.append_nil] at hend
    have := replaceAll_append hn hseam (by simp) new s ['X', 'Z']
    rw [hend] at this
    simpa [ending] using this

/-! ## Lengths -/

theorem contents_ending : ∃ params, contents {} ('\n' :: ending) = [(['X', 'Z'], params)] := by
  obtain ⟨params, h⟩ := contents_two (c := 'X') (d := 'Z') (w := []) (.two (by decide) (by decide) (by decide))
    (by decide) (by simp) []
  refine ⟨params, ?_⟩
  rw [contents, spans_skip (by decide), ← contents]
  simpa [ending, contents] using h

theorem alike_framed (hs : Sealed {} s) (hu : u = [] ∨ u = opening ++ ['\n']) (hv : v = [] ∨ v = '\n' :: ending) :
    Alike (contents {} (u ++ s ++ v)) (contents {} s) := by
  have hback : Alike (contents {} (s ++ v)) (contents {} s) := by
    rcases hv with rfl | rfl
    · rw [List.append_nil]
      exact .refl _
    · have hfresh : Fresh {} ('\n' :: ending) := (fresh_cons_blank (by decide)).mpr
        (fresh_of_leader plain_usual (by decide) _)
      obtain ⟨params, hending⟩ := contents_ending
      have hone : Alike [(['X', 'Z'], params)] [] := alike_of_not_mem (by simp [interpreted, fieldData])
      rw [contents_append plain_usual hs hfresh, hending]
      simpa using (Alike.refl (contents {} s)).append hone
  rcases hu with rfl | rfl
  · exact hback
  · obtain ⟨params, hopening⟩ := contents_opening ('\n' :: (s ++ v))
    have hone : Alike [(['X', 'A'], params)] [] := alike_of_not_mem (by simp [interpreted, fieldData])
    have hskip : contents {} ('\n' :: (s ++ v)) = contents {} (s ++ v) := by
      rw [contents, spans_skip fun h => absurd h (by decide), ← contents]
    have htext : opening ++ ['\n'] ++ s ++ v = opening ++ '\n' :: (s ++ v) := by simp
    rw [htext, hopening, hskip]
    exact hone.append hback

theorem Alike.ofMarkup_eq {s t : List Char} (h : Alike (contents {} s) (contents {} t)) (a : Assumptions) :
    ofMarkup a s = ofMarkup a t := by
  rw [Estimate.ofMarkup_eq, Estimate.ofMarkup_eq, h.walk]

theorem length_frame (h : Foreign c.placeholder) (hblank : ∀ d ∈ c.placeholder, ¬ isBlank d)
    (hsealed : Sealed {} (replaceAll c.placeholder [] x)) : c.length (frame x) = c.length x := by
  obtain ⟨u, v, hframe, hu, hv⟩ := exists_frame x
  rw [Config.length, hframe, replaceAll_framed h hblank hu hv, (alike_framed hsealed hu hv).ofMarkup_eq, Config.length]

/-! ## Finishing -/

theorem finish_eq (hstrict : c.strict → setup.surface.dpi = setup.device.resolution.dpi)
    (hwidth : setup.stock.width.toDots setup.device.resolution ≤ setup.device.maxWidth) (x : List Char) :
    c.finish setup x =
      if setup.device.maxLength < c.length (frame x) then
        .error (.overflow .length (c.length (frame x)) setup.device.maxLength)
      else .ok (c.fill (setup.stock.width.toDots setup.device.resolution) (frame x)) := by
  have hmatch : ¬ (c.strict ∧ setup.surface.dpi ≠ setup.device.resolution.dpi) := fun h => h.2 (hstrict h.1)
  rw [Config.finish]
  simp only [if_neg hmatch, if_neg (UInt32.not_lt.mpr hwidth)]

theorem sealed_of_closed (h : ∀ t ∈ tokenize {} s, t.name = fieldData →
    ({} : Leaders).terminator <:+ slice s t.start t.stop) :
    Sealed {} s :=
  sealed_of_tokens plain_usual.apart h

/-- A label whose field data is closed once its placeholders are out is finished as its estimate says: it is
refused for its length exactly if the estimate and the margin are beyond the limit, and otherwise they are the
length in the place of each placeholder. -/
theorem finish_eq_of_closed (c : Config) (setup : Media.Setup) (x : List Char) (hneedle : Foreign c.placeholder)
    (hblank : ∀ d ∈ c.placeholder, ¬ isBlank d)
    (hstrict : c.strict → setup.surface.dpi = setup.device.resolution.dpi)
    (hwidth : setup.stock.width.toDots setup.device.resolution ≤ setup.device.maxWidth)
    (hclosed : ∀ t ∈ tokenize {} (replaceAll c.placeholder [] x), t.name = fieldData →
      ({} : Leaders).terminator <:+ slice (replaceAll c.placeholder [] x) t.start t.stop) :
    ∃ n : UInt32,
      n.toNat = min (2 ^ 32 - 1)
        ((ofMarkup c.assumptions (replaceAll c.placeholder [] x)).dots.toNat + c.margin.toNat) ∧
      c.finish setup x =
        if setup.device.maxLength < n then .error (.overflow .length n setup.device.maxLength)
        else
          let filled := replaceAll c.placeholder (lengthCommand n) (frame x)
          .ok (if c.addWidth then insertWidth (setup.stock.width.toDots setup.device.resolution) filled else filled) := by
  have hlength := length_frame hneedle hblank (sealed_of_closed hclosed)
  refine ⟨c.length x, ?_, ?_⟩
  · rw [min_comm]
    exact toNat_addUInt32 _ c.margin
  · rw [finish_eq hstrict hwidth, Config.fill, Config.putLength, hlength]

/-- A label without a frame. -/
def plate : List Char := "A4 <<LL_MARKER>>\n^FO10,20^FD2 < 3^FS\n<<LL_MARKER>>".toList

theorem foreign_default : Foreign Label.Archive.defaultPlaceholder where
  no_command := by decide
  head := by
    intro d hd
    obtain rfl : '<' = d := Option.mem_some_iff.mp hd
    decide

theorem finish_eq_of_closed_plate :
    Foreign Label.Archive.defaultPlaceholder ∧ (∀ d ∈ Label.Archive.defaultPlaceholder, ¬ isBlank d) ∧
      Config.finish { strict := true } press plate =
        .ok "^XA\nA4 ^LL200\n^FO10,20^FD2 < 3^FS\n^LL200\n^XZ".toList := by
  have hblank : ∀ d ∈ Label.Archive.defaultPlaceholder, ¬ isBlank d :=
    List.forall_iff_forall_mem.mp (by decide)
  have htokens : tokenize {} (replaceAll Label.Archive.defaultPlaceholder [] plate) =
      [⟨['F', 'O'], "10,20".toList, 4, 12⟩, ⟨['F', 'D'], "2 < 3".toList, 12, 23⟩] := by
    cbv
  have hbare : replaceAll Label.Archive.defaultPlaceholder [] plate = "A4 \n^FO10,20^FD2 < 3^FS\n".toList := by
    cbv
  have hclosed : ∀ t ∈ tokenize {} (replaceAll Label.Archive.defaultPlaceholder [] plate), t.name = fieldData →
      ({} : Leaders).terminator <:+
        slice (replaceAll Label.Archive.defaultPlaceholder [] plate) t.start t.stop := by
    rw [htokens, hbare]
    decide
  have hextent : ofMarkup {} (replaceAll Label.Archive.defaultPlaceholder [] plate) = ⟨50, none, 50⟩ := by
    cbv
  obtain ⟨n, hn, hfinish⟩ := finish_eq_of_closed { strict := true } press plate foreign_default hblank
    (fun _ => by decide) (by decide) hclosed
  rw [hextent] at hn
  obtain rfl : n = 200 := UInt32.toNat_inj.mp hn
  refine ⟨foreign_default, hblank, hfinish.trans ?_⟩
  cbv

end LabelPress.Finish
