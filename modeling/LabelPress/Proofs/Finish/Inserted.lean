import LabelPress.Proofs.Finish.Again
import LabelPress.Proofs.Finish.Opening
import LabelPress.Proofs.Markup.Payloads

/-!
# Labels that are given a width

The width goes behind the first characters of an opening, unless the label has those of a width. So it is set and
nothing that prints is touched, unless one or the other of them stand in field data (`finish_width`).
-/

namespace LabelPress.Finish

open Markup Number Text Estimate

/-- Where the text has the first characters of an opening no field data is open. -/
def OpeningOutside (s : List Char) : Prop := ∀ a b, cut? opening s = some (a, b) → Sealed {} a

variable {c : Config} {setup : Media.Setup} {n k : UInt32} {needle new mark s t u a b x y : List Char}

/-! ## The width in a text -/

theorem openingOutside_iff_of_cut? (h : cut? opening s = some (a, b)) : OpeningOutside s ↔ Sealed {} a := by
  constructor
  · exact fun hout => hout a b h
  · intro ha a' b' h'
    rw [h, Option.some.injEq, Prod.mk.injEq] at h'
    exact h'.1 ▸ ha

theorem insertWidth_of_cut? (hmark : ¬ widthLeader <:+: s) (h : cut? opening s = some (a, b)) (n : UInt32) :
    insertWidth n s = a ++ (opening ++ widthCommand n ++ b) := by
  rw [insertWidth, if_neg (mt occurs_iff.mp hmark), h]
  simp

theorem dataOf_eq_of_contents {cs r : List (List Char × List Char)} {d : List Char}
    (h : contents {} s = cs ++ (fieldData, d) :: r) :
    dataOf s = (cs.filter (·.1 == fieldData)).map Prod.snd ++ d :: (r.filter (·.1 == fieldData)).map Prod.snd := by
  rw [dataOf, h]
  simp

theorem insertWidth_outside (ha : Sealed {} a) (n : UInt32) (b : List Char) :
    widthName ∈ names {} (a ++ (opening ++ widthCommand n ++ b)) ∧
      dataOf (a ++ (opening ++ widthCommand n ++ b)) = dataOf (a ++ (opening ++ b)) := by
  have hhead : ∀ v, ∀ c ∈ (opening ++ v).head?, ({} : Leaders).isLeader c := by
    intro v c hc
    obtain rfl : '^' = c := by simpa [opening] using hc
    decide
  obtain ⟨u, hu⟩ := contents_opening b
  obtain ⟨v, hv⟩ := contents_opening (widthCommand n ++ b)
  obtain ⟨w, hw⟩ := contents_widthCommand n b
  have hwide : contents {} (a ++ (opening ++ widthCommand n ++ b)) =
      contents {} a ++ (['X', 'A'], v) :: (['P', 'W'], w) :: contents {} b := by
    rw [List.append_assoc, contents_append_leader plain_usual ha (hhead _), hv, hw]
  have hnarrow : contents {} (a ++ (opening ++ b)) = contents {} a ++ (['X', 'A'], u) :: contents {} b := by
    rw [contents_append_leader plain_usual ha (hhead _), hu]
  constructor
  · rw [names_eq, hwide]
    simp [widthName]
  · rw [dataOf, dataOf, hwide, hnarrow]
    simp [fieldData]

theorem insertWidth_inside (ha : ¬ Sealed {} a) (n : UInt32) (b : List Char) :
    names {} (a ++ (opening ++ widthCommand n ++ b)) = names {} (a ++ (opening ++ b)) ∧
      dataOf (a ++ (opening ++ widthCommand n ++ b)) ≠ dataOf (a ++ (opening ++ b)) := by
  obtain ⟨cs, before, p, rfl, hp, hcontents⟩ := exists_open_contents plain_usual ha
  have hopening := passes_opening
  have hwidth := passes_openingWidth n
  have hwide := hp.contents_append hwidth.misses hwidth.head hwidth.ne_nil b
  have hnarrow := hp.contents_append hopening.misses hopening.head hopening.ne_nil b
  constructor
  · rw [names_eq, names_eq, hcontents, hcontents, hwide, hnarrow]
    simp
  · rw [dataOf_eq_of_contents ((hcontents _).trans (congrArg _ hwide)),
      dataOf_eq_of_contents ((hcontents _).trans (congrArg _ hnarrow))]
    intro heq
    have hsame := (List.cons.inj (List.append_cancel_left heq)).1
    have hlen := congrArg List.length hsame
    simp [widthCommand, widthLeader] at hlen
    omega

theorem exists_cut?_opening (hs : opening <:+: s) :
    ∃ a b, cut? opening s = some (a, b) ∧ s = a ++ (opening ++ b) := by
  obtain ⟨⟨a, b⟩, hcut⟩ := Option.ne_none_iff_exists'.mp (mt cut?_eq_none_iff.mp (not_not_intro hs))
  refine ⟨a, b, hcut, ?_⟩
  rw [eq_append_of_cut? hcut, List.append_assoc]

theorem widthName_mem_insertWidth_iff (hs : opening <:+: s) (n : UInt32) :
    widthName ∈ names {} (insertWidth n s) ↔
      widthName ∈ names {} s ∨ ¬ widthLeader <:+: s ∧ OpeningOutside s := by
  by_cases hmark : widthLeader <:+: s
  · rw [insertWidth, if_pos (occurs_iff.mpr hmark)]
    simp [hmark]
  · obtain ⟨a, b, hcut, htext⟩ := exists_cut?_opening hs
    rw [insertWidth_of_cut? hmark hcut, openingOutside_iff_of_cut? hcut]
    by_cases ha : Sealed {} a
    · exact iff_of_true (insertWidth_outside ha n b).1 (.inr ⟨hmark, ha⟩)
    · rw [(insertWidth_inside ha n b).1, ← htext]
      simp [ha]

theorem dataOf_insertWidth_iff (hs : opening <:+: s) (n : UInt32) :
    dataOf (insertWidth n s) = dataOf s ↔ widthLeader <:+: s ∨ OpeningOutside s := by
  by_cases hmark : widthLeader <:+: s
  · rw [insertWidth, if_pos (occurs_iff.mpr hmark)]
    simp [hmark]
  · obtain ⟨a, b, hcut, htext⟩ := exists_cut?_opening hs
    rw [insertWidth_of_cut? hmark hcut, openingOutside_iff_of_cut? hcut, congrArg dataOf htext]
    by_cases ha : Sealed {} a
    · exact iff_of_true (insertWidth_outside ha n b).2 (.inr ha)
    · exact iff_of_false (insertWidth_inside ha n b).2 (not_or_intro hmark ha)

/-! ## Before the lengths are put in -/

theorem infix_of_infix_replaceAll (hnew : Misses new mark) (hmark : Misses mark new)
    (h : mark <:+: replaceAll needle new s) : mark <:+: s := by
  by_cases hn : needle = []
  · rwa [replaceAll, dif_pos hn] at h
  · induction s using cut_induction hn with
    | none s hcut => rwa [replaceAll_of_cut?_eq_none _ hcut] at h
    | some s a b hcut ih =>
      rw [replaceAll_of_cut? _ hn hcut] at h
      rw [eq_append_of_cut? hcut]
      rcases infix_of_infix_append hnew hmark h with ha | hb
      · rw [List.append_assoc]
        exact ha.trans (List.prefix_append _ _).isInfix
      · exact (ih hb).trans (List.suffix_append _ _).isInfix

theorem cut?_append_of_not_infix {d : Char} {w : List Char} (hd : d ∉ w) (ha : ¬ d :: w <:+: a) (b : List Char) :
    cut? (d :: w) (a ++ (d :: w) ++ b) = some (a, b) := by
  refine cut?_eq_some_iff.mpr ⟨rfl, fun u v huv => ?_⟩
  by_contra hlt
  rw [List.append_assoc, List.append_assoc] at huv
  rcases List.append_eq_append_iff.mp huv with ⟨z, rfl, -⟩ | ⟨z, rfl, hz⟩
  · simp at hlt
  · rcases List.append_eq_append_iff.mp hz with ⟨r, rfl, -⟩ | ⟨r, hr, hrest⟩
    · exact ha ⟨u, r, by simp⟩
    · -- It would end behind the second beginning.
      cases z with
      | nil => simp at hlt
      | cons e z =>
        rw [List.cons_append, List.cons.injEq] at hr
        cases r with
        | nil => exact ha ⟨u, [], by simp [hr]⟩
        | cons f r =>
          obtain rfl : d = f := (List.cons.inj hrest).1
          exact hd (by simp [hr.2])

theorem misses_command {d e : Char} {w : List Char} (hde : d ≠ e) (hw : '^' ∉ e :: w) :
    Misses ('^' :: d :: u) ('^' :: e :: w) :=
  misses_cons (fun z => by simp [List.cons_prefix_cons, hde]) (misses_of_not_mem hw)

theorem no_command_lengthCommand (k : UInt32) : '^' ∉ 'L' :: 'L' :: decimal k.toNat := by
  simpa using decimal_not_mem (c := '^') (by decide) k.toNat

theorem infix_replaceAll_iff (h : Foreign needle) (hn : needle ≠ []) (hmark : mark = opening ∨ mark = widthLeader)
    (k : UInt32) (s : List Char) : mark <:+: replaceAll needle (lengthCommand k) s ↔ mark <:+: s := by
  have hfound : IsMark mark := by rcases hmark with rfl | rfl <;> simp [IsMark]
  obtain ⟨hfront, hback⟩ := h.misses_mark hn hfound
  refine ⟨?_, infix_replaceAll hfront hback _⟩
  rcases hmark with rfl | rfl
  · exact infix_of_infix_replaceAll (misses_command (by decide) (by decide))
      (misses_command (by decide) (no_command_lengthCommand k))
  · exact infix_of_infix_replaceAll (misses_command (by decide) (by decide))
      (misses_command (by decide) (no_command_lengthCommand k))

theorem replaceAll_append_opening (h : Foreign needle) (hn : needle ≠ []) (new a b : List Char) :
    replaceAll needle new (a ++ opening ++ b) = replaceAll needle new a ++ opening ++ replaceAll needle new b := by
  have hletters : Misses needle ['X', 'A'] :=
    misses_of_head hn (h.head_not_mem_of_alphanum (List.forall_iff_forall_mem.mp (by decide)))
  have hseam : ∀ e ∈ ['^'], e ∉ needle := List.forall_mem_singleton.mpr h.no_command
  have hsplit := replaceAll_append hn hseam (by simp) new a (['X', 'A'] ++ b)
  rw [replaceAll_append_left hletters] at hsplit
  simpa [opening] using hsplit

theorem sealed_iff_getLast? (u : List Char) :
    Sealed {} u ↔ ((names {} (u ++ opening)).filter (· != labelLength)).getLast? = some openingName := by
  by_cases hu : Sealed {} u
  · have hhead : ∀ c ∈ opening.head?, ¬ isAlphanumeric c ∧ c ≠ '@' := fun _ hc => head?_cons_command hc
    have hopening : names {} opening = [openingName] := by
      have h := names_opening []
      rwa [List.append_nil, names_eq {} [], contents, spans_nil] at h
    rw [names_append plain_usual hu hhead, hopening]
    simp [hu, openingName, labelLength]
  · obtain ⟨cs, before, p, rfl, hp, hcontents⟩ := exists_open_contents plain_usual hu
    have hdata := hp.contents_append passes_opening.misses passes_opening.head passes_opening.ne_nil []
    have hbody : body {} fieldData [] = ⟨[], [], []⟩ := by simp [body, cut?, Leaders.terminator, rest?]
    rw [List.append_nil, hbody] at hdata
    rw [names_eq, hcontents, hdata]
    simp [hu, contents, fieldData, labelLength, openingName]

theorem sealed_replaceAll_iff (hneedle : Inert {} needle) (hforeign : Foreign needle) (k : UInt32) (s : List Char) :
    Sealed {} (replaceAll needle (lengthCommand k) s) ↔ Sealed {} s := by
  have happend := replaceAll_append_opening hforeign hneedle.ne_nil (lengthCommand k) s []
  rw [replaceAll_nil, List.append_nil, List.append_nil] at happend
  rw [sealed_iff_getLast?, sealed_iff_getLast? s, ← happend, names_replaceLength hneedle]

theorem openingOutside_replaceAll_iff (hneedle : Inert {} needle) (hforeign : Foreign needle) (hs : opening <:+: s)
    (k : UInt32) : OpeningOutside (replaceAll needle (lengthCommand k) s) ↔ OpeningOutside s := by
  obtain ⟨a, b, hcut, htext⟩ := exists_cut?_opening hs
  have hnone : ¬ opening <:+: replaceAll needle (lengthCommand k) a := by
    rw [infix_replaceAll_iff hforeign hneedle.ne_nil (.inl rfl)]
    exact cut?_eq_none_iff.mp (cut?_eq_none_of_cut? (by decide) hcut)
  have hcut' : cut? opening (replaceAll needle (lengthCommand k) s) =
      some (replaceAll needle (lengthCommand k) a, replaceAll needle (lengthCommand k) b) := by
    rw [htext, ← List.append_assoc, replaceAll_append_opening hforeign hneedle.ne_nil]
    exact cut?_append_of_not_infix (by decide) hnone _
  rw [openingOutside_iff_of_cut? hcut', openingOutside_iff_of_cut? hcut, sealed_replaceAll_iff hneedle hforeign]

/-! ## Before the frame is put on -/

theorem widthLeader_infix_frame_iff (x : List Char) : widthLeader <:+: frame x ↔ widthLeader <:+: x := by
  obtain ⟨u, v, hframe, hu, hv⟩ := exists_frame x
  have hfeed : '\n' ∉ widthLeader := by decide
  rw [hframe]
  constructor
  · intro h
    have hfront : widthLeader <:+: x ++ v := by
      rcases hu with rfl | rfl
      · exact h
      · rw [List.append_assoc, List.append_assoc] at h
        exact (infix_of_infix_append_cons hfeed h).resolve_left (by decide)
    rcases hv with rfl | rfl
    · rwa [List.append_nil] at hfront
    · exact (infix_of_infix_append_cons hfeed hfront).resolve_right (by decide)
  · intro h
    exact h.trans ⟨u, v, rfl⟩

theorem openingOutside_frame_iff (x : List Char) : OpeningOutside (frame x) ↔ OpeningOutside x := by
  obtain ⟨v, hclosed⟩ : ∃ v, frame x = opened x ++ v := by
    unfold frame closed
    split_ifs
    · exact ⟨[], by simp⟩
    · exact ⟨_, rfl⟩
  by_cases hx : opening <:+: x
  · obtain ⟨a, b, hcut, -⟩ := exists_cut?_opening hx
    have hsame : opened x = x := if_pos (occurs_iff.mpr hx)
    rw [hclosed, hsame, openingOutside_iff_of_cut? (cut?_append_right hcut v), openingOutside_iff_of_cut? hcut]
  · have hput : opened x = opening ++ '\n' :: x := if_neg (mt occurs_iff.mp hx)
    have hcut : cut? opening (frame x) = some ([], '\n' :: x ++ v) := by
      rw [hclosed, hput]
      exact cut?_append_of_not_infix (a := []) (by decide) (by decide) _
    rw [openingOutside_iff_of_cut? hcut]
    refine iff_of_true (sealed_nil _) fun a b h => ?_
    rw [cut?_eq_none_iff.mpr hx] at h
    cases h

/-! ## Finishing -/

theorem isAlphanumeric_of_isAlphanum {d : Char} (h : d.isAlphanum) : isAlphanumeric d := by
  have hlt : d.toNat < 0x80 := by
    simp only [Char.isAlphanum, Char.isAlpha, Char.isUpper, Char.isLower, Char.isDigit, Bool.or_eq_true,
      Bool.and_eq_true, decide_eq_true_eq, UInt32.le_iff_toNat_le] at h
    have hval : d.toNat = d.val.toNat := rfl
    have hlast : 'Z'.val.toNat < 0x80 ∧ 'z'.val.toNat < 0x80 ∧ '9'.val.toNat < 0x80 := by decide
    omega
  rw [isAlphanumeric, if_pos hlt]
  exact h

theorem foreign_of_inert (h : Inert {} needle) : Foreign needle where
  no_command := fun hmem => h.not_leader _ hmem (by decide)
  head := fun d hd halnum => (h.head d hd).1 (isAlphanumeric_of_isAlphanum halnum)

theorem finish_without_width (hok : c.finish setup x = .ok y) :
    Config.finish { c with addWidth := false } setup x = .ok (c.putLength (frame x)) := by
  obtain ⟨hmax, -⟩ := finish_eq_ok hok
  obtain ⟨hstrict, hfits⟩ := finish_checks hok
  rw [finish_eq (c := { c with addWidth := false }) hstrict hfits]
  exact if_neg (UInt32.not_lt.mpr hmax)

theorem widthName_mem_putLength_frame_iff (hneedle : Inert {} c.placeholder)
    (hclosed : ∀ t ∈ tokenize {} x, t.name = fieldData → ({} : Leaders).terminator <:+ slice x t.start t.stop) :
    widthName ∈ names {} (c.putLength (frame x)) ↔ widthName ∈ names {} x := by
  have hother : widthName ≠ labelLength ∧ widthName ≠ openingName ∧ widthName ≠ endingName := by decide
  have hput := congrArg (widthName ∈ ·) (names_putLength hneedle (frame x))
  have hframe := names_frame (sealed_of_closed hclosed)
  simp only [List.mem_filter, bne_iff_ne, hother.1, ne_eq, not_false_eq_true, and_true, eq_iff_iff] at hput
  rw [hput, hframe]
  split_ifs <;> simp [hother]

/-- A width is set, and all field data is as without it, unless the characters of a width or of the first opening
stand in field data. -/
theorem finish_width (c : Config) (setup : Media.Setup) (x y : List Char) (hneedle : Inert {} c.placeholder)
    (hclosed : ∀ t ∈ tokenize {} x, t.name = fieldData → ({} : Leaders).terminator <:+ slice x t.start t.stop)
    (hwidth : c.addWidth) (hok : c.finish setup x = .ok y) :
    ∃ y₀, Config.finish { c with addWidth := false } setup x = .ok y₀ ∧
      (widthName ∈ names {} y ↔ widthName ∈ names {} x ∨ ¬ widthLeader <:+: x ∧ OpeningOutside x) ∧
      (payloads (tokenize {} y) = payloads (tokenize {} y₀) ↔ widthLeader <:+: x ∨ OpeningOutside x) := by
  have hforeign := foreign_of_inert hneedle
  have hopening : opening <:+: c.putLength (frame x) :=
    hforeign.infix_putLength (by simp [IsMark]) (opening_infix_frame x)
  have hleader : widthLeader <:+: c.putLength (frame x) ↔ widthLeader <:+: x := by
    rw [Config.putLength, infix_replaceAll_iff hforeign hneedle.ne_nil (.inr rfl), widthLeader_infix_frame_iff]
  have houtside : OpeningOutside (c.putLength (frame x)) ↔ OpeningOutside x := by
    rw [Config.putLength, openingOutside_replaceAll_iff hneedle hforeign (opening_infix_frame x),
      openingOutside_frame_iff]
  have hy := (finish_eq_ok hok).2
  rw [Config.fill, if_pos hwidth] at hy
  refine ⟨c.putLength (frame x), finish_without_width hok, ?_, ?_⟩
  · rw [hy, widthName_mem_insertWidth_iff hopening, widthName_mem_putLength_frame_iff hneedle hclosed, hleader,
      houtside]
  · rw [hy, payloads_tokenize, payloads_tokenize, dataOf_insertWidth_iff hopening, hleader, houtside]

theorem not_openingOutside_caption : ¬ OpeningOutside caption := by
  intro h
  have hcut : cut? opening caption = some (['^', 'F', 'D'], ['^', 'F', 'S']) := by decide
  have hopen := h _ _ hcut
  have hspans : spans {} ['^', 'F', 'D'] = [⟨'^', fieldData, [], []⟩] := by
    cbv
  rw [Sealed, hspans] at hopen
  exact absurd hopen (by decide)

theorem finish_width_caption : Inert {} Label.Archive.defaultPlaceholder ∧
    ∃ y, Config.finish { addWidth := true } press caption = .ok y ∧ widthName ∉ names {} y ∧
      payloads (tokenize {} y) ≠ payloads (tokenize {} finishedCaption) := by
  have hok : Config.finish { addWidth := true } press caption = .ok "^FD^XA^PW448^FS\n^XZ".toList := by
    cbv
  have hnames : names {} caption = [fieldData] := by
    cbv
  have hmark : ¬ widthLeader <:+: caption := by decide
  obtain ⟨y₀, hplain, hwidth, hdata⟩ :=
    finish_width { addWidth := true } press caption _ inert_default closed_caption rfl hok
  obtain rfl := Except.ok.inj (hplain.symm.trans finish_caption)
  refine ⟨inert_default, _, hok, ?_, ?_⟩
  · rw [hwidth, hnames]
    rintro (h | ⟨-, h⟩)
    · exact absurd h (by decide)
    · exact not_openingOutside_caption h
  · rw [ne_eq, hdata]
    exact not_or_intro hmark not_openingOutside_caption

/-- A label that prints the characters of a width. -/
def legend : List Char := "^FD^PW^FS".toList

theorem not_finish_width : ¬ ∀ (c : Config) (setup : Media.Setup) (x y y₀ : List Char),
    c.placeholder = Label.Archive.defaultPlaceholder →
    (∀ t ∈ tokenize {} x, t.name = fieldData → ({} : Leaders).terminator <:+ slice x t.start t.stop) →
    c.addWidth → c.finish setup x = .ok y → Config.finish { c with addWidth := false } setup x = .ok y₀ →
    widthName ∈ names {} y ∧ payloads (tokenize {} y) = payloads (tokenize {} y₀) := by
  intro h
  have hok : ∀ add, Config.finish { addWidth := add } press legend = .ok "^XA\n^FD^PW^FS\n^XZ".toList := by
    intro add
    cases add <;> cbv
  have htokens : tokenize {} legend = [⟨fieldData, "^PW".toList, 0, 9⟩] := by
    cbv
  have hnames : names {} "^XA\n^FD^PW^FS\n^XZ".toList = [openingName, fieldData, endingName] := by
    cbv
  have hboth := h { addWidth := true } press legend _ _ rfl (by rw [htokens]; decide) rfl (hok true) (hok false)
  rw [hnames] at hboth
  exact absurd hboth.1 (by decide)

end LabelPress.Finish
