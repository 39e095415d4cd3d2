import LabelPress.Proofs.Finish.Frame
import LabelPress.Proofs.Markup.Names

/-!
# The first and the last command

Finishing looks for the characters of an opening, not for the command. So a finished label lacks its opening
exactly if the label had these characters but not the command, and the same holds for its ending
(`mem_names_finish`). Field data may hold them (`not_mem_names_finish`).
-/

namespace LabelPress.Finish

open Markup Number Text Estimate

def openingName : List Char := ['X', 'A']

def endingName : List Char := ['X', 'Z']

def widthName : List Char := ['P', 'W']

variable {c : Config} {setup : Media.Setup} {n : UInt32} {s x y : List Char}

/-! ## Commands that finishing puts in -/

theorem names_opening (s : List Char) : names {} (opening ++ s) = openingName :: names {} s := by
  obtain ⟨params, h⟩ := contents_opening s
  rw [names_eq, h, names_eq]
  rfl

theorem names_widthCommand (n : UInt32) (s : List Char) :
    names {} (widthCommand n ++ s) = widthName :: names {} s := by
  obtain ⟨params, h⟩ := contents_widthCommand n s
  rw [names_eq, h, names_eq]
  rfl

theorem names_lengthCommand (n : UInt32) (s : List Char) :
    names {} (lengthCommand n ++ s) = labelLength :: names {} s := by
  have hfree : ∀ e ∈ decimal n.toNat, ¬ ({} : Leaders).isLeader e := fun e he =>
    not_isLeader_of_isDigit (isDigit_of_mem_decimal he)
  obtain ⟨params, h⟩ := contents_two (c := 'L') (d := 'L') (.two (by decide) (by decide) (by decide)) (by decide)
    hfree s
  rw [names_eq, lengthCommand, List.append_assoc, List.cons_append, List.cons_append, List.cons_append,
    List.nil_append, h, names_eq]
  rfl

theorem head?_cons_command {c : Char} (h : c ∈ ('^' :: s).head?) : ¬ isAlphanumeric c ∧ c ≠ '@' := by
  obtain rfl : '^' = c := by simpa using h
  decide

theorem passes_opening : Passes {} opening where
  ne_nil := by decide
  misses := misses_opening
  head := fun _ hc => (head?_cons_command hc).1

theorem passes_openingWidth (n : UInt32) : Passes {} (opening ++ widthCommand n) where
  ne_nil := by simp [opening]
  misses := misses_opening.append (misses_widthCommand n)
  head := fun _ hc => (head?_cons_command hc).1

theorem passes_lengthCommand (n : UInt32) : Passes {} (lengthCommand n) where
  ne_nil := by simp [lengthCommand]
  misses := by
    refine misses_cons (fun z => ?_) (misses_of_not_mem ?_)
    · simp [Leaders.terminator, fieldSeparator, List.cons_prefix_cons]
    · simpa using decimal_not_mem (c := '^') (by decide) n.toNat
  head := fun _ hc => (head?_cons_command hc).1

theorem names_replaceLength {needle : List Char} (hneedle : Inert {} needle) (n : UInt32) (s : List Char) :
    (names {} (replaceAll needle (lengthCommand n) s)).filter (· != labelLength) =
      (names {} s).filter (· != labelLength) := by
  refine names_replaceAll plain_usual hneedle (passes_lengthCommand n) ?_ (names_lengthCommand n) s
  intro d hd
  obtain rfl : '^' = d := by simpa [lengthCommand] using hd
  decide

theorem names_putLength (hneedle : Inert {} c.placeholder) (s : List Char) :
    (names {} (c.putLength s)).filter (· != labelLength) = (names {} s).filter (· != labelLength) :=
  names_replaceLength hneedle _ s

theorem names_insertWidth (n : UInt32) (s : List Char) :
    (names {} (insertWidth n s)).filter (· != widthName) = (names {} s).filter (· != widthName) := by
  rw [insertWidth]
  split_ifs
  · rfl
  · cases hcut : cut? opening s with
    | none => rfl
    | some o =>
      obtain ⟨a, b⟩ := o
      rw [eq_append_of_cut? hcut]
      simp only [List.append_assoc]
      by_cases ha : Sealed {} a
      · have hhead : ∀ v, ∀ c ∈ (opening ++ v).head?, ¬ isAlphanumeric c ∧ c ≠ '@' :=
          fun _ _ => head?_cons_command
        rw [names_append plain_usual ha (hhead _), names_append plain_usual ha (hhead _), names_opening, names_opening,
          names_widthCommand]
        simp [openingName, widthName]
      · -- Both stand in field data.
        obtain ⟨ns, hns⟩ := exists_names_append plain_usual ha
        have hwide := hns _ (passes_openingWidth n) b
        rw [List.append_assoc] at hwide
        rw [hwide, hns opening passes_opening]

theorem mem_names_fill_iff (hneedle : Inert {} c.placeholder) {name : List Char} (hlength : name ≠ labelLength)
    (hwidth : name ≠ widthName) (width : UInt32) (s : List Char) :
    name ∈ names {} (c.fill width s) ↔ name ∈ names {} s := by
  have hput : name ∈ names {} (c.putLength s) ↔ name ∈ names {} s := by
    have h := congrArg (name ∈ ·) (names_putLength hneedle s)
    simpa [hlength] using h
  rw [Config.fill]
  split_ifs
  · have h := congrArg (name ∈ ·) (names_insertWidth width (c.putLength s))
    rw [← hput]
    simpa [hwidth] using h
  · exact hput

/-! ## The frame -/

theorem names_opened (s : List Char) :
    names {} (opened s) = (if opening <:+: s then [] else [openingName]) ++ names {} s := by
  rw [opened]
  by_cases h : opening <:+: s
  · rw [if_pos (occurs_iff.mpr h), if_pos h, List.nil_append]
  · have hfeed : names {} ('\n' :: s) = names {} s := names_of_not_leader (u := ['\n']) (by simp [Leaders.isLeader]) s
    rw [if_neg (mt occurs_iff.mp h), if_neg h, names_opening, hfeed, List.singleton_append]

theorem sealed_opened (h : Sealed {} s) : Sealed {} (opened s) := by
  rw [opened]
  split_ifs
  · exact h
  · have hopening : Sealed {} opening := by
      have hspans : spans {} opening = [⟨'^', openingName, [], []⟩] := by cbv
      rw [Sealed, hspans]
      decide
    have hfeed : ∀ c ∈ ('\n' :: s).head?, ¬ isAlphanumeric c := by
      intro c hc
      obtain rfl : '\n' = c := by simpa using hc
      decide
    rw [sealed_append_iff plain_usual hopening hfeed, sealed_skip_iff fun hfeed => absurd hfeed (by decide)]
    exact h

theorem ending_infix_opened_iff : ending <:+: opened s ↔ ending <:+: s := by
  rw [opened]
  split_ifs
  · rfl
  · constructor
    · intro h
      rcases infix_of_infix_append_cons (by decide) h with hopening | hs
      · exact absurd hopening (by decide)
      · exact hs
    · exact fun h => h.trans ((List.suffix_cons _ _).trans (List.suffix_append _ _)).isInfix

theorem names_closed (h : Sealed {} s) :
    names {} (closed s) = names {} s ++ if ending <:+: s then [] else [endingName] := by
  rw [closed]
  by_cases hmark : ending <:+: s
  · rw [if_pos (occurs_iff.mpr hmark), if_pos hmark, List.append_nil]
  · have hfeed : ∀ c ∈ ('\n' :: ending).head?, ¬ isAlphanumeric c ∧ c ≠ '@' := by
      intro c hc
      obtain rfl : '\n' = c := by simpa using hc
      decide
    obtain ⟨params, hending⟩ := contents_ending
    have hnames : names {} ('\n' :: ending) = [endingName] := by
      rw [names_eq, hending]
      rfl
    rw [if_neg (mt occurs_iff.mp hmark), if_neg hmark, names_append plain_usual h hfeed, hnames]

theorem names_frame (h : Sealed {} s) :
    names {} (frame s) = (if opening <:+: s then [] else [openingName]) ++ names {} s ++
      if ending <:+: s then [] else [endingName] := by
  rw [frame, names_closed (sealed_opened h), names_opened]
  simp only [ending_infix_opened_iff]

/-! ## Finishing -/

/-- A finished label has its opening exactly if the characters of one in the label meant that one of its commands
opens it, and the same holds for its ending. -/
theorem mem_names_finish (c : Config) (setup : Media.Setup) (x y : List Char) (hneedle : Inert {} c.placeholder)
    (hclosed : ∀ t ∈ tokenize {} x, t.name = fieldData → ({} : Leaders).terminator <:+ slice x t.start t.stop)
    (hok : c.finish setup x = .ok y) :
    (openingName ∈ names {} y ↔ (opening <:+: x → openingName ∈ names {} x)) ∧
      (endingName ∈ names {} y ↔ (ending <:+: x → endingName ∈ names {} x)) := by
  obtain ⟨-, rfl⟩ := finish_eq_ok hok
  have hframe := names_frame (sealed_of_closed hclosed)
  constructor
  · rw [mem_names_fill_iff hneedle (by decide) (by decide), hframe]
    by_cases h : opening <:+: x
    · have hother : openingName ≠ endingName := by decide
      split_ifs <;> simp [h, hother]
    · simp [h]
  · rw [mem_names_fill_iff hneedle (by decide) (by decide), hframe]
    by_cases h : ending <:+: x
    · have hother : endingName ≠ openingName := by decide
      split_ifs <;> simp [h, hother]
    · simp [h]

theorem inert_default : Inert {} Label.Archive.defaultPlaceholder where
  ne_nil := by decide
  not_leader := isPlaceholder_default.not_isLeader
  head := by
    intro d hd
    obtain rfl : '<' = d := Option.mem_some_iff.mp hd
    decide

/-- A label that prints the characters of an opening. -/
def caption : List Char := "^FD^XA^FS".toList

def finishedCaption : List Char := "^FD^XA^FS\n^XZ".toList

theorem finish_caption : Config.finish {} press caption = .ok finishedCaption := by
  cbv

theorem closed_caption : ∀ t ∈ tokenize {} caption, t.name = fieldData →
    ({} : Leaders).terminator <:+ slice caption t.start t.stop := by
  have htokens : tokenize {} caption = [⟨fieldData, "^XA".toList, 0, 9⟩] := by
    cbv
  rw [htokens]
  decide

theorem mem_names_finish_caption : Inert {} Label.Archive.defaultPlaceholder ∧
    Config.finish {} press caption = .ok finishedCaption ∧
    openingName ∉ names {} finishedCaption ∧ endingName ∈ names {} finishedCaption := by
  have hnames : names {} caption = [fieldData] := by
    cbv
  obtain ⟨hopening, hending⟩ :=
    mem_names_finish {} press caption finishedCaption inert_default closed_caption finish_caption
  have hmark : opening <:+: caption := by decide
  have hnomark : ¬ ending <:+: caption := by decide
  rw [hnames] at hopening hending
  refine ⟨inert_default, finish_caption, ?_, hending.mpr fun h => absurd h hnomark⟩
  rw [hopening]
  exact fun h => absurd (h hmark) (by decide)

theorem not_mem_names_finish : ¬ ∀ (c : Config) (setup : Media.Setup) (x y : List Char),
    c.placeholder = Label.Archive.defaultPlaceholder →
    (∀ t ∈ tokenize {} x, t.name = fieldData → ({} : Leaders).terminator <:+ slice x t.start t.stop) →
    c.finish setup x = .ok y → openingName ∈ names {} y ∧ endingName ∈ names {} y := by
  intro h
  have hnames : names {} finishedCaption = [fieldData, endingName] := by
    cbv
  have hboth := h {} press caption finishedCaption rfl closed_caption finish_caption
  rw [hnames] at hboth
  exact absurd hboth.1 (by decide)

end LabelPress.Finish
