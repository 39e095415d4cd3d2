import LabelPress.Proofs.Markup.Layout
import LabelPress.Proofs.Markup.Parts

/-!
# The lines of a label

A layout has a walk of its own over the text, with other mnemonics than the tokens have. It finds the
same commands: the lines are those of the commands whose mnemonic begins with a capital letter
(`linesOf_eq_map`).
-/

namespace LabelPress.Markup

open Text

/-- Whether the mnemonic begins with one of the letters from A to Z. -/
def isLettered (name : List Char) : Bool := name.head?.any Char.isUpper

/-- The line of a command. -/
def Span.line (style : Style) (p : Span) : List Char :=
  if p.name = fieldData then trim p.text
  else
    let code := letters (p.name ++ p.raw)
    p.leader :: (code ++ style.params ((p.name ++ p.raw).drop code.length))

variable {p : Span} {c : Char} {name s v w rest : List Char}

/-! ## Letters and mnemonics -/

theorem letters_begin (s : List Char) : letters s <+: s :=
  (List.take_prefix _ _).trans (List.takeWhile_prefix _)

theorem isUpper_of_mem_letters (h : c ∈ letters s) : c.isUpper :=
  List.mem_takeWhile_imp (List.mem_of_mem_take h)

theorem letters_eq_nil_iff : letters s = [] ↔ ∀ c ∈ s.head?, ¬ c.isUpper := by
  cases s with
  | nil => simp [letters]
  | cons c s => by_cases hc : c.isUpper <;> simp [letters, longestCode, hc]

theorem letters_append (hv : ∀ c ∈ v.head?, ¬ c.isUpper) (w : List Char) : letters (w ++ v) = letters w := by
  have hnone : v.takeWhile Char.isUpper = [] := by
    cases v with
    | nil => rfl
    | cons c v => exact List.takeWhile_cons_of_neg (hv c rfl)
  have htake : (w ++ v).takeWhile Char.isUpper = w.takeWhile Char.isUpper := by
    rw [List.takeWhile_append, hnone]
    split_ifs with hall
    · rw [List.append_nil, (List.takeWhile_prefix _).eq_of_length hall]
    · rfl
  rw [letters, htake, letters]

theorem fieldData_prefix_letters_iff : fieldData <+: letters s ↔ fieldData <+: s := by
  constructor
  · exact fun h => h.trans (letters_begin s)
  · rintro ⟨t, rfl⟩
    have hF : Char.isUpper 'F' := by decide
    have hD : Char.isUpper 'D' := by decide
    simp [letters, longestCode, fieldData, hF, hD]

theorem codeOf_letters (s : List Char) : codeOf (letters s) = if fieldData <+: s then fieldData else letters s := by
  simp only [codeOf, List.isPrefixOf_iff_prefix, fieldData_prefix_letters_iff]

theorem LongestMnemonic.eq_fieldData_iff (h : LongestMnemonic name s) : name = fieldData ↔ fieldData <+: s := by
  rw [← longestMnemonic_fieldData_iff]
  exact ⟨fun heq => heq ▸ h, fun hf => hf.unique h⟩

/-! ## Leaders -/

theorem not_isUpper_of_isLeader (hc : ({} : Leaders).isLeader c) : ¬ c.isUpper :=
  fun h => plain_usual.not_alphanumeric c hc (isAlphanumeric_of_isUpper h)

theorem Span.Opens.ends_at (hp : p.Opens {} rest) (hname : p.name ≠ fieldData) :
    p.closing = [] ∧ (∀ c ∈ p.name ++ p.raw, ¬ ({} : Leaders).isLeader c) ∧
      ∀ c ∈ rest.head?, ({} : Leaders).isLeader c := by
  have h := hp.ends
  rw [Span.Ends, if_neg hname] at h
  refine ⟨h.1, fun c hc => ?_, h.2.2⟩
  rcases List.mem_append.mp hc with hc | hc
  · exact plain_usual.not_leader hp.name.mnemonic c hc
  · exact h.2.1 c hc

/-! ## The walk -/

theorem linesOf_nil (style : Style) : linesOf style [] = [] := by
  rw [linesOf]

theorem linesOf_of_not_leader {style : Style} (hw : ∀ c ∈ w, ¬ ({} : Leaders).isLeader c) (s : List Char) :
    linesOf style (w ++ s) = linesOf style s := by
  induction w with
  | nil => rfl
  | cons c w ih =>
    rw [List.forall_mem_cons] at hw
    rw [List.cons_append, linesOf, if_neg hw.1, ih hw.2]

theorem linesOf_of_letters_eq_nil {style : Style} (hs : letters s = []) :
    linesOf style (c :: s) = linesOf style s := by
  have hcode : codeOf (letters s) = [] := by rw [hs]; rfl
  rw [linesOf]
  split_ifs
  · simp only [hcode, if_true]
  · rfl

theorem linesOf_cons {style : Style} {code : List Char} (hc : ({} : Leaders).isLeader c)
    (hcode : codeOf (letters s) = code) (hne : code ≠ []) :
    linesOf style (c :: s) = (line style c code (s.drop code.length)).1 ::
      linesOf style (line style c code (s.drop code.length)).2 := by
  subst hcode
  rw [linesOf, if_pos hc, if_neg hne]

theorem line_fieldData {style : Style} (hp : p.Opens {} rest) (hname : p.name = fieldData) :
    line style p.leader fieldData (p.raw ++ p.closing ++ rest) = (trim p.text, rest) := by
  have h := hp.ends
  rw [Span.Ends, if_pos hname] at h
  rw [line, if_pos rfl, Span.text, hname]
  rcases h with ⟨hc, hfirst⟩ | ⟨hc, hrest, hnone⟩
  · rw [hc, cut?_eq_some_iff.mpr ⟨rfl, hfirst⟩]
    simp
  · rw [hc, hrest, List.append_nil, List.append_nil, cut?_eq_none_iff.mpr hnone]
    simp

theorem line_append {style : Style} {code : List Char} (hcode : code ≠ fieldData)
    (hw : ∀ d ∈ w, ¬ ({} : Leaders).isLeader d) (hs : ∀ d ∈ s.head?, ({} : Leaders).isLeader d) :
    line style c code (w ++ s) = (c :: code ++ style.params w, s) := by
  obtain ⟨htake, hdrop⟩ := split_at_leader hw hs
  rw [line, if_neg hcode, htake, hdrop]

theorem isLettered_eq_false_iff (h : Mnemonic name) (s : List Char) :
    isLettered name = false ↔ letters (name ++ s) = [] := by
  obtain ⟨c, u, rfl, -⟩ := h.exists_cons
  rw [letters_eq_nil_iff]
  simp [isLettered]

theorem linesOf_skip {style : Style} (h : ({} : Leaders).isLeader c → mnemonic? s = none) :
    linesOf style (c :: s) = linesOf style s := by
  by_cases hc : ({} : Leaders).isLeader c
  · have hhead := mnemonic?_eq_none_iff.mp (h hc)
    exact linesOf_of_letters_eq_nil (letters_eq_nil_iff.mpr fun d hd hup =>
      hhead d hd (isAlphanumeric_of_isUpper hup))
  · exact linesOf_of_not_leader (w := [c]) (by simpa using hc) s

theorem linesOf_fieldData {style : Style} (hp : p.Opens {} rest) (hname : p.name = fieldData) :
    linesOf style (p.text ++ rest) = p.line style :: linesOf style rest := by
  have htext : p.text ++ rest = p.leader :: (fieldData ++ (p.raw ++ p.closing ++ rest)) := by
    simp [Span.text, hname]
  have hcode : codeOf (letters (fieldData ++ (p.raw ++ p.closing ++ rest))) = fieldData := by
    rw [codeOf_letters, if_pos (List.prefix_append _ _)]
  rw [htext, linesOf_cons hp.leader hcode (by decide), List.drop_left, line_fieldData hp hname, Span.line,
    if_pos hname]

theorem linesOf_command {style : Style} (hp : p.Opens {} rest) (hname : p.name ≠ fieldData) :
    linesOf style (p.text ++ rest) =
      if isLettered p.name then p.line style :: linesOf style rest else linesOf style rest := by
  obtain ⟨hclosing, hw, hrest⟩ := hp.ends_at hname
  have htext : p.text ++ rest = p.leader :: (p.name ++ p.raw ++ rest) := by simp [Span.text, hclosing]
  have hletters := letters_append (fun c hc => not_isUpper_of_isLeader (hrest c hc)) (p.name ++ p.raw)
  rw [htext]
  split_ifs with hlet
  · have hnot : ¬ fieldData <+: p.name ++ p.raw ++ rest := by
      have := hp.name.eq_fieldData_iff.mpr
      rw [hclosing, List.append_nil] at this
      exact fun h => hname (this h)
    have hne : letters (p.name ++ p.raw) ≠ [] := by
      rw [ne_eq, ← isLettered_eq_false_iff hp.name.mnemonic, hlet]
      simp
    have hcode : codeOf (letters (p.name ++ p.raw ++ rest)) = letters (p.name ++ p.raw) := by
      rw [codeOf_letters, if_neg hnot, hletters]
    have hcode' : letters (p.name ++ p.raw) ≠ fieldData := by
      intro h
      exact hnot (fieldData_prefix_letters_iff.mp (by rw [hletters, h]))
    have hdrop : ∀ c ∈ (p.name ++ p.raw).drop (letters (p.name ++ p.raw)).length, ¬ ({} : Leaders).isLeader c :=
      fun c hc => hw c (List.mem_of_mem_drop hc)
    rw [linesOf_cons hp.leader hcode hne, List.drop_append_of_le_length (letters_begin _).length_le,
      line_append hcode' hdrop hrest, Span.line, if_neg hname]
    rfl
  · have hnil := (isLettered_eq_false_iff hp.name.mnemonic p.raw).mp (by simpa using hlet)
    rw [linesOf_of_letters_eq_nil (hletters.trans hnil), linesOf_of_not_leader hw]

theorem linesOf_eq_map (style : Style) (s : List Char) :
    linesOf style s = ((spans {} s).filter fun p => isLettered p.name).map (Span.line style) := by
  induction s using text_induction (l := {}) with
  | nil => simp [linesOf_nil]
  | skip c s hskip ih => rw [spans_skip hskip, linesOf_skip hskip, ih]
  | span p rest hp ih =>
    rw [spans_span hp, List.filter_cons]
    by_cases hname : p.name = fieldData
    · have hlettered : isLettered p.name = true := by rw [hname]; decide
      rw [linesOf_fieldData hp hname, ih, if_pos hlettered, List.map_cons]
    · rw [linesOf_command hp hname, ih]
      split_ifs
      · rw [List.map_cons]
      · rfl

/-! ## What a line is -/

/-- How a command is laid out. Field data is kept, and only if it runs to the end of the text it loses
the blanks there. All else loses blanks and nothing more. -/
def LaidOut (style : Style) (name text line : List Char) : Prop :=
  if name = fieldData then line = if ({} : Leaders).terminator <:+ text then text else trimEnd text
  else
    match style with
    | .pretty => dropBlanks line = dropBlanks text ∧ Tidy line
    | .minified => line = dropBlanks text

theorem Span.Opens.head_text (hp : p.Opens {} rest) : ∀ c ∈ p.text.head?, ¬ isBlank c := by
  intro c hc
  rw [Span.text, List.head?_cons, Option.mem_some_iff] at hc
  exact hc ▸ plain_usual.not_blank _ hp.leader

theorem Span.Opens.trim_text (hp : p.Opens {} rest) :
    trim p.text = if ({} : Leaders).terminator <:+ p.text then p.text else trimEnd p.text := by
  split_ifs with h
  · refine trim_of_trimmed ⟨hp.head_text, fun c hc => ?_⟩
    obtain ⟨u, hu⟩ := h
    rw [← hu, Leaders.terminator, fieldSeparator, List.getLast?_append_of_ne_nil _ (by simp)] at hc
    simp only [List.getLast?_cons_cons, List.getLast?_singleton, Option.mem_some_iff] at hc
    subst hc
    decide
  · rw [trim, trimStart_of_head hp.head_text]

theorem apart_letters (hc : ({} : Leaders).isLeader c) (s : List Char) :
    ∀ d ∈ c :: letters s, ¬ isBlank d ∧ d ≠ ',' := by
  intro d hd
  rcases List.mem_cons.mp hd with rfl | hd
  · refine ⟨plain_usual.not_blank _ hc, ?_⟩
    rintro rfl
    exact absurd hc (by decide)
  · have hup := isUpper_of_mem_letters hd
    exact ⟨not_isBlank_of_isUpper hup, ne_comma_of_isUpper hup⟩

theorem tidy_append {u : List Char} (hu : ∀ d ∈ u, ¬ isBlank d ∧ d ≠ ',') (hs : Trimmed s)
    (hchain : s.IsChain Apart) :
    Tidy (u ++ s) := by
  constructor
  · intro c hc
    cases s with
    | nil =>
      rw [List.append_nil] at hc
      exact (hu c (List.mem_of_mem_getLast? hc)).1
    | cons d s =>
      rw [List.getLast?_append_of_ne_nil _ (by simp)] at hc
      exact hs.2 c hc
  · induction u with
    | nil => exact hchain
    | cons d u ih =>
      rw [List.forall_mem_cons] at hu
      rw [List.cons_append, List.isChain_cons]
      exact ⟨fun e _ => apart_of_not_blank_left hu.1.1 hu.1.2, ih hu.2⟩

theorem Span.line_eq (style : Style) {code q : List Char} (hname : p.name ≠ fieldData)
    (hcode : letters (p.name ++ p.raw) = code) (hq : p.name ++ p.raw = code ++ q) :
    p.line style = p.leader :: code ++ style.params q := by
  have hdrop : (code ++ q).drop code.length = q := List.drop_left
  rw [hq] at hcode
  simp only [Span.line, if_neg hname, hq, hcode, hdrop, List.cons_append]

theorem Span.Opens.laidOut (hp : p.Opens {} rest) (style : Style) : LaidOut style p.name p.text (p.line style) := by
  unfold LaidOut
  by_cases hname : p.name = fieldData
  · rw [if_pos hname, Span.line, if_pos hname]
    exact hp.trim_text
  · rw [if_neg hname]
    obtain ⟨hclosing, -, -⟩ := hp.ends_at hname
    obtain ⟨q, hq⟩ := letters_begin (p.name ++ p.raw)
    have hmark := apart_letters hp.leader (p.name ++ p.raw)
    have htext : p.text = p.leader :: letters (p.name ++ p.raw) ++ q := by
      rw [Span.text, hclosing, List.append_nil, List.cons_append, hq]
    rw [Span.line_eq style hname rfl hq.symm, htext]
    cases style with
    | pretty =>
      obtain ⟨htrim, hchain⟩ := tidy_params q
      exact ⟨by simp only [dropBlanks_append, dropBlanks_params], tidy_append hmark htrim hchain⟩
    | minified =>
      dsimp only
      rw [dropBlanks_append, dropBlanks_of_not_blank fun d hd => (hmark d hd).1, Style.params]

/-- A layout has one line for each command whose mnemonic begins with a capital letter, in their order. -/
theorem forall₂_laidOut (style : Style) (x : List Char) :
    let s := replaceAll ['\r', '\n'] ['\n'] x
    List.Forall₂ (fun (t : Token) line => LaidOut style t.name (slice s t.start t.stop) line)
      ((tokenize {} s).filter fun t => isLettered t.name) (lines style x) := by
  intro s
  have hmap := congrArg (List.filter fun o => isLettered o.1.1) (map_tokenize {} s)
  rw [List.filter_map, List.filter_map] at hmap
  have hlines : List.Forall₂ (fun (o : (List Char × List Char) × List Char) line => LaidOut style o.1.1 o.2 line)
      (((spans {} s).filter fun p => isLettered p.name).map fun p => (p.content, p.text)) (lines style x) := by
    rw [lines, linesOf_eq_map, List.forall₂_map_left_iff, List.forall₂_map_right_iff, List.forall₂_same]
    intro p hp
    obtain ⟨before, rest, -, hopens⟩ := opens_of_mem_spans (List.mem_filter.mp hp).1
    exact hopens.laidOut style
  have htokens := hmap ▸ hlines
  rw [List.forall₂_map_left_iff] at htokens
  exact htokens

end LabelPress.Markup
