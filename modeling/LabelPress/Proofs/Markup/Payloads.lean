import LabelPress.Proofs.Markup.Reread
import Mathlib

/-!
# Field data in a layout

A layout may make field data of a command that is none: it takes the blanks out from between the mnemonic `F`
and a `D`. And it drops blanks at the end of field data without terminator. All field data is kept exactly if
there is neither (`payloads_laidOut_iff`).
-/

namespace LabelPress.Markup

open Text

/-- The field data among the commands. -/
def payloads (ts : List Token) : List (List Char) := (ts.filter Token.isFieldData).map Token.params

/-- The field data of a text. -/
def dataOf (s : List Char) : List (List Char) := ((contents {} s).filter (·.1 == fieldData)).map Prod.snd

/-- The text with line feeds alone at the ends of its lines. -/
def lineFeeds (x : List Char) : List Char := replaceAll ['\r', '\n'] ['\n'] x

/-- A layout joins the mnemonic and what follows it to that of field data. -/
def Span.Joins (p : Span) : Prop := p.name = ['F'] ∧ p.params.head? = some 'D'

/-- What a layout leaves of field data. -/
def Span.kept (p : Span) : List Char := if p.closing = [] then trimEnd p.raw else p.raw

variable {p : Span} {style : Style} {c : Char} {s t u v w rest sep : List Char}

/-! ## Field data of a text -/

theorem payloads_tokenize (s : List Char) : payloads (tokenize {} s) = dataOf s := by
  rw [dataOf, ← map_content_tokenize, List.filter_map, List.map_map]
  rfl

theorem dataOf_nil : dataOf [] = [] := by simp [dataOf, contents]

theorem dataOf_skip (h : ({} : Leaders).isLeader c → mnemonic? s = none) : dataOf (c :: s) = dataOf s := by
  rw [dataOf, contents, spans_skip h, dataOf, contents]

theorem dataOf_of_not_leader (hw : ∀ c ∈ w, ¬ ({} : Leaders).isLeader c) (s : List Char) :
    dataOf (w ++ s) = dataOf s := by
  rw [dataOf, contents, spans_of_not_leader hw, dataOf, contents]

theorem dataOf_span (hp : p.Opens {} rest) :
    dataOf (p.text ++ rest) = if p.name = fieldData then p.raw :: dataOf rest else dataOf rest := by
  rw [dataOf, contents, spans_span hp, List.map_cons, List.filter_cons]
  split_ifs with hname hdata hdata
  · simp [Span.content, Span.params, hdata, dataOf, contents]
  · simp [Span.content, hdata] at hname
  · simp [Span.content, hdata] at hname
  · rfl

theorem dataOf_fieldData (hc : ({} : Leaders).isLeader c) (t : List Char) :
    dataOf (c :: (fieldData ++ t)) = (body {} fieldData t).params :: dataOf (body {} fieldData t).rest := by
  have hm : mnemonic? (fieldData ++ t) = some (fieldData, t) :=
    mnemonic?_eq_some_iff.mpr ⟨longestMnemonic_fieldData_iff.mpr (List.prefix_append _ _), rfl⟩
  have hspan := dataOf_span (opens_body hc hm)
  have htext : c :: (fieldData ++ t) =
      (Span.mk c fieldData (body {} fieldData t).params (body {} fieldData t).closing).text ++
        (body {} fieldData t).rest := by
    conv_lhs => rw [← body_append {} fieldData t]
    simp [Span.text]
  rw [htext, hspan, if_pos rfl]

/-! ## Lines -/

theorem Span.Opens.exists_line_eq (hp : p.Opens {} rest) (hname : p.name ≠ fieldData) (hlet : isLettered p.name)
    (style : Style) :
    ∃ w, p.line style = p.leader :: w ∧ (∀ d ∈ w, ¬ ({} : Leaders).isLeader d) ∧
      (∃ d ∈ w.head?, isAlphanumeric d) ∧ (fieldData <+: w ↔ p.Joins) := by
  obtain ⟨raw', hline, hlaid, hhead⟩ := hp.exists_laid hname hlet style
  obtain ⟨-, hfree, -⟩ := hp.ends_at hname
  obtain ⟨d, n, hn, hd⟩ := hp.name.mnemonic.exists_cons
  refine ⟨p.name ++ raw', hline, ?_, ⟨d, by simp [hn], hd⟩, ?_⟩
  · intro e he hleader
    have hmem : e ∈ dropBlanks (p.name ++ raw') :=
      List.mem_filter.mpr ⟨he, by simp [plain_usual.not_blank e hleader]⟩
    rw [dropBlanks_append, hlaid.dropBlanks_eq, ← dropBlanks_append] at hmem
    exact hfree e (List.mem_of_mem_filter hmem) hleader
  · have hparams : p.params.head? = (dropBlanks p.raw).head? := by
      rw [Span.params, if_neg hname, (trimmed_trim p.raw).head?_eq, dropBlanks_trim]
    have hlen := hp.name.mnemonic.length_le
    rw [Span.Joins, hparams]
    rw [hn] at hlen hname hhead ⊢
    cases n with
    | nil =>
      rw [← hhead rfl]
      cases raw' with
      | nil => simp [fieldData, List.cons_prefix_cons]
      | cons e raw' => simp [fieldData, List.cons_prefix_cons, eq_comm]
    | cons e n =>
      obtain rfl : n = [] := by simpa using hlen
      simp only [fieldData, ne_eq, List.cons.injEq, and_true, not_and] at hname
      simp only [fieldData, List.cons_append, List.nil_append, List.cons_prefix_cons, List.nil_prefix, and_true,
        List.cons.injEq, reduceCtorEq, and_false, false_and, iff_false, not_and]
      exact fun h1 h2 => hname h1.symm h2.symm

theorem Span.Opens.line_eq_kept (hp : p.Opens {} rest) (hname : p.name = fieldData) (style : Style) :
    p.line style = p.leader :: (fieldData ++ (p.kept ++ p.closing)) := by
  rw [Span.line, if_pos hname, hp.trim_text]
  by_cases hclosing : p.closing = []
  · have hopen : ¬ ({} : Leaders).terminator <:+ p.text := by
      rw [hp.closing_iff plain_usual.apart hname, hclosing]
      simp
    have hleader : ¬ isBlank p.leader := plain_usual.not_blank _ hp.leader
    rw [if_neg hopen, Span.text, Span.kept, if_pos hclosing, hclosing, hname, List.append_nil, List.append_nil,
      trimEnd_cons hleader]
    simp [fieldData, trimEnd_cons (show ¬ isBlank 'F' by decide), trimEnd_cons (show ¬ isBlank 'D' by decide)]
  · rw [if_pos ((hp.closing_iff plain_usual.apart hname).mpr hclosing), Span.text, Span.kept, if_neg hclosing, hname]
    simp

theorem Span.Opens.of_not_closed (hp : p.Opens {} rest) (hname : p.name = fieldData) (hclosing : p.closing = []) :
    rest = [] ∧ ¬ ({} : Leaders).terminator <:+: p.raw := by
  have hends := hp.ends
  rw [Span.Ends, if_pos hname] at hends
  rcases hends with ⟨hterm, -⟩ | ⟨-, hends⟩
  · rw [hclosing] at hterm
    exact absurd hterm (by simp [Leaders.terminator])
  · exact hends

theorem Span.Opens.body_kept (hp : p.Opens {} rest) (hname : p.name = fieldData) (hv : p.closing = [] → v = []) :
    body {} fieldData (p.kept ++ p.closing ++ v) = ⟨p.kept, p.closing, v⟩ := by
  by_cases hclosing : p.closing = []
  · obtain ⟨w, hw, -⟩ := exists_eq_trimEnd p.raw
    have hcut : cut? ({} : Leaders).terminator (trimEnd p.raw) = none := by
      rw [cut?_eq_none_iff]
      intro h
      apply (hp.of_not_closed hname hclosing).2
      rw [hw]
      exact h.trans (List.prefix_append _ _).isInfix
    rw [hv hclosing, Span.kept, if_pos hclosing, hclosing, List.append_nil, List.append_nil, body, if_pos rfl, hcut]
  · have hends := (hp.closed hname hclosing).ends.first_append hname hclosing (v := v)
    rw [Span.kept, if_neg hclosing]
    simpa [hname] using hends.body_eq

theorem length_dropBlanks_kept (p : Span) : (dropBlanks p.kept).length = (dropBlanks p.raw).length := by
  unfold Span.kept
  split_ifs
  · obtain ⟨w, hw, hblank⟩ := exists_eq_trimEnd p.raw
    conv_rhs => rw [hw, dropBlanks_append, dropBlanks_of_blank hblank, List.append_nil]
  · rfl

/-! ## What the field data weighs -/

/-- How many characters there are that are no blanks, and one more for each text. -/
def weight : List (List Char) → Nat
  | [] => 0
  | d :: ds => (dropBlanks d).length + 1 + weight ds

/-- The weight of what follows where field data is open. -/
def inside (s : List Char) : Nat :=
  (dropBlanks (body {} fieldData s).params).length + weight (dataOf (body {} fieldData s).rest)

theorem inside_append (hu : Misses ({} : Leaders).terminator u) (s : List Char) :
    inside (u ++ s) = (dropBlanks u).length + inside s := by
  simp only [inside, body_fieldData_append hu, dropBlanks_append, List.length_append]
  omega

theorem inside_terminator (s : List Char) : inside (({} : Leaders).terminator ++ s) = weight (dataOf s) := by
  rw [inside, body, if_pos rfl, cut?_append_self]
  simp

theorem misses_of_not_leader (hw : ∀ d ∈ w, ¬ ({} : Leaders).isLeader d) : Misses ({} : Leaders).terminator w :=
  misses_of_not_mem fun h => hw _ h (by decide)

theorem inside_cons (hc : ¬ ({} : Leaders).terminator <+: c :: s) :
    inside (c :: s) = (dropBlanks [c]).length + inside s := by
  have hdrop : ∀ t, (dropBlanks (c :: t)).length = (dropBlanks [c]).length + (dropBlanks t).length := fun t => by
    rw [← List.length_append, ← dropBlanks_append, List.singleton_append]
  rw [inside, inside, body, body, if_pos rfl, if_pos rfl, cut?_cons_of_not_prefix hc]
  cases cut? ({} : Leaders).terminator s with
  | none =>
    dsimp only [Option.map_none]
    rw [hdrop, Nat.add_assoc]
  | some o =>
    dsimp only [Option.map_some]
    rw [hdrop, Nat.add_assoc]

/-! ## One line and what follows it -/

theorem dataOf_cons_of_not_prefix (hc : ({} : Leaders).isLeader c) (hs : ¬ fieldData <+: s) :
    dataOf (c :: s) = dataOf s := by
  cases hm : mnemonic? s with
  | none => exact dataOf_skip fun _ => hm
  | some o =>
    have hname : o.1 ≠ fieldData := by
      intro h
      have := (mnemonic?_eq_some_iff.mp hm).1.begins
      exact hs (h ▸ this)
    obtain ⟨p, hp, hspans⟩ := exists_spans_cons plain_usual hc hm hname
    rw [dataOf, contents, hspans, List.map_cons, List.filter_cons_of_neg, dataOf, contents]
    simpa [Span.content, hp] using hname

theorem fieldData_prefix_append_iff (hw : ∃ d ∈ w.head?, isAlphanumeric d)
    (hv : ∀ d ∈ v.head?, ¬ isAlphanumeric d) : fieldData <+: w ++ v ↔ fieldData <+: w := by
  refine ⟨fun h => ?_, fun h => h.trans (List.prefix_append w v)⟩
  obtain ⟨⟨name, t⟩, hm⟩ : ∃ o, mnemonic? w = some o := by
    rw [← Option.ne_none_iff_exists', ne_eq, mnemonic?_eq_none_iff]
    obtain ⟨d, hd, halpha⟩ := hw
    exact fun h => h d hd halpha
  have hlong := (mnemonic?_eq_some_iff.mp hm).1
  by_contra hnot
  have hname : name ≠ fieldData := fun hname => hnot (hname ▸ hlong.begins)
  exact not_fieldData_append hlong hname hv h

theorem Span.Opens.dataOf_line_fieldData (hp : p.Opens {} rest) (hname : p.name = fieldData)
    (hv : p.closing = [] → v = []) : dataOf (p.line style ++ v) = p.kept :: dataOf v := by
  have hline : p.line style ++ v = p.leader :: (fieldData ++ (p.kept ++ p.closing ++ v)) := by
    simp [hp.line_eq_kept hname style]
  rw [hline, dataOf_fieldData hp.leader, hp.body_kept hname hv]

theorem Span.Opens.inside_line_fieldData (hp : p.Opens {} rest) (hname : p.name = fieldData)
    (hv : p.closing = [] → v = []) :
    (dropBlanks p.raw).length + 1 + weight (dataOf v) ≤ inside (p.line style ++ v) := by
  have hline : p.line style ++ v = p.leader :: 'F' :: 'D' :: (p.kept ++ p.closing ++ v) := by
    simp [hp.line_eq_kept hname style, fieldData]
  have hF : (dropBlanks ['F']).length = 1 := by decide
  have hnot : ∀ d t, d ≠ '^' → ¬ ({} : Leaders).terminator <+: d :: t := by
    intro d t hd h
    simp only [Leaders.terminator, List.cons_prefix_cons] at h
    exact hd h.1.symm
  rw [hline, inside_cons (by simp [Leaders.terminator, fieldSeparator, List.cons_prefix_cons]),
    inside_cons (hnot _ _ (by decide)), inside_cons (hnot _ _ (by decide)), inside, hp.body_kept hname hv]
  dsimp only
  rw [length_dropBlanks_kept]
  omega

theorem Span.Opens.dataOf_line (hp : p.Opens {} rest) (hname : p.name ≠ fieldData) (hlet : isLettered p.name)
    (hjoins : ¬ p.Joins) (hv : ∀ d ∈ v.head?, ¬ isAlphanumeric d) : dataOf (p.line style ++ v) = dataOf v := by
  obtain ⟨w, hline, hfree, hhead, hiff⟩ := hp.exists_line_eq hname hlet style
  have hnot : ¬ fieldData <+: w ++ v := by rwa [fieldData_prefix_append_iff hhead hv, hiff]
  rw [hline, List.cons_append, dataOf_cons_of_not_prefix hp.leader hnot, dataOf_of_not_leader hfree]

theorem Span.Opens.inside_lt_weight_line (hp : p.Opens {} rest) (hname : p.name ≠ fieldData)
    (hlet : isLettered p.name) (hjoins : p.Joins) (v : List Char) :
    inside v < weight (dataOf (p.line style ++ v)) := by
  obtain ⟨w, hline, hfree, -, hiff⟩ := hp.exists_line_eq hname hlet style
  obtain ⟨w, rfl⟩ := hiff.mpr hjoins
  have hopen := inside_append (misses_of_not_leader fun d hd => hfree d (List.mem_append_right _ hd)) v
  rw [hline, List.cons_append, List.append_assoc, dataOf_fieldData hp.leader, weight]
  rw [inside] at hopen
  omega

theorem Span.Opens.inside_line (hp : p.Opens {} rest) (hname : p.name ≠ fieldData) (hlet : isLettered p.name)
    (hv : ∀ d ∈ v.head?, ¬ isAlphanumeric d) :
    inside (p.line style ++ v) = weight (dataOf v) ∨ inside v ≤ inside (p.line style ++ v) := by
  obtain ⟨w, hline, hfree, -, -⟩ := hp.exists_line_eq hname hlet style
  by_cases hends : ({} : Leaders).terminator <+: p.leader :: w
  · obtain ⟨t, ht⟩ := hends
    left
    simp only [Leaders.terminator, List.cons_append, List.cons.injEq] at ht
    have hline' : p.line style ++ v = ({} : Leaders).terminator ++ (t ++ v) := by
      simp [hline, Leaders.terminator, ← ht]
    rw [hline', inside_terminator, dataOf_of_not_leader fun d hd => hfree d (by simp [← ht.2, hd])]
  · right
    have hnot : ¬ ({} : Leaders).terminator <+: p.leader :: (w ++ v) := fun h =>
      hends (terminator_prefix_left (u := p.leader :: w) hv (by simp) h)
    rw [hline, List.cons_append, inside_cons hnot, inside_append (misses_of_not_leader hfree)]
    omega

/-! ## All lines -/

/-- The lines of a text, with blanks in front of each. So they stand behind a line. -/
def following (sep : List Char) (style : Style) (s : List Char) : List Char :=
  (linesOf style s).flatMap (sep ++ ·)

theorem following_nil (sep : List Char) (style : Style) : following sep style [] = [] := by
  rw [following, linesOf_nil, List.flatMap_nil]

theorem following_span (hp : p.Opens {} rest) (hlet : isLettered p.name) :
    following sep style (p.text ++ rest) = sep ++ (p.line style ++ following sep style rest) := by
  by_cases hname : p.name = fieldData
  · rw [following, linesOf_fieldData hp hname, List.flatMap_cons, List.append_assoc, following]
  · rw [following, linesOf_command hp hname, if_pos hlet, List.flatMap_cons, List.append_assoc, following]

theorem isLettered_fieldData : isLettered fieldData := by decide

theorem following_of_not_lettered (hp : p.Opens {} rest) (hlet : ¬ isLettered p.name) :
    following sep style (p.text ++ rest) = following sep style rest := by
  have hname : p.name ≠ fieldData := fun h => hlet (h ▸ isLettered_fieldData)
  rw [following, linesOf_command hp hname, if_neg hlet, following]

theorem following_skip (h : ({} : Leaders).isLeader c → mnemonic? s = none) :
    following sep style (c :: s) = following sep style s := by
  rw [following, linesOf_skip h, following]

theorem Span.Opens.following_eq_nil (hp : p.Opens {} rest) (hname : p.name = fieldData) (hclosing : p.closing = []) :
    following sep style rest = [] := by
  rw [(hp.of_not_closed hname hclosing).1, following_nil]

theorem exists_of_mem_linesOf (h : w ∈ linesOf style s) : ∃ c t, w = c :: t ∧ ({} : Leaders).isLeader c := by
  rw [linesOf_eq_map] at h
  obtain ⟨p, hp, rfl⟩ := List.mem_map.mp h
  obtain ⟨hp, hlet⟩ := List.mem_filter.mp hp
  obtain ⟨-, rest, -, hopens⟩ := opens_of_mem_spans hp
  by_cases hname : p.name = fieldData
  · exact ⟨p.leader, _, hopens.line_eq_kept hname style, hopens.leader⟩
  · obtain ⟨w, hline, -⟩ := hopens.exists_line_eq hname hlet style
    exact ⟨p.leader, w, hline, hopens.leader⟩

theorem append_intercalate {ls : List (List Char)} (hls : ls ≠ []) :
    sep ++ sep.intercalate ls = ls.flatMap (sep ++ ·) := by
  induction ls with
  | nil => exact absurd rfl hls
  | cons w ls ih =>
    cases ls with
    | nil => simp
    | cons v ls =>
      rw [List.intercalate_cons_cons, List.flatMap_cons, ← ih (by simp)]
      simp

section Separator

variable (hsep : ∀ c ∈ sep, isBlank c)
include hsep

theorem not_leader_of_blank : ∀ c ∈ sep, ¬ ({} : Leaders).isLeader c :=
  fun c hc h => plain_usual.not_blank c h (hsep c hc)

theorem dataOf_blanks (s : List Char) : dataOf (sep ++ s) = dataOf s :=
  dataOf_of_not_leader (not_leader_of_blank hsep) s

theorem inside_blanks (s : List Char) : inside (sep ++ s) = inside s := by
  rw [inside_append (misses_of_not_leader (not_leader_of_blank hsep)), dropBlanks_of_blank hsep, List.length_nil,
    Nat.zero_add]

theorem head_following (style : Style) (s : List Char) :
    ∀ d ∈ (following sep style s).head?, ¬ isAlphanumeric d := by
  intro d hd
  rw [following] at hd
  cases hl : linesOf style s with
  | nil => simp [hl] at hd
  | cons w ls =>
    obtain ⟨c, t, rfl, hc⟩ := exists_of_mem_linesOf (hl ▸ List.mem_cons_self)
    rw [hl, List.flatMap_cons, List.append_assoc] at hd
    have hfresh : Fresh {} (sep ++ (c :: t ++ ls.flatMap (sep ++ ·))) := fresh_append hsep (by simpa using hc)
    exact (hfresh.head plain_usual d hd).1

theorem dataOf_intercalate (style : Style) (s : List Char) :
    dataOf (sep.intercalate (linesOf style s)) = dataOf (following sep style s) := by
  rw [following]
  by_cases hls : linesOf style s = []
  · rw [hls]
    rfl
  · rw [← append_intercalate hls, dataOf_blanks hsep]

/-! ### One step -/

theorem dataOf_following_fieldData (style : Style) (hp : p.Opens {} rest) (hname : p.name = fieldData) :
    dataOf (following sep style (p.text ++ rest)) = p.kept :: dataOf (following sep style rest) := by
  rw [following_span hp (hname ▸ isLettered_fieldData), dataOf_blanks hsep,
    hp.dataOf_line_fieldData hname (hp.following_eq_nil hname)]

theorem inside_following_fieldData (style : Style) (hp : p.Opens {} rest) (hname : p.name = fieldData) :
    (dropBlanks p.raw).length + 1 + weight (dataOf (following sep style rest)) ≤
      inside (following sep style (p.text ++ rest)) := by
  rw [following_span hp (hname ▸ isLettered_fieldData), inside_blanks hsep]
  exact hp.inside_line_fieldData hname (hp.following_eq_nil hname)

theorem dataOf_following_command (style : Style) (hp : p.Opens {} rest) (hname : p.name ≠ fieldData)
    (hjoins : ¬ p.Joins) :
    dataOf (following sep style (p.text ++ rest)) = dataOf (following sep style rest) := by
  by_cases hlet : isLettered p.name
  · rw [following_span hp hlet, dataOf_blanks hsep,
      hp.dataOf_line hname hlet hjoins (head_following hsep style rest)]
  · rw [following_of_not_lettered hp hlet]

theorem inside_lt_weight (style : Style) (hp : p.Opens {} rest) (hjoins : p.Joins) :
    inside (following sep style rest) < weight (dataOf (following sep style (p.text ++ rest))) := by
  rw [following_span hp (hjoins.1 ▸ rfl), dataOf_blanks hsep]
  exact hp.inside_lt_weight_line (by simp [hjoins.1, fieldData]) (hjoins.1 ▸ rfl) hjoins _

theorem inside_following_command (style : Style) (hp : p.Opens {} rest) (hname : p.name ≠ fieldData) :
    inside (following sep style (p.text ++ rest)) = weight (dataOf (following sep style rest)) ∨
      inside (following sep style rest) ≤ inside (following sep style (p.text ++ rest)) := by
  by_cases hlet : isLettered p.name
  · rw [following_span hp hlet, inside_blanks hsep]
    exact hp.inside_line hname hlet (head_following hsep style rest)
  · rw [following_of_not_lettered hp hlet]
    exact .inr le_rfl

/-! ### The run -/

/-- A layout takes nothing out of field data, whether its lines are read from their beginning or where
field data is open. -/
theorem weight_le (style : Style) (s : List Char) :
    weight (dataOf s) ≤ weight (dataOf (following sep style s)) ∧
      weight (dataOf s) ≤ inside (following sep style s) := by
  -- What is joined leads into field data and a terminator out of it, so neither part goes without the other.
  induction s using text_induction (l := {}) with
  | nil => simp [dataOf_nil, weight]
  | skip c s hskip ih =>
    rw [dataOf_skip hskip, following_skip hskip]
    exact ih
  | span p rest hp ih =>
    rw [dataOf_span hp]
    by_cases hname : p.name = fieldData
    · have hopen := inside_following_fieldData hsep style hp hname
      rw [if_pos hname, dataOf_following_fieldData hsep style hp hname, weight, weight, length_dropBlanks_kept]
      omega
    · have hopen := inside_following_command hsep style hp hname
      rw [if_neg hname]
      by_cases hjoins : p.Joins
      · have := inside_lt_weight hsep style hp hjoins
        omega
      · rw [dataOf_following_command hsep style hp hname hjoins]
        omega

theorem weight_lt (style : Style) (h : ∃ p ∈ spans {} s, p.Joins) :
    weight (dataOf s) < weight (dataOf (following sep style s)) := by
  induction s using text_induction (l := {}) with
  | nil => simp at h
  | skip c s hskip ih =>
    rw [spans_skip hskip] at h
    rw [dataOf_skip hskip, following_skip hskip]
    exact ih h
  | span p rest hp ih =>
    rw [spans_span hp, List.exists_mem_cons_iff] at h
    rw [dataOf_span hp]
    by_cases hjoins : p.Joins
    · have hopen := inside_lt_weight hsep style hp hjoins
      have hrest := (weight_le hsep style rest).2
      rw [if_neg (by simp [hjoins.1, fieldData])]
      omega
    · have hrest := ih (h.resolve_left hjoins)
      by_cases hname : p.name = fieldData
      · rw [if_pos hname, dataOf_following_fieldData hsep style hp hname, weight, weight, length_dropBlanks_kept]
        omega
      · rwa [if_neg hname, dataOf_following_command hsep style hp hname hjoins]

theorem dataOf_following (style : Style) (h : ∀ p ∈ spans {} s, ¬ p.Joins) :
    dataOf (following sep style s) = ((spans {} s).filter (·.name == fieldData)).map Span.kept := by
  induction s using text_induction (l := {}) with
  | nil => simp [following_nil, dataOf_nil]
  | skip c s hskip ih =>
    rw [spans_skip hskip] at h ⊢
    rw [following_skip hskip]
    exact ih h
  | span p rest hp ih =>
    rw [spans_span hp, List.forall_mem_cons] at h
    have hrest := ih h.2
    rw [spans_span hp, List.filter_cons]
    by_cases hname : p.name = fieldData
    · rw [dataOf_following_fieldData hsep style hp hname, hrest, if_pos (by simpa using hname), List.map_cons]
    · rw [dataOf_following_command hsep style hp hname h.1, hrest, if_neg (by simpa using hname)]

end Separator

/-! ## Which field data is kept -/

/-- No mnemonic `F` is joined with a `D`, and no blanks stand at the end of field data without terminator. -/
structure Durable (s : List Char) : Prop where
  apart : ∀ t ∈ tokenize {} s, t.name = ['F'] → t.params.head? ≠ some 'D'
  ended : ∀ t ∈ tokenize {} s, t.name = fieldData →
    ({} : Leaders).terminator <:+ slice s t.start t.stop ∨ ∀ c ∈ t.params.getLast?, ¬ isBlank c

theorem Span.Opens.kept_eq_raw_iff (hp : p.Opens {} rest) (hname : p.name = fieldData) :
    p.kept = p.raw ↔ ({} : Leaders).terminator <:+ p.text ∨ ∀ c ∈ p.params.getLast?, ¬ isBlank c := by
  rw [hp.closing_iff plain_usual.apart hname, Span.params, if_pos hname, Span.kept]
  split_ifs with hclosing
  · simp only [hclosing, ne_eq, not_true_eq_false, false_or]
    exact ⟨fun h => h ▸ getLast_trimEnd p.raw, trimEnd_of_getLast⟩
  · simp [hclosing]

theorem durable_iff (s : List Char) :
    Durable s ↔ (∀ p ∈ spans {} s, ¬ p.Joins) ∧ ∀ p ∈ spans {} s, p.name = fieldData → p.kept = p.raw := by
  have hapart := forall_tokenize_iff (l := {}) (s := s) fun o _ => o.1 = ['F'] → o.2.head? ≠ some 'D'
  have hended := forall_tokenize_iff (l := {}) (s := s) fun o text => o.1 = fieldData →
    ({} : Leaders).terminator <:+ text ∨ ∀ c ∈ o.2.getLast?, ¬ isBlank c
  have hkept : (∀ p ∈ spans {} s, p.name = fieldData → p.kept = p.raw) ↔ ∀ p ∈ spans {} s, p.name = fieldData →
      ({} : Leaders).terminator <:+ p.text ∨ ∀ c ∈ p.params.getLast?, ¬ isBlank c := by
    refine forall₂_congr fun p hp => ?_
    obtain ⟨-, rest, -, hopens⟩ := opens_of_mem_spans hp
    exact forall_congr' hopens.kept_eq_raw_iff
  simp only [Span.Joins, not_and]
  rw [hkept]
  exact ⟨fun h => ⟨hapart.mp h.apart, hended.mp h.ended⟩, fun h => ⟨hapart.mpr h.1, hended.mpr h.2⟩⟩

theorem dataOf_eq_map_raw (s : List Char) :
    dataOf s = ((spans {} s).filter (·.name == fieldData)).map Span.raw := by
  rw [dataOf, contents, List.filter_map, List.map_map]
  refine List.map_congr_left fun p hp => ?_
  have hname : p.name = fieldData := by simpa [Span.content] using (List.mem_filter.mp hp).2
  simp [Span.content, Span.params, hname]

theorem dataOf_intercalate_iff (hsep : ∀ c ∈ sep, isBlank c) (style : Style) (s : List Char) :
    dataOf (sep.intercalate (linesOf style s)) = dataOf s ↔ Durable s := by
  rw [dataOf_intercalate hsep, durable_iff]
  by_cases hjoins : ∃ p ∈ spans {} s, p.Joins
  · have hlt := weight_lt hsep style hjoins
    refine iff_of_false (fun h => ?_) fun h => ?_
    · rw [h] at hlt
      exact lt_irrefl _ hlt
    · obtain ⟨p, hp, hp'⟩ := hjoins
      exact h.1 p hp hp'
  · have hnone : ∀ p ∈ spans {} s, ¬ p.Joins := fun p hp h => hjoins ⟨p, hp, h⟩
    rw [dataOf_following hsep style hnone, dataOf_eq_map_raw, List.map_inj_left, and_iff_right hnone]
    simp only [List.mem_filter, beq_iff_eq, and_imp]

/-- Both layouts keep all field data, and make none, exactly if the text is durable. -/
theorem payloads_laidOut_iff (x : List Char) :
    (payloads (tokenize {} (pretty x)) = payloads (tokenize {} (lineFeeds x)) ↔ Durable (lineFeeds x)) ∧
      (payloads (tokenize {} (minify x)) = payloads (tokenize {} (lineFeeds x)) ↔ Durable (lineFeeds x)) := by
  have hflatten : minify x = [].intercalate (linesOf .minified (lineFeeds x)) := flatten_eq_intercalate _
  simp only [payloads_tokenize]
  rw [hflatten]
  exact ⟨dataOf_intercalate_iff isBlank_of_mem_lineFeed .pretty _, dataOf_intercalate_iff (by simp) .minified _⟩

/-- A text without field data gets some if `F` and `D` are joined. -/
theorem not_payloads_laidOut : ¬ ∀ x,
    payloads (tokenize {} (pretty x)) = payloads (tokenize {} (lineFeeds x)) ∧
      payloads (tokenize {} (minify x)) = payloads (tokenize {} (lineFeeds x)) := by
  intro h
  have hkept := (h "^F Dx^FS".toList).1
  have hpretty : payloads (tokenize {} (pretty "^F Dx^FS".toList)) = [['x', '\n']] := by cbv
  have hnone : payloads (tokenize {} (lineFeeds "^F Dx^FS".toList)) = [] := by cbv
  rw [hpretty, hnone] at hkept
  exact absurd hkept (by decide)

end LabelPress.Markup
