import LabelPress.Json.Decoder
import LabelPress.Proofs.Json.Tokens

/-!
# Documents read back

A reader meets a written value as it was, on one line or on many (`scan_render`).
-/

namespace LabelPress.Json

open Number

/-! ## Values as they are met -/

mutual

/-- A value as a reader meets it. -/
def Value.node : Value → Node
  | .null => .word (.ok .null)
  | .bool b => .word (.ok (.bool b))
  | .number d => .numeral (.good d.numeral)
  | .string s => .string (.good s)
  | .array vs => .array (itemNodes vs) none
  | .object ms => .object (memberNodes ms) none

def itemNodes : List Value → List Node
  | [] => []
  | v :: vs => v.node :: itemNodes vs

def memberNodes : List (String × Value) → List (Scan String × Node)
  | [] => []
  | (k, v) :: ms => (.good k, v.node) :: memberNodes ms

end

variable {depth : Depth} {c : Char} {s t rest : List Char} {fuel : Nat} {v : Value}

/-! ## Blanks -/

theorem skip_lineBreak (depth : Depth) (s : List Char) : skip (lineBreak depth ++ s) = skip s := by
  have hall : ∀ c ∈ lineBreak depth, isSpace c := by
    cases depth with
    | none => simp [lineBreak]
    | some n => simp [lineBreak, isSpace]
  rw [skip, skip, List.dropWhile_append_of_pos hall]

theorem skip_cons (hc : isSpace c = false) (s : List Char) : skip (c :: s) = c :: s := by
  rw [skip, List.dropWhile_cons_of_neg (by simp [hc])]

theorem skip_skip (s : List Char) : skip (skip s) = skip s := by
  induction s with
  | nil => rfl
  | cons c s ih =>
    cases hc : isSpace c with
    | true =>
      have hs : skip (c :: s) = skip s := List.dropWhile_cons_of_pos hc
      rw [hs, ih]
    | false => rw [skip_cons hc, skip_cons hc]

theorem colon_deeper (depth : Depth) : colon (deeper depth) = colon depth := by
  cases depth <;> rfl

theorem skip_colon (depth : Depth) (s : List Char) :
    ∃ t, colon depth ++ s = ':' :: t ∧ skip t = skip s := by
  cases depth with
  | none => exact ⟨s, rfl, rfl⟩
  | some n => exact ⟨' ' :: s, rfl, rfl⟩

theorem stops_cons (hc : ¬ c.isDigit ∧ c ≠ '.' ∧ c ≠ 'e' ∧ c ≠ 'E') (s : List Char) : Stops (c :: s) := by
  intro d hd
  obtain rfl : c = d := by simpa using hd
  exact hc

theorem stops_lineBreak (depth : Depth) (hs : Stops s) : Stops (lineBreak depth ++ s) := by
  cases depth with
  | none => exact hs
  | some n => exact stops_cons (by decide) _

theorem digit_ne (hc : c.isDigit) : isSpace c = false ∧ c ≠ ']' := by
  have hne : ∀ d : Char, d.isDigit = false → c ≠ d := by
    rintro d hd rfl
    simp [hc] at hd
  refine ⟨?_, hne _ (by decide)⟩
  simp [isSpace, hne ' ' (by decide), hne '\n' (by decide), hne '\t' (by decide), hne '\r' (by decide)]

theorem exists_render_cons (v : Value) (depth : Depth) :
    ∃ c t, v.render depth = c :: t ∧ isSpace c = false ∧ c ≠ ']' := by
  cases v with
  | null => exact ⟨'n', _, rfl, by decide, by decide⟩
  | bool b =>
    cases b with
    | false => exact ⟨'f', _, rfl, by decide, by decide⟩
    | true => exact ⟨'t', _, rfl, by decide, by decide⟩
  | number d =>
    rw [Value.render, Decimal.text_eq]
    by_cases hm : d.mantissa < 0
    · exact ⟨'-', _, by rw [if_pos hm]; rfl, by decide, by decide⟩
    · obtain ⟨c, t, hc⟩ := List.exists_cons_of_ne_nil (decimal_ne_nil d.mantissa.natAbs)
      have hdigit : c.isDigit := isDigit_of_mem_decimal (n := d.mantissa.natAbs) (by simp [hc])
      obtain ⟨hspace, hclose⟩ := digit_ne hdigit
      exact ⟨c, _, by rw [if_neg hm, hc]; rfl, hspace, hclose⟩
  | string s => exact ⟨'"', _, rfl, by decide, by decide⟩
  | array vs =>
    cases vs with
    | nil => exact ⟨'[', _, rfl, by decide, by decide⟩
    | cons v vs => exact ⟨'[', _, by rw [Value.render]; rfl, by decide, by decide⟩
  | object ms =>
    cases ms with
    | nil => exact ⟨'{', _, rfl, by decide, by decide⟩
    | cons m ms => exact ⟨'{', _, by rw [Value.render]; rfl, by decide, by decide⟩

/-! ## One step of a reader -/

theorem scanValue_skip (fuel : Nat) (h : skip s = skip t) : scanValue fuel s = scanValue fuel t := by
  cases fuel with
  | zero => rw [scanValue, scanValue]
  | succ fuel => rw [scanValue, scanValue, h]

theorem scanItems_skip (fuel : Nat) (h : skip s = skip t) : scanItems fuel s = scanItems fuel t := by
  cases fuel with
  | zero => rw [scanItems, scanItems]
  | succ fuel => rw [scanItems, scanItems, scanValue_skip fuel h]

theorem scanValue_number (hrest : Stops rest) (fuel : Nat) (d : Decimal) :
    scanValue (fuel + 1) (d.text ++ rest) = (.numeral (.good d.numeral), rest) := by
  have hread := scanNumeral_text hrest d
  rw [Decimal.text_eq]
  by_cases hm : d.mantissa < 0
  · simp only [hm, decide_true] at hread
    rw [if_pos hm, scanValue]
    simp [skip_cons, isSpace, hread]
  · simp only [hm, decide_false] at hread
    obtain ⟨c, t, hc⟩ := List.exists_cons_of_ne_nil (decimal_ne_nil d.mantissa.natAbs)
    have hdigit : c.isDigit := isDigit_of_mem_decimal (n := d.mantissa.natAbs) (by simp [hc])
    obtain ⟨hspace, -⟩ := digit_ne hdigit
    rw [if_neg hm, List.nil_append, List.append_assoc]
    rw [hc, List.cons_append] at hread ⊢
    rw [scanValue, skip_cons hspace]
    split <;> simp_all

theorem scanValue_quoted (fuel : Nat) (s : String) (rest : List Char) :
    scanValue (fuel + 1) (quoted s ++ rest) = (.string (.good s), rest) := by
  have hread := scanString_escape s.toList rest
  rw [String.ofList_toList] at hread
  rw [quoted, scanValue]
  simp [skip_cons, isSpace, hread]

theorem scanValue_bracket (h : skip s = c :: t) (hc : c ≠ ']') (fuel : Nat) :
    scanValue (fuel + 1) ('[' :: s) =
      (.array (scanItems fuel s).1 (scanItems fuel s).2.1, (scanItems fuel s).2.2) := by
  have hsame : scanItems fuel s = scanItems fuel (c :: t) := by
    apply scanItems_skip
    rw [← h, skip_skip]
  rw [hsame, scanValue, skip_cons (by decide)]
  simp [h, hc]

theorem scanValue_brace (h : skip s = '"' :: t) (fuel : Nat) :
    scanValue (fuel + 1) ('{' :: s) =
      (.object (scanMembers fuel t).1 (scanMembers fuel t).2.1, (scanMembers fuel t).2.2) := by
  rw [scanValue, skip_cons (by decide)]
  simp [h]

/-! ## Whole values -/

def itemsText (depth : Depth) : List Value → List Char
  | [] => []
  | v :: vs => v.render depth ++ renderItems depth vs

/-- The text of members behind the quote that opens the first. -/
def membersText (depth : Depth) : List (String × Value) → List Char
  | [] => []
  | (k, v) :: ms =>
    k.toList.flatMap escape ++ '"' :: (colon depth ++ (v.render depth ++ renderMembers depth ms))

theorem renderItems_cons (depth : Depth) (v : Value) (vs : List Value) :
    renderItems depth (v :: vs) = ',' :: (lineBreak depth ++ itemsText depth (v :: vs)) := by
  simp [renderItems, itemsText]

theorem renderMembers_cons (depth : Depth) (m : String × Value) (ms : List (String × Value)) :
    renderMembers depth (m :: ms) = ',' :: (lineBreak depth ++ '"' :: membersText depth (m :: ms)) := by
  simp [renderMembers, membersText, quoted]

theorem render_array (depth : Depth) (v : Value) (vs : List Value) : (Value.array (v :: vs)).render depth =
    '[' :: (lineBreak (deeper depth) ++ (itemsText (deeper depth) (v :: vs) ++ (lineBreak depth ++ [']']))) := by
  simp [Value.render, itemsText]

theorem render_object (depth : Depth) (m : String × Value) (ms : List (String × Value)) :
    (Value.object (m :: ms)).render depth =
      '{' :: (lineBreak (deeper depth) ++ '"' :: (membersText (deeper depth) (m :: ms) ++
        (lineBreak depth ++ ['}']))) := by
  simp [Value.render, membersText, quoted, colon_deeper]

theorem stops_renderItems (depth : Depth) (vs : List Value) (hs : Stops s) : Stops (renderItems depth vs ++ s) := by
  cases vs with
  | nil => exact hs
  | cons v vs => exact stops_cons (by decide) _

theorem stops_renderMembers (depth : Depth) (ms : List (String × Value)) (hs : Stops s) :
    Stops (renderMembers depth ms ++ s) := by
  cases ms with
  | nil => exact hs
  | cons m ms => exact stops_cons (by decide) _

-- The induction is on the value. The reader spends one unit of fuel where the writer puts at least one character.
mutual

/-- What is written is met again, if the fuel is beyond its length. -/
theorem scanValue_render : ∀ (v : Value) (depth : Depth) (fuel : Nat) (rest : List Char),
    (v.render depth).length < fuel → Stops rest → scanValue fuel (v.render depth ++ rest) = (v.node, rest)
  | _, _, 0, _, hfuel, _ => absurd hfuel (Nat.not_lt_zero _)
  | .null, _, fuel + 1, rest, _, _ => by
    rw [Value.render, scanValue]
    simp [skip_cons, isSpace, scanWord, Value.node]
  | .bool false, _, fuel + 1, rest, _, _ => by
    rw [Value.render, scanValue]
    simp [skip_cons, isSpace, scanWord, Value.node]
  | .bool true, _, fuel + 1, rest, _, _ => by
    rw [Value.render, scanValue]
    simp [skip_cons, isSpace, scanWord, Value.node]
  | .number d, _, fuel + 1, rest, _, hrest => by
    rw [Value.render, scanValue_number hrest, Value.node]
  | .string s, _, fuel + 1, rest, _, _ => by
    rw [Value.render, scanValue_quoted, Value.node]
  | .array [], depth, fuel + 1, rest, _, _ => by
    rw [Value.render, scanValue]
    simp [skip_cons, isSpace, Value.node, itemNodes]
  | .array (v :: vs), depth, fuel + 1, rest, hfuel, _ => by
    rw [render_array] at hfuel ⊢
    simp only [List.length_cons, List.length_append, List.length_nil] at hfuel
    have hitems := scanItems_render (v :: vs) (deeper depth) depth fuel rest (List.cons_ne_nil _ _) (by omega)
    obtain ⟨c, t, hc, hspace, hclose⟩ := exists_render_cons v (deeper depth)
    have hskip : skip (lineBreak (deeper depth) ++
        (itemsText (deeper depth) (v :: vs) ++ (lineBreak depth ++ ']' :: rest))) =
          c :: (t ++ (renderItems (deeper depth) vs ++ (lineBreak depth ++ ']' :: rest))) := by
      rw [skip_lineBreak, itemsText, hc, List.append_assoc, List.cons_append, skip_cons hspace]
    have hread := scanValue_bracket hskip hclose fuel
    rw [scanItems_skip fuel (skip_lineBreak _ _), hitems] at hread
    simpa [Value.node] using hread
  | .object [], depth, fuel + 1, rest, _, _ => by
    rw [Value.render, scanValue]
    simp [skip_cons, isSpace, Value.node, memberNodes]
  | .object (m :: ms), depth, fuel + 1, rest, hfuel, _ => by
    rw [render_object] at hfuel ⊢
    simp only [List.length_cons, List.length_append, List.length_nil] at hfuel
    have hmembers := scanMembers_render (m :: ms) (deeper depth) depth fuel rest (List.cons_ne_nil _ _) (by omega)
    have hskip : skip (lineBreak (deeper depth) ++
        '"' :: (membersText (deeper depth) (m :: ms) ++ (lineBreak depth ++ '}' :: rest))) =
          '"' :: (membersText (deeper depth) (m :: ms) ++ (lineBreak depth ++ '}' :: rest)) := by
      rw [skip_lineBreak, skip_cons (by decide)]
    have hread := scanValue_brace hskip fuel
    rw [hmembers] at hread
    simpa [Value.node] using hread

theorem scanItems_render : ∀ (vs : List Value) (depth outer : Depth) (fuel : Nat) (rest : List Char), vs ≠ [] →
    (itemsText depth vs).length + 1 < fuel →
      scanItems fuel (itemsText depth vs ++ (lineBreak outer ++ ']' :: rest)) = (itemNodes vs, none, rest)
  | [], _, _, _, _, hne, _ => absurd rfl hne
  | _, _, _, 0, _, _, hfuel => absurd hfuel (Nat.not_lt_zero _)
  | v :: vs, depth, outer, fuel + 1, rest, _, hfuel => by
    simp only [itemsText, List.length_append] at hfuel
    have hclose : Stops (']' :: rest) := stops_cons (by decide) rest
    have hvalue := scanValue_render v depth fuel (renderItems depth vs ++ (lineBreak outer ++ ']' :: rest)) (by omega)
      (stops_renderItems depth vs (stops_lineBreak outer hclose))
    rw [itemsText, List.append_assoc, scanItems, hvalue]
    cases vs with
    | nil =>
      simp [renderItems, skip_lineBreak, skip_cons, isSpace, itemNodes]
    | cons w vs =>
      rw [renderItems_cons] at hfuel ⊢
      simp only [List.length_cons, List.length_append] at hfuel
      have hitems := scanItems_render (w :: vs) depth outer fuel rest (List.cons_ne_nil _ _) (by omega)
      rw [← scanItems_skip fuel (skip_lineBreak depth _)] at hitems
      simp [skip_cons, isSpace, hitems, itemNodes]

theorem scanMembers_render : ∀ (ms : List (String × Value)) (depth outer : Depth) (fuel : Nat) (rest : List Char),
    ms ≠ [] → (membersText depth ms).length + 1 < fuel →
      scanMembers fuel (membersText depth ms ++ (lineBreak outer ++ '}' :: rest)) = (memberNodes ms, none, rest)
  | [], _, _, _, _, hne, _ => absurd rfl hne
  | _, _, _, 0, _, _, hfuel => absurd hfuel (Nat.not_lt_zero _)
  | (k, v) :: ms, depth, outer, fuel + 1, rest, _, hfuel => by
    simp only [membersText, List.length_append, List.length_cons] at hfuel
    have hclose : Stops ('}' :: rest) := stops_cons (by decide) rest
    have hvalue := scanValue_render v depth fuel (renderMembers depth ms ++ (lineBreak outer ++ '}' :: rest)) (by omega)
      (stops_renderMembers depth ms (stops_lineBreak outer hclose))
    have hname := scanString_escape k.toList
      (colon depth ++ (v.render depth ++ (renderMembers depth ms ++ (lineBreak outer ++ '}' :: rest))))
    obtain ⟨t, ht, hskip⟩ := skip_colon depth
      (v.render depth ++ (renderMembers depth ms ++ (lineBreak outer ++ '}' :: rest)))
    rw [← scanValue_skip fuel hskip] at hvalue
    rw [String.ofList_toList, ht] at hname
    simp only [membersText, List.append_assoc, List.cons_append, ht]
    rw [scanMembers, hname]
    cases ms with
    | nil =>
      simp [skip_cons, isSpace, hvalue, renderMembers, skip_lineBreak, memberNodes]
    | cons m ms =>
      rw [renderMembers_cons] at hfuel hvalue
      simp only [List.length_cons, List.length_append] at hfuel
      have hmembers := scanMembers_render (m :: ms) depth outer fuel rest (List.cons_ne_nil _ _) (by omega)
      simp [skip_cons, isSpace, hvalue, skip_lineBreak, hmembers, memberNodes]

end

theorem scan_render (v : Value) (depth : Depth) (hs : Stops s) : scan (v.render depth ++ s) = (v.node, s) := by
  refine scanValue_render v depth _ s ?_ hs
  rw [List.length_append]
  omega

theorem decode_render_append {α : Type} (d : Decoder α) (v : Value) (depth : Depth) (hs : Stops s)
    (hblank : skip s = []) : decode d (v.render depth ++ s) = d v.node := by
  simp only [decode, scan_render v depth hs, hblank]
  cases d v.node <;> rfl

theorem decode_render {α : Type} (d : Decoder α) (v : Value) (depth : Depth) :
    decode d (v.render depth) = d v.node := by
  have hstops : Stops [] := by simp [Stops]
  have h := decode_render_append d v depth hstops rfl
  rwa [List.append_nil] at h

/-! ## Decoders -/

theorem value_decimal (n : Nat) : Numeral.value (decimal n) = n := by
  rw [Numeral.value, digitsFrom_of_isDigit (fun _ hc => isDigit_of_mem_decimal hc), decimal,
    Nat.ofDigitChars_ten_toDigits, Option.getD_some]

theorem integer?_natCast {n : Nat} (h : n < UInt64.size) :
    (Decimal.numeral ⟨n, 0⟩).integer? = some (n : Int) := by
  have hneg : ¬ (n : Int) < 0 := by omega
  simp [Numeral.integer?, Decimal.numeral, Numeral.isWhole, value_decimal, hneg, h]

theorem natUpTo_int {n limit : Nat} (hlimit : n ≤ limit) (h : n < UInt64.size) :
    natUpTo limit (Value.int n).node = .ok n := by
  have hbounds : 0 ≤ (n : Int) ∧ (n : Int) ≤ limit := by omega
  simp only [natUpTo, Value.int, Value.node, Scan.good, integer?_natCast h, if_pos hbounds, Int.toNat_natCast]

theorem uint32_int {n : Nat} (h : n < UInt32.size) : uint32 (Value.int n).node = .ok (UInt32.ofNat n) := by
  rw [uint32, natUpTo_int (Nat.le_sub_one_of_lt h) (h.trans (by decide)), Except.map]

theorem uint64_int {n : Nat} (h : n < UInt64.size) : uint64 (Value.int n).node = .ok (UInt64.ofNat n) := by
  rw [uint64, natUpTo_int (Nat.le_sub_one_of_lt h) h, Except.map]

theorem uint32_uint32 (n : UInt32) : uint32 (Value.uint32 n).node = .ok n := by
  rw [Value.uint32, uint32_int n.toNat_lt, UInt32.ofNat_toNat]

theorem bool_bool (b : Bool) : bool (Value.bool b).node = .ok b := rfl

theorem text_text (s : List Char) : text (Value.text s).node = .ok s := by
  simp only [text, string, Value.text, Value.node, Scan.good, Except.map, String.toList_ofList]

theorem members_object {α : Type} {d : Decoder α} {f : α → Value} (h : ∀ a, d (f a).node = .ok a)
    (entries : List (String × α)) :
    members d (Value.object (entries.map fun e => (e.1, f e.2))).node = .ok entries := by
  have hmembers : (memberNodes (entries.map fun e => (e.1, f e.2))).mapM
      (fun m => do return (← m.1.value, ← d m.2)) = .ok entries := by
    induction entries with
    | nil => rfl
    | cons e es ih =>
      rw [List.map_cons, memberNodes, List.mapM_cons, ih, h]
      rfl
  rw [Value.node, members]
  simp only [hmembers]
  rfl

end LabelPress.Json
