import LabelPress.Proofs.Finish.Placeholder
import LabelPress.Proofs.Finish.Width
import Mathlib

/-!
# The length of a finished label

Where placeholders are well placed, a finished label asks for exactly the length that was estimated without
them, its margin included, and is that long.
-/

namespace LabelPress.Finish

open Markup Number Text Estimate

variable {c : Config} {setup : Media.Setup} {n m : UInt32} {s x y : List Char}
  {os us : List (List Char × List Char)}

/-! ## The length command -/

theorem not_isBlank_of_isDigit {d : Char} (hd : d.isDigit) : ¬ isBlank d := by
  intro hb
  rw [not_isDigit_of_isBlank hb] at hd
  simp at hd

theorem trim_decimal (k : Nat) : trim (decimal k) = decimal k :=
  trim_of_trimmed (trimmed_of_not_blank fun _ hd => not_isBlank_of_isDigit (isDigit_of_mem_decimal hd))

theorem isCommand_lengthCommand (n : UInt32) : IsCommand {} (lengthCommand n) (labelLength, decimal n.toNat) := by
  have hleader : ({} : Leaders).isLeader '^' := by decide
  have hm : Mnemonic labelLength := .two (by decide) (by decide) (by decide)
  have hname : labelLength ≠ fieldData := by decide
  have hlong : LongestMnemonic labelLength (labelLength ++ decimal n.toNat) := by
    refine longestMnemonic_of_append hm fun d _ h => ?_
    have := h.length_le
    simp [labelLength] at this
  have hopens : (Span.mk '^' labelLength (decimal n.toNat) []).Opens {} [] :=
    ⟨hleader, by simpa only [List.append_nil] using hlong, rfl,
      fun d hd => not_isLeader_of_isDigit (isDigit_of_mem_decimal hd), by simp⟩
  have hspans : spans {} (lengthCommand n) = [Span.mk '^' labelLength (decimal n.toNat) []] := by
    have h := spans_span hopens
    rw [spans_nil] at h
    simpa [Span.text, lengthCommand, labelLength] using h
  refine ⟨fun v => fresh_of_leader plain_usual hleader _, ?_, ?_⟩
  · rw [Sealed, hspans, List.forall_mem_singleton]
    exact fun h => absurd h hname
  · rw [contents, hspans, List.map_singleton, Span.content, Span.params, if_neg hname, trim_decimal]

theorem number?_decimal (n : UInt32) : number? (decimal n.toNat) 0 = some (n.toNat : Int) := by
  have hcomma : ',' ∉ decimal n.toNat := decimal_not_mem (by decide) _
  have hbound : (n.toNat : Int) ≤ maxInt64 := by
    have := n.toNat_lt
    rw [maxInt64]
    omega
  rw [number?, numbers, fields_of_not_mem hcomma, List.map_singleton, trim_decimal, int64?_decimal hbound]
  rfl

/-! ## Extents -/

theorem extent_withExplicit (y : Layout) (e : Option Int) (m : UInt32)
    (hn : n = addUInt32 (y.withExplicit e).extent.dots m) :
    (y.withExplicit (some (max (n.toNat : Int) (e.getD n.toNat)))).extent =
      ⟨(y.withExplicit e).extent.structural, some n, n⟩ := by
  have hsum := congrArg UInt32.toNat hn
  have hlt := n.toNat_lt
  rw [toNat_addUInt32] at hsum
  simp only [Layout.extent, Layout.withExplicit, UInt32.toNat_max, UInt32.size] at hsum
  -- What was asked for before is no more than the length.
  have hclamp : clampUInt32 (max (n.toNat : Int) (e.getD n.toNat)) = n := by
    rw [← UInt32.toNat_inj, toNat_clampUInt32, UInt32.size]
    cases e with
    | none =>
      rw [Option.getD_none]
      omega
    | some k =>
      simp only [Option.map_some, Option.getD_some, toNat_clampUInt32, UInt32.size] at hsum ⊢
      omega
  have hmax : max (clampUInt32 y.bottom) n = n := by
    have := (clampUInt32 y.bottom).toNat_lt
    rw [← UInt32.toNat_inj, UInt32.toNat_max]
    omega
  simp only [Layout.extent, Layout.withExplicit, Option.map_some, Option.getD_some, hclamp, hmax]

/-! ## The whole label -/

/-- The parameters of the commands that ask for a length. -/
def lengths (ts : List Token) : List (List Char) :=
  (ts.filter (·.name == labelLength)).map Token.params

theorem lengths_eq (ts : List Token) :
    lengths ts = ((ts.map Token.content).filter (·.1 == labelLength)).map Prod.snd := by
  rw [List.filter_map, List.map_map]
  rfl

theorem asked_perm (h : os.Perm us) : (asked os).Perm (asked us) := (h.filter _).filterMap _

theorem asked_append (os us : List (List Char × List Char)) : asked (os ++ us) = asked os ++ asked us := by
  rw [asked, List.filter_append, List.filterMap_append, asked, asked]

theorem asked_lengthCommand_cons (n : UInt32) (os : List (List Char × List Char)) :
    asked ((labelLength, decimal n.toNat) :: os) = (n.toNat : Int) :: asked os := by
  rw [asked, List.filter_cons_of_pos (by simp), List.filterMap_cons, number?_decimal, ← asked]

theorem asked_replicate (n : UInt32) (k : Nat) :
    asked (List.replicate k (labelLength, decimal n.toNat)) = List.replicate k (n.toNat : Int) := by
  induction k with
  | zero => rfl
  | succ k ih => rw [List.replicate_succ, asked_lengthCommand_cons, ih, List.replicate_succ]

theorem finish_eq_ok (h : c.finish setup x = .ok y) : c.length (frame x) ≤ setup.device.maxLength ∧
    y = c.fill (setup.stock.width.toDots setup.device.resolution) (frame x) := by
  simp only [Config.finish] at h
  split_ifs at h with hstrict hwidth hlength
  exact ⟨UInt32.not_lt.mp hlength, (Except.ok.inj h).symm⟩

theorem alike_fill (c : Config) (width : UInt32) (s : List Char) :
    Alike (contents {} (c.fill width s)) (contents {} (c.putLength s)) := by
  rw [Config.fill]
  split_ifs
  · exact alike_insertWidth width _
  · exact .refl _

/-- What may be replaced without making other commands. -/
structure IsPlaceholder (needle : List Char) : Prop where
  ne_nil : needle ≠ []
  no_command : '^' ∉ needle
  no_control : '~' ∉ needle
  head : ∀ d ∈ needle.head?, ¬ isAlphanumeric d

/-- Every placeholder stands outside field data and has a clear text behind it. -/
structure WellPlaced (needle s : List Char) : Prop where
  outside : ∀ o ∈ occurrences needle s, ∀ t ∈ tokenize {} s, t.name = fieldData →
    byteLength (o.1 ++ needle) ≤ t.start ∨ t.stop ≤ byteLength o.1
  clear : ∀ o ∈ occurrences needle s, Clear {} needle o.2

theorem isPlaceholder_default : IsPlaceholder Label.Archive.defaultPlaceholder where
  ne_nil := by decide
  no_command := by decide
  no_control := by decide
  head := by
    intro d hd
    obtain rfl : '<' = d := Option.mem_some_iff.mp hd
    decide

theorem IsPlaceholder.not_isLeader {needle : List Char} (h : IsPlaceholder needle) :
    ∀ d ∈ needle, ¬ ({} : Leaders).isLeader d := by
  intro d hd hleader
  rcases isLeader_usual_iff.mp hleader with rfl | rfl
  · exact h.no_command hd
  · exact h.no_control hd

theorem WellPlaced.placed {needle : List Char} (h : WellPlaced needle s) (hneedle : IsPlaceholder needle) :
    Placed {} needle s := by
  intro o ho
  refine ⟨?_, h.clear o ho⟩
  by_contra hopen
  obtain ⟨t, ht, hname, hstart, hstop⟩ :=
    exists_open_token plain_usual hneedle.ne_nil hneedle.not_isLeader hneedle.head hopen o.2 0
  rw [← List.append_assoc, ← eq_append_of_mem_occurrences hneedle.ne_nil ho] at ht
  have hpos : 0 < byteLength needle := by
    obtain ⟨d, t, rfl⟩ := List.exists_cons_of_ne_nil hneedle.ne_nil
    have := d.utf8Size_pos
    rw [byteLength_cons]
    omega
  rw [byteLength_append] at hstop
  rcases h.outside o ho t ht hname with hbefore | hbehind
  · rw [byteLength_append] at hbefore
    omega
  · omega

/-- Where the placeholders of a label are well placed, the finished label has one more length command for each
and all others as without placeholders. It asks for the length that was estimated without them and the margin,
and is that long. -/
theorem finish_length (c : Config) (setup : Media.Setup) (x y : List Char) (hneedle : IsPlaceholder c.placeholder)
    (hplaced : WellPlaced c.placeholder (frame x)) (hsome : occurrences c.placeholder (frame x) ≠ [])
    (hok : c.finish setup x = .ok y) :
    let bare := replaceAll c.placeholder [] (frame x)
    let extent := ofMarkup c.assumptions bare
    ∃ n : UInt32, n.toNat = min (2 ^ 32 - 1) (extent.dots.toNat + c.margin.toNat) ∧
      (lengths (tokenize {} y)).Perm (lengths (tokenize {} bare) ++
        List.replicate (occurrences c.placeholder (frame x)).length (decimal n.toNat)) ∧
      ofMarkup c.assumptions y = ⟨extent.structural, some n, n⟩ ∧ n ≤ setup.device.maxLength := by
  intro bare extent
  obtain ⟨hmax, rfl⟩ := finish_eq_ok hok
  obtain ⟨hperm, hothers⟩ := contents_replaceAll plain_usual hneedle.ne_nil hneedle.not_isLeader hneedle.head
    (isCommand_lengthCommand (c.length (frame x))) (hplaced.placed hneedle)
  have halike := alike_fill c (setup.stock.width.toDots setup.device.resolution) (frame x)
  refine ⟨c.length (frame x), ?_, ?_, ?_, hmax⟩
  · have h := toNat_addUInt32 extent.dots c.margin
    rw [min_comm] at h
    exact h
  · rw [lengths_eq, lengths_eq, map_content_tokenize, map_content_tokenize, halike.lengths]
    have h := (hperm.filter (·.1 == labelLength)).map Prod.snd
    rw [List.filter_append, List.map_append, List.filter_replicate_of_pos (by simp), List.map_replicate] at h
    exact h
  · -- The other commands are those of the bare text, and what they ask for is no more than the new length.
    have hcount : (occurrences c.placeholder (frame x)).length ≠ 0 := by simpa using hsome
    have hasked := greatest_perm (asked_perm hperm) none
    rw [asked_append, asked_replicate, greatest_append, greatest_replicate _ _ hcount] at hasked
    have hbare : extent = _ := ofMarkup_eq c.assumptions bare
    have hstart : (start c.assumptions).explicit = none := rfl
    rw [foldl_stepOn, hstart] at hbare
    rw [ofMarkup_eq, halike.walk, foldl_stepOn, hstart, others, Config.putLength, hothers _ (by simp),
      ← others, hasked, hbare]
    exact extent_withExplicit _ _ c.margin (by rw [← hbare]; rfl)

/-- A printer whose stock is measured in dots. -/
def press : Media.Setup :=
  ⟨⟨203, none, none⟩, ⟨.dots 448, .dots 203, .dots 24, true⟩, ⟨"press", .dpi203, 830, 7917⟩⟩

/-- A label with two placeholders. -/
def sign : List Char := "^XA<<LL_MARKER>> <<LL_MARKER>>\n^FO10,20^FDhi^FS^XZ".toList

def finishedSign : List Char := "^XA^PW448^LL200 ^LL200\n^FO10,20^FDhi^FS^XZ".toList

theorem occurrences_sign : occurrences Label.Archive.defaultPlaceholder (frame sign) =
    [("^XA".toList, " <<LL_MARKER>>\n^FO10,20^FDhi^FS^XZ".toList),
      ("^XA<<LL_MARKER>> ".toList, "\n^FO10,20^FDhi^FS^XZ".toList)] := by
  cbv

theorem wellPlaced_sign : WellPlaced Label.Archive.defaultPlaceholder (frame sign) where
  outside := by
    have htokens : (tokenize {} (frame sign)).filter (·.name == fieldData) =
        [⟨['F', 'D'], ['h', 'i'], 39, 47⟩] := by
      cbv
    intro o ho t ht hname
    have hmem : t ∈ (tokenize {} (frame sign)).filter (·.name == fieldData) :=
      List.mem_filter.mpr ⟨ht, by simp [hname]⟩
    rw [htokens, List.mem_singleton] at hmem
    rw [occurrences_sign] at ho
    subst hmem
    revert o
    decide
  clear := by
    have hline : Clear {} Label.Archive.defaultPlaceholder "\n^FO10,20^FDhi^FS^XZ".toList :=
      .blank '\n' _ (by decide) (.leader '^' _ (by decide))
    rw [occurrences_sign, List.forall_mem_cons, List.forall_mem_singleton]
    exact ⟨.blank ' ' _ (by decide) (.again _ hline), hline⟩

theorem finish_length_sign : WellPlaced Label.Archive.defaultPlaceholder (frame sign) ∧
    Config.finish { addWidth := true } press sign = .ok finishedSign ∧ ∃ n : UInt32, n.toNat = 200 ∧
    (lengths (tokenize {} finishedSign)).Perm (List.replicate 2 (decimal n.toNat)) ∧
    ofMarkup {} finishedSign = ⟨50, some n, n⟩ ∧ n ≤ 7917 := by
  have hbare : ofMarkup {} (replaceAll Label.Archive.defaultPlaceholder [] (frame sign)) = ⟨50, none, 50⟩ := by
    cbv
  have hlengths : lengths (tokenize {} (replaceAll Label.Archive.defaultPlaceholder [] (frame sign))) = [] := by
    cbv
  have hok : Config.finish { addWidth := true } press sign = .ok finishedSign := by
    cbv
  have hsome : occurrences Label.Archive.defaultPlaceholder (frame sign) ≠ [] := by
    rw [occurrences_sign]
    exact List.cons_ne_nil _ _
  obtain ⟨n, hn, hperm, hextent, hmax⟩ :=
    finish_length { addWidth := true } press sign finishedSign isPlaceholder_default wellPlaced_sign hsome hok
  rw [hlengths, occurrences_sign, List.nil_append] at hperm
  rw [hbare] at hn hextent
  exact ⟨wellPlaced_sign, hok, n, hn, hperm, hextent, hmax⟩

end LabelPress.Finish
