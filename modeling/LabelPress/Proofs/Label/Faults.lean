import LabelPress.Proofs.Label.Pieces

/-!
# The faults of a template

A template that does not expand has a first tag that is at fault, and everything in front of it expands by itself. An
error names that tag: by its offset when nothing closes it, and by its name when it is a block without meaning
(`expand_eq_error_iff`). Which values the variables have plays no part.
-/

namespace LabelPress.Label

open Text

variable {c d : Char} {s t inner rest before after : List Char} {ps : List Piece} {kind : TagKind} {offset : Nat}
variable {context : Context} {placeholder : List Char} {e : SourceError}

/-- What is wrong with a tag of a kind whose text begins here. -/
def TagKind.fault? (kind : TagKind) (offset : Nat) (after : List Char) : Option SourceError :=
  match cut? kind.closing after with
  | none => some (.unterminatedTag offset)
  | some (inner, _) => if kind = .block ∧ trim inner ≠ lengthTag then some (.unknownTag (trim inner)) else none

/-- Text with pieces of its own, whatever stands behind it. -/
structure Complete (s : List Char) : Prop where
  madeOf : ∃ ps, MadeOf ps s
  last : s.getLast? ≠ some '{'

/-- A tag of a kind begins behind text that expands by itself and keeps no brace of the tag. -/
structure OpensBehind (context : Context) (placeholder template before : List Char) (kind : TagKind)
    (after : List Char) : Prop where
  text : template = before ++ kind.opening ++ after
  expands : ∃ s, expand context placeholder before = .ok s
  last : before.getLast? ≠ some '{'

/-! ## Texts in front of a tag -/

theorem Complete.nil : Complete [] := ⟨⟨[], .nil⟩, by simp⟩

theorem Complete.cons (hopen : ∀ kind : TagKind, kind.opening ≠ [c, d]) (h : Complete (d :: s)) :
    Complete (c :: d :: s) := by
  obtain ⟨⟨ps, hps⟩, hlast⟩ := h
  exact ⟨⟨_, hps.consLiteral hopen⟩, by simpa using hlast⟩

theorem Complete.single (hc : c ≠ '{') : Complete [c] := ⟨⟨_, madeOf_single c⟩, by simpa using hc⟩

theorem getLast?_closing (kind : TagKind) (u : List Char) : (u ++ kind.closing).getLast? = some '}' := by
  cases kind <;> simp [TagKind.closing]

theorem Complete.tag (hcut : cut? kind.closing (inner ++ kind.closing ++ s) = some (inner, s))
    (hname : kind = .block → trim inner = lengthTag) (h : Complete s) :
    Complete (kind.opening ++ (inner ++ kind.closing ++ s)) := by
  obtain ⟨⟨ps, hps⟩, hlast⟩ := h
  refine ⟨⟨_, hps.consTag hcut hname⟩, ?_⟩
  cases s with
  | nil =>
    rw [List.append_nil, ← List.append_assoc, getLast?_closing]
    decide
  | cons c s =>
    rw [← List.append_assoc, List.getLast?_append_of_ne_nil _ (List.cons_ne_nil c s)]
    exact hlast

theorem exists_expand_iff :
    (∃ t, expand context placeholder s = .ok t) ↔ ∃ ps, MadeOf ps s := by
  rw [expand, expandFrom_eq_map]
  constructor
  · rintro ⟨t, ht⟩
    obtain ⟨ps, hps, -⟩ := map_eq_ok_iff.mp ht
    exact ⟨ps, madeOf_of_piecesFrom hps⟩
  · rintro ⟨ps, hps⟩
    rw [hps.piecesFrom]
    exact ⟨_, rfl⟩

theorem opensBehind_iff {template : List Char} :
    OpensBehind context placeholder template before kind after ↔
      template = before ++ kind.opening ++ after ∧ Complete before :=
  ⟨fun h => ⟨h.text, exists_expand_iff.mp h.expands, h.last⟩,
    fun ⟨htext, hcomplete⟩ => ⟨htext, exists_expand_iff.mpr hcomplete.madeOf, hcomplete.last⟩⟩

/-! ## The tag at fault -/

theorem piecesFrom_opening_eq_error (h : kind.fault? offset after = some e) :
    piecesFrom offset (kind.opening ++ after) = .error e := by
  rw [piecesFrom_opening]
  rw [TagKind.fault?] at h
  cases hcut : cut? kind.closing after with
  | none => simpa [hcut] using h
  | some o =>
    simp only [hcut] at h ⊢
    split_ifs at h ⊢
    simpa using h

theorem piecesFrom_append_eq_error (hread : piecesFrom offset s = .ok ps) (hlast : s.getLast? ≠ some '{')
    (h : piecesFrom (offset + byteLength s) rest = .error e) : piecesFrom offset (s ++ rest) = .error e := by
  fun_induction piecesFrom offset s generalizing ps with
  | case1 => simpa using h
  | case2 offset c =>
    have hopen : ∀ kind : TagKind, ¬ kind.opening <+: c :: rest := by
      intro kind hpre
      have hc : '{' = c := (List.cons_prefix_cons.mp hpre).1
      simp [← hc] at hlast
    rw [List.singleton_append, piecesFrom_cons hopen, map_eq_error_iff]
    simpa using h
  | case3 offset c d s hnone ih =>
    have hopen : ∀ kind : TagKind, ¬ kind.opening <+: c :: (d :: s ++ rest) := by
      intro kind hpre
      refine opens_none_iff.mp hnone kind ?_
      obtain ⟨t, ht⟩ := hpre
      simpa [TagKind.opening] using congrArg (List.take 2) ht
    obtain ⟨qs, hqs, -⟩ := map_eq_ok_iff.mp hread
    rw [List.cons_append, piecesFrom_cons hopen, map_eq_error_iff]
    refine ih hqs (by simpa using hlast) ?_
    rwa [byteLength_cons, ← Nat.add_assoc] at h
  | case4 => cases hread
  | case5 => cases hread
  | case6 offset c d s kind hsome inner after hcut hname ih =>
    have hopening : kind.opening = [c, d] := opens_iff.mp hsome
    obtain rfl := eq_append_of_cut? hcut
    obtain ⟨qs, hqs, -⟩ := map_eq_ok_iff.mp hread
    have htext : c :: d :: (inner ++ kind.closing ++ after) ++ rest =
        kind.opening ++ (inner ++ kind.closing ++ after ++ rest) := by
      rw [hopening]
      rfl
    have hlast' : after.getLast? ≠ some '{' := by
      intro heq
      have hne : after ≠ [] := by rintro rfl; simp at heq
      rw [← List.cons_append, ← List.cons_append, List.getLast?_append_of_ne_nil _ hne] at hlast
      exact hlast heq
    rw [htext, piecesFrom_opening, cut?_append_right hcut]
    dsimp only
    rw [if_neg hname, map_eq_error_iff, hopening]
    refine ih hqs hlast' ?_
    rwa [← List.cons_append, ← List.cons_append, byteLength_append, ← Nat.add_assoc] at h

theorem exists_fault (h : piecesFrom offset s = .error e) :
    ∃ (before : List Char) (kind : TagKind) (after : List Char), s = before ++ kind.opening ++ after ∧
      Complete before ∧ kind.fault? (offset + byteLength before) after = some e := by
  fun_induction piecesFrom offset s with
  | case1 => cases h
  | case2 => cases h
  | case3 offset c d s hnone ih =>
    obtain ⟨before, kind, after, hs, hbefore, hfault⟩ := ih (map_eq_error_iff.mp h)
    have hopen := opens_none_iff.mp hnone
    refine ⟨c :: before, kind, after, by rw [hs]; rfl, ?_, by rwa [byteLength_cons, ← Nat.add_assoc]⟩
    cases before with
    | nil =>
      -- A brace here would open a tag with the one behind it.
      refine .single ?_
      rintro rfl
      have hd : d = '{' := (List.cons.inj hs).1
      exact hopen .variable (by rw [hd]; rfl)
    | cons d' before =>
      obtain rfl : d = d' := (List.cons.inj hs).1
      exact hbefore.cons hopen
  | case4 offset c d s kind hsome hcut =>
    obtain rfl := Except.error.inj h
    refine ⟨[], kind, s, by rw [opens_iff.mp hsome]; rfl, .nil, ?_⟩
    rw [TagKind.fault?, hcut]
    rfl
  | case5 offset c d s kind hsome inner rest hcut hname =>
    obtain rfl := Except.error.inj h
    refine ⟨[], kind, s, by rw [opens_iff.mp hsome]; rfl, .nil, ?_⟩
    simp only [TagKind.fault?, hcut, if_pos hname]
  | case6 offset c d s kind hsome inner rest hcut hname ih =>
    obtain ⟨before, kind', after, rfl, hbefore, hfault⟩ := ih (map_eq_error_iff.mp h)
    obtain ⟨rfl, hfirst⟩ := cut?_eq_some_iff.mp hcut
    have hopening : kind.opening = [c, d] := opens_iff.mp hsome
    have hcut' : cut? kind.closing (inner ++ kind.closing ++ before) = some (inner, before) := by
      refine cut?_eq_some_iff.mpr ⟨rfl, fun u v huv => ?_⟩
      refine hfirst u (v ++ kind'.opening ++ after) ?_
      simpa using congrArg (· ++ (kind'.opening ++ after)) huv
    refine ⟨kind.opening ++ (inner ++ kind.closing ++ before), kind', after, ?_,
      .tag hcut' (by simpa using hname) hbefore, ?_⟩
    · simp [hopening]
    · rw [← hfault, hopening]
      simp [Nat.add_assoc]

theorem piecesFrom_eq_error_iff :
    piecesFrom offset s = .error e ↔ ∃ (before : List Char) (kind : TagKind) (after : List Char),
      s = before ++ kind.opening ++ after ∧ Complete before ∧
        kind.fault? (offset + byteLength before) after = some e := by
  refine ⟨exists_fault, ?_⟩
  rintro ⟨before, kind, after, rfl, ⟨⟨ps, hps⟩, hlast⟩, hfault⟩
  rw [List.append_assoc]
  exact piecesFrom_append_eq_error (hps.piecesFrom offset) hlast (piecesFrom_opening_eq_error hfault)

/-! ## The errors of an expansion -/

theorem fault?_eq_unterminatedTag_iff {o : Nat} :
    kind.fault? offset after = some (.unterminatedTag o) ↔ offset = o ∧ ¬ kind.closing <:+: after := by
  rw [TagKind.fault?, ← cut?_eq_none_iff]
  cases cut? kind.closing after with
  | none => simp
  | some o =>
    dsimp only
    split_ifs <;> simp

theorem fault?_eq_unknownTag_iff {tag : List Char} :
    kind.fault? offset after = some (.unknownTag tag) ↔ kind = .block ∧ ∃ inner rest,
      (after = inner ++ kind.closing ++ rest ∧
        ∀ u v, after = u ++ kind.closing ++ v → inner.length ≤ u.length) ∧ trim inner = tag ∧ tag ≠ lengthTag := by
  simp only [TagKind.fault?, ← cut?_eq_some_iff]
  cases hcut : cut? kind.closing after with
  | none => simp
  | some o =>
    dsimp only
    split_ifs with h <;> grind

theorem expand_eq_error_iff_fault {template : List Char} :
    expand context placeholder template = .error e ↔ ∃ before kind after,
      OpensBehind context placeholder template before kind after ∧ kind.fault? (byteLength before) after = some e := by
  simp only [opensBehind_iff, and_assoc]
  rw [expand, expandFrom_eq_map, map_eq_error_iff, piecesFrom_eq_error_iff]
  simp only [Nat.zero_add]

/-- A template fails at the first tag that nothing closes, with its offset in bytes, or at the first block that is
no length tag, with what its name is without the blanks around it. It fails in no other way. -/
theorem expand_eq_error_iff (context : Context) (placeholder template : List Char) :
    (∀ o, expand context placeholder template = .error (.unterminatedTag o) ↔ ∃ before kind after,
      OpensBehind context placeholder template before kind after ∧ byteLength before = o ∧
        ¬ kind.closing <:+: after) ∧
    (∀ tag, expand context placeholder template = .error (.unknownTag tag) ↔ ∃ before inner rest,
      OpensBehind context placeholder template before .block (inner ++ TagKind.block.closing ++ rest) ∧
        (∀ u v, inner ++ TagKind.block.closing ++ rest = u ++ TagKind.block.closing ++ v → inner.length ≤ u.length) ∧
        trim inner = tag ∧ tag ≠ lengthTag) ∧
    ∀ e, expand context placeholder template = .error e →
      (∃ o, e = .unterminatedTag o) ∨ ∃ tag, e = .unknownTag tag := by
  refine ⟨fun o => ?_, fun tag => ?_, fun e he => ?_⟩
  · simp only [expand_eq_error_iff_fault, fault?_eq_unterminatedTag_iff]
  · simp only [expand_eq_error_iff_fault, fault?_eq_unknownTag_iff]
    constructor
    · rintro ⟨before, kind, after, hopens, rfl, inner, rest, ⟨rfl, hfirst⟩, htag⟩
      exact ⟨before, inner, rest, hopens, hfirst, htag⟩
    · rintro ⟨before, inner, rest, hopens, hfirst, htag⟩
      exact ⟨before, .block, _, hopens, rfl, inner, rest, ⟨rfl, hfirst⟩, htag⟩
  · obtain ⟨before, kind, after, -, hfault⟩ := expand_eq_error_iff_fault.mp he
    rw [TagKind.fault?] at hfault
    split at hfault
    · exact .inl ⟨_, (Option.some.inj hfault).symm⟩
    · split_ifs at hfault
      exact .inr ⟨_, (Option.some.inj hfault).symm⟩

/-- Bytes are counted, not characters, and a tag that is closed counts as it is written. -/
example : expand .empty [] "ä\x7b\x7bü\x7d\x7d \x7b\x7b\x7b%".toList = .error (.unterminatedTag 9) := by cbv

end LabelPress.Label
