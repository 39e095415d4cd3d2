import LabelPress.Label.Template
import LabelPress.Proofs.Outcomes
import LabelPress.Proofs.Text.Search
import Mathlib.Tactic

/-!
# The pieces of a template

A template is read once, without any values, into literal text and tags (`pieces_eq_ok_iff`). Expanding it puts
a text in the place of each piece, or fails as the reading does (`expand_eq_pieces`).
-/

namespace LabelPress.Label

open Text

/-! ## Pieces -/

def TagKind.opening (kind : TagKind) : List Char := ['{', kind.sign]

inductive Piece where
  | literal (s : List Char)
  | tag (kind : TagKind) (inner : List Char)
  deriving DecidableEq, Repr

namespace Piece

def source : Piece → List Char
  | literal s => s
  | tag kind inner => kind.opening ++ inner ++ kind.closing

/-- What stands in the place of a piece when the template is expanded. -/
def filled (context : Context) (placeholder : List Char) : Piece → List Char
  | literal s => s
  | tag .variable inner => (context.get? (String.ofList (trim inner))).getD []
  | tag .block _ => placeholder

/-- No tag begins in a literal. A tag reaches to what first closes it, and a block is a length tag. -/
def Sound : Piece → Prop
  | literal s => s ≠ [] ∧ ∀ kind : TagKind, ¬ kind.opening <:+: s
  | tag kind inner => (∀ u v, inner ++ kind.closing = u ++ kind.closing ++ v → v = []) ∧
      (kind = .block → trim inner = lengthTag)

/-- A literal runs on to a tag, which takes the first brace that it can. -/
def Before : Piece → Piece → Prop
  | literal _, literal _ => False
  | literal s, tag _ _ => s.getLast? ≠ some '{'
  | tag _ _, _ => True

end Piece

/-- A template is made of these pieces. -/
structure MadeOf (ps : List Piece) (template : List Char) : Prop where
  source : ps.flatMap Piece.source = template
  sound : ∀ p ∈ ps, p.Sound
  before : ps.IsChain Piece.Before

/-! ## The reading -/

def Piece.consLiteral (c : Char) : List Piece → List Piece
  | .literal s :: ps => .literal (c :: s) :: ps
  | ps => .literal [c] :: ps

def piecesFrom (offset : Nat) : List Char → Except SourceError (List Piece)
  | [] => .ok []
  | [c] => .ok [.literal [c]]
  | c :: d :: s =>
    match if c = '{' then TagKind.ofSign? d else none with
    | none => (piecesFrom (offset + c.utf8Size) (d :: s)).map (Piece.consLiteral c)
    | some kind =>
      match _h : cut? kind.closing s with
      | none => .error (.unterminatedTag offset)
      | some (inner, rest) =>
        if kind = .block ∧ trim inner ≠ lengthTag then .error (.unknownTag (trim inner))
        else (piecesFrom (offset + byteLength (c :: d :: inner ++ kind.closing)) rest).map (.tag kind inner :: ·)
termination_by s => s.length
decreasing_by
  · simp
  · have := congrArg List.length (eq_append_of_cut? _h)
    simp at this ⊢
    omega

/-- The pieces of a template, or why it has none. -/
def pieces (template : List Char) : Except SourceError (List Piece) := piecesFrom 0 template

variable {c d : Char} {s t inner rest template : List Char} {ps : List Piece} {kind : TagKind} {offset : Nat}
variable {context : Context} {placeholder : List Char}

theorem ofSign?_eq_some_iff : TagKind.ofSign? c = some kind ↔ c = kind.sign := by
  unfold TagKind.ofSign? TagKind.sign
  cases kind <;> grind

theorem opens_iff : (if c = '{' then TagKind.ofSign? d else none) = some kind ↔ kind.opening = [c, d] := by
  unfold TagKind.opening
  split_ifs with hc
  · rw [ofSign?_eq_some_iff, hc]
    simp [eq_comm]
  · simp [Ne.symm hc]

theorem opens_none_iff :
    (if c = '{' then TagKind.ofSign? d else none) = none ↔ ∀ kind : TagKind, kind.opening ≠ [c, d] := by
  rw [Option.eq_none_iff_forall_ne_some]
  simp only [ne_eq, opens_iff]

/-! ## What is read are pieces of the text -/

theorem MadeOf.nil : MadeOf [] [] := ⟨rfl, by simp, .nil⟩

theorem not_opening_infix (c : Char) (kind : TagKind) : ¬ kind.opening <:+: [c] := by
  intro h
  have := h.length_le
  simp [TagKind.opening] at this

theorem madeOf_single (c : Char) : MadeOf [.literal [c]] [c] := by
  refine ⟨rfl, ?_, .singleton _⟩
  rw [List.forall_mem_singleton]
  exact ⟨by simp, not_opening_infix c⟩

theorem opening_infix_cons_iff :
    kind.opening <:+: c :: d :: s ↔ kind.opening = [c, d] ∨ kind.opening <:+: d :: s := by
  rw [List.infix_cons_iff]
  simp [TagKind.opening, List.cons_prefix_cons]

theorem MadeOf.consLiteral_literal (hopen : ∀ kind : TagKind, kind.opening ≠ [c, d])
    (h : MadeOf (.literal t :: ps) (d :: s)) : MadeOf (.literal (c :: t) :: ps) (c :: d :: s) := by
  obtain ⟨hsource, hsound, hbefore⟩ := h
  rw [List.forall_mem_cons] at hsound
  obtain ⟨⟨hne, hfree⟩, hrest⟩ := hsound
  obtain ⟨e, t, rfl⟩ := List.exists_cons_of_ne_nil hne
  simp only [List.flatMap_cons, Piece.source, List.cons_append, List.cons.injEq] at hsource
  obtain ⟨rfl, hsource⟩ := hsource
  refine ⟨by simp [Piece.source, hsource], ?_, ?_⟩
  · rw [List.forall_mem_cons]
    refine ⟨⟨by simp, fun kind hinfix => ?_⟩, hrest⟩
    rcases opening_infix_cons_iff.mp hinfix with h | h
    · exact hopen kind h
    · exact hfree kind h
  · cases ps with
    | nil => exact .singleton _
    | cons q ps =>
      rw [List.isChain_cons_cons] at hbefore ⊢
      cases q with
      | literal u => exact absurd hbefore.1 id
      | tag kind inner => exact ⟨by simpa [Piece.Before] using hbefore.1, hbefore.2⟩

theorem MadeOf.consLiteral_tag (hopen : ∀ kind : TagKind, kind.opening ≠ [c, d])
    (h : MadeOf (.tag kind inner :: ps) (d :: s)) : MadeOf (.literal [c] :: .tag kind inner :: ps) (c :: d :: s) := by
  obtain ⟨hsource, hsound, hbefore⟩ := h
  have hd : d = '{' := by
    simp only [List.flatMap_cons, Piece.source, TagKind.opening, List.cons_append, List.cons.injEq] at hsource
    exact hsource.1.symm
  refine ⟨by simpa [Piece.source] using hsource, ?_, ?_⟩
  · rw [List.forall_mem_cons]
    exact ⟨⟨by simp, not_opening_infix c⟩, hsound⟩
  · refine List.isChain_cons_cons.mpr ⟨?_, hbefore⟩
    intro hc
    apply hopen .variable
    simp at hc
    simp [TagKind.opening, TagKind.sign, hc, hd]

theorem MadeOf.consLiteral (hopen : ∀ kind : TagKind, kind.opening ≠ [c, d]) (h : MadeOf ps (d :: s)) :
    MadeOf (Piece.consLiteral c ps) (c :: d :: s) := by
  cases ps with
  | nil => exact absurd h.source (by simp)
  | cons p ps =>
    cases p with
    | literal t => exact .consLiteral_literal hopen h
    | tag kind inner => exact .consLiteral_tag hopen h

theorem MadeOf.consTag (hcut : cut? kind.closing s = some (inner, rest))
    (hname : kind = .block → trim inner = lengthTag) (h : MadeOf ps rest) :
    MadeOf (.tag kind inner :: ps) (kind.opening ++ s) := by
  obtain ⟨rfl, hfirst⟩ := cut?_eq_some_iff.mp hcut
  refine ⟨by simp [Piece.source, h.source], ?_, ?_⟩
  · rw [List.forall_mem_cons]
    refine ⟨⟨fun u v huv => ?_, hname⟩, h.sound⟩
    have hle := hfirst u (v ++ rest) (by rw [huv]; simp)
    have hlen := congrArg List.length huv
    simp only [List.length_append] at hlen
    exact List.eq_nil_of_length_eq_zero (by omega)
  · have := h.before
    cases ps with
    | nil => exact .singleton _
    | cons q ps => exact List.isChain_cons_cons.mpr ⟨trivial, this⟩

theorem madeOf_of_piecesFrom (h : piecesFrom offset s = .ok ps) : MadeOf ps s := by
  fun_induction piecesFrom offset s generalizing ps with
  | case1 =>
    obtain rfl := Except.ok.inj h
    exact .nil
  | case2 _ c =>
    obtain rfl := Except.ok.inj h
    exact madeOf_single c
  | case3 _ c d s hopen ih =>
    obtain ⟨qs, hqs, rfl⟩ := map_eq_ok_iff.mp h
    exact .consLiteral (opens_none_iff.mp hopen) (ih hqs)
  | case4 => cases h
  | case5 => cases h
  | case6 _ c d s kind hopen inner rest hcut hname ih =>
    obtain ⟨qs, hqs, rfl⟩ := map_eq_ok_iff.mp h
    have htext : c :: d :: s = kind.opening ++ s := by rw [opens_iff.mp hopen]; rfl
    rw [htext]
    exact .consTag hcut (by simpa using hname) (ih hqs)

/-! ## The pieces of the text are read -/

theorem piecesFrom_cons (hopen : ∀ kind : TagKind, ¬ kind.opening <+: c :: s) (offset : Nat) :
    piecesFrom offset (c :: s) = (piecesFrom (offset + c.utf8Size) s).map (Piece.consLiteral c) := by
  cases s with
  | nil => simp [piecesFrom, Except.map, Piece.consLiteral]
  | cons d s =>
    have hnone : (if c = '{' then TagKind.ofSign? d else none) = none := by
      rw [opens_none_iff]
      intro kind heq
      exact hopen kind ⟨s, by simp [heq]⟩
    rw [piecesFrom]
    split
    · rfl
    · next hsome => simp [hnone] at hsome

theorem piecesFrom_opening (kind : TagKind) (s : List Char) (offset : Nat) :
    piecesFrom offset (kind.opening ++ s) =
      match cut? kind.closing s with
      | none => .error (.unterminatedTag offset)
      | some (inner, rest) =>
        if kind = .block ∧ trim inner ≠ lengthTag then .error (.unknownTag (trim inner))
        else (piecesFrom (offset + byteLength (kind.opening ++ inner ++ kind.closing)) rest).map
          (.tag kind inner :: ·) := by
  have hopen : TagKind.ofSign? kind.sign = some kind := ofSign?_eq_some_iff.mpr rfl
  have htext : kind.opening ++ s = '{' :: kind.sign :: s := rfl
  rw [htext, piecesFrom]
  split
  · next hnone => simp [hopen] at hnone
  · next kind' hsome =>
    rw [if_pos rfl, hopen, Option.some.injEq] at hsome
    subst hsome
    split <;> next hcut => simp only [hcut, TagKind.opening, List.cons_append, List.nil_append]

theorem piecesFrom_literal (hs : s ≠ []) (hfree : ∀ kind : TagKind, ¬ kind.opening <:+: s)
    (hlast : rest = [] ∨ s.getLast? ≠ some '{') (hps : ∀ c, Piece.consLiteral c ps = .literal [c] :: ps)
    (h : ∀ offset, piecesFrom offset rest = .ok ps) (offset : Nat) :
    piecesFrom offset (s ++ rest) = .ok (.literal s :: ps) := by
  induction s generalizing offset with
  | nil => exact absurd rfl hs
  | cons c s ih =>
    cases s with
    | nil =>
      rw [List.singleton_append, piecesFrom_cons, h, ← hps]
      · rfl
      intro kind hpre
      rcases hlast with rfl | hlast
      · exact not_opening_infix c kind hpre.isInfix
      · have hc : '{' = c := (List.cons_prefix_cons.mp hpre).1
        simp [← hc] at hlast
    | cons d s =>
      have hrun := ih (by simp) (fun kind hin => hfree kind (hin.trans (List.infix_cons List.infix_rfl)))
        (by simpa using hlast)
      rw [List.cons_append, piecesFrom_cons, hrun]
      · rfl
      intro kind hpre
      apply hfree kind
      have hlen : kind.opening.length ≤ (c :: d :: s).length := by simp [TagKind.opening]
      exact (List.prefix_of_prefix_length_le hpre (List.prefix_append _ rest) hlen).isInfix

theorem Piece.Sound.cut? (h : (Piece.tag kind inner).Sound) (rest : List Char) :
    Text.cut? kind.closing (inner ++ kind.closing ++ rest) = some (inner, rest) := by
  have hcut : Text.cut? kind.closing (inner ++ kind.closing) = some (inner, []) := by
    rw [cut?_eq_some_iff]
    refine ⟨by simp, ?_⟩
    intro u v huv
    obtain rfl := h.1 u v huv
    have := congrArg List.length huv
    simp at this
    omega
  exact cut?_append_right hcut rest

theorem piecesFrom_tag (hsound : (Piece.tag kind inner).Sound) (h : ∀ offset, piecesFrom offset rest = .ok ps)
    (offset : Nat) :
    piecesFrom offset ((Piece.tag kind inner).source ++ rest) = .ok (.tag kind inner :: ps) := by
  have htext : (Piece.tag kind inner).source ++ rest = kind.opening ++ (inner ++ kind.closing ++ rest) := by
    simp [Piece.source]
  rw [htext, piecesFrom_opening, hsound.cut? rest]
  dsimp only
  rw [if_neg (by simpa using hsound.2), h]
  rfl

theorem MadeOf.piecesFrom (h : MadeOf ps s) (offset : Nat) : piecesFrom offset s = .ok ps := by
  obtain ⟨rfl, hsound, hbefore⟩ := h
  induction ps generalizing offset with
  | nil => simp [Label.piecesFrom]
  | cons p ps ih =>
    rw [List.forall_mem_cons] at hsound
    have hrest := fun offset => ih offset hsound.2 hbefore.tail
    rw [List.flatMap_cons]
    cases p with
    | tag kind inner => exact piecesFrom_tag hsound.1 hrest offset
    | literal s =>
      have hnext : ps = [] ∨ ∃ kind inner qs, ps = .tag kind inner :: qs ∧ s.getLast? ≠ some '{' := by
        cases ps with
        | nil => exact .inl rfl
        | cons q qs =>
          have hq := (List.isChain_cons_cons.mp hbefore).1
          cases q with
          | literal t => exact absurd hq id
          | tag kind inner => exact .inr ⟨kind, inner, qs, rfl, hq⟩
      rcases hnext with rfl | ⟨kind, inner, qs, rfl, hlast⟩
      · exact piecesFrom_literal hsound.1.1 hsound.1.2 (.inl rfl) (fun _ => rfl) hrest offset
      · exact piecesFrom_literal hsound.1.1 hsound.1.2 (.inr hlast) (fun _ => rfl) hrest offset

theorem pieces_eq_ok_iff : pieces template = .ok ps ↔ MadeOf ps template :=
  ⟨madeOf_of_piecesFrom, fun h => h.piecesFrom 0⟩

/-! ## Expanding -/

theorem flatMap_filled_consLiteral (c : Char) (ps : List Piece) :
    (Piece.consLiteral c ps).flatMap (Piece.filled context placeholder) =
      c :: ps.flatMap (Piece.filled context placeholder) := by
  unfold Piece.consLiteral
  split <;> simp [Piece.filled]

theorem expandFrom_cons_cons :
    expandFrom context placeholder offset (c :: d :: s) =
      match if c = '{' then TagKind.ofSign? d else none with
      | none => (expandFrom context placeholder (offset + c.utf8Size) (d :: s)).map (c :: ·)
      | some kind =>
        match cut? kind.closing s with
        | none => .error (.unterminatedTag offset)
        | some (inner, rest) => do
          let value ← kind.value context placeholder (trim inner)
          return value ++
            (← expandFrom context placeholder (offset + byteLength (c :: d :: inner ++ kind.closing)) rest) := by
  rw [expandFrom]
  cases (if c = '{' then TagKind.ofSign? d else none) with
  | none => rfl
  | some kind =>
    dsimp only
    split <;> next hcut => simp only [hcut]

theorem value_eq_ok (h : ¬ (kind = .block ∧ trim inner ≠ lengthTag)) :
    kind.value context placeholder (trim inner) = .ok ((Piece.tag kind inner).filled context placeholder) := by
  rcases kind
  · rfl
  · have hname : trim inner = lengthTag := by simpa using h
    rw [TagKind.value, if_pos hname]
    rfl

theorem expandFrom_eq_map (context : Context) (placeholder : List Char) (offset : Nat) (s : List Char) :
    expandFrom context placeholder offset s =
      (piecesFrom offset s).map (·.flatMap (Piece.filled context placeholder)) := by
  fun_induction piecesFrom offset s with
  | case1 => simp [expandFrom, Except.map]
  | case2 => simp [expandFrom, Except.map, Piece.filled]
  | case3 offset c d s hopen ih =>
    rw [dite_eq_ite] at hopen
    simp only [expandFrom_cons_cons, hopen, ih]
    cases piecesFrom (offset + c.utf8Size) (d :: s) with
    | error e => rfl
    | ok ps => simp [Except.map, flatMap_filled_consLiteral]
  | case4 offset c d s kind hopen hcut =>
    rw [dite_eq_ite] at hopen
    simp only [expandFrom_cons_cons, hopen, hcut]
    rfl
  | case5 offset c d s kind hopen inner rest hcut hname =>
    rw [dite_eq_ite] at hopen
    obtain ⟨rfl, hname⟩ := hname
    simp only [expandFrom_cons_cons, hopen, hcut, TagKind.value, if_neg hname]
    rfl
  | case6 offset c d s kind hopen inner rest hcut hname ih =>
    rw [dite_eq_ite] at hopen
    simp only [expandFrom_cons_cons, hopen, hcut, value_eq_ok hname, ih]
    cases piecesFrom (offset + byteLength (c :: d :: inner ++ kind.closing)) rest <;> rfl

/-- A template is read once, for all values, and expanding it fills in the pieces. -/
theorem expand_eq_pieces (template : List Char) :
    (∀ ps, pieces template = .ok ps ↔ MadeOf ps template) ∧
      ∀ context placeholder, expand context placeholder template =
        (pieces template).map (·.flatMap (Piece.filled context placeholder)) := by
  refine ⟨fun ps => pieces_eq_ok_iff, ?_⟩
  intro context placeholder
  exact expandFrom_eq_map context placeholder 0 template

/-- The third brace of the opening is in the tag, and the third one of the closing is behind it. -/
example : pieces "{{{a}}}b".toList = .ok [.tag .variable ['{', 'a'], .literal ['}', 'b']] := by cbv

end LabelPress.Label
