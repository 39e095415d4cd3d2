import LabelPress.Proofs.Markup.Parts
import LabelPress.Proofs.Text.Replaced

/-!
# The mnemonics of a text

Which commands a text has, whatever their parameters. So it may be read apart from any text that could not
go on with a mnemonic (`names_append`).
-/

namespace LabelPress.Markup

open Text

def names (l : Leaders) (s : List Char) : List (List Char) := (tokenize l s).map Token.name

variable {l : Leaders} {needle new m u v : List Char}

theorem names_eq (l : Leaders) (s : List Char) : names l s = (contents l s).map Prod.fst := by
  rw [names, ← map_content_tokenize, List.map_map]
  rfl

theorem names_eq_spans (l : Leaders) (s : List Char) : names l s = (spans l s).map Span.name := by
  rw [names_eq, contents, List.map_map]
  rfl

theorem names_of_not_leader (hu : ∀ c ∈ u, ¬ l.isLeader c) (s : List Char) : names l (u ++ s) = names l s := by
  rw [names_eq_spans, spans_of_not_leader hu, ← names_eq_spans]

theorem names_append (hl : l.Plain) (hu : Sealed l u) (hv : ∀ c ∈ v.head?, ¬ isAlphanumeric c ∧ c ≠ '@') :
    names l (u ++ v) = names l u ++ names l v := by
  simp only [names_eq_spans]
  induction u using text_induction (l := l) with
  | nil => simp
  | skip c s hskip ih =>
    have hskip' : l.isLeader c → mnemonic? (s ++ v) = none := fun hc =>
      mnemonic?_append_eq_none (hskip hc) fun d hd => (hv d hd).1
    rw [List.cons_append, spans_skip hskip', spans_skip hskip, ih ((sealed_skip_iff hskip).mp hu)]
  | span p rest hp ih =>
    obtain ⟨hseal, hrest⟩ := (sealed_span_iff hp).mp hu
    by_cases hend : rest = [] ∧ p.closing = []
    · obtain ⟨rfl, hclosing⟩ := hend
      have hname : p.name ≠ fieldData := fun h => hseal h hclosing
      have hends := hp.ends
      rw [Span.Ends, if_neg hname] at hends
      -- The last command keeps its mnemonic and takes what `v` has before its first leader.
      have hlong := hp.longest_append (v := v) fun _ c hc => not_mnemonic_concat (hv c hc).1 (hv c hc).2
      have hread : mnemonic? (p.name ++ (p.raw ++ v)) = some (p.name, p.raw ++ v) :=
        mnemonic?_eq_some_iff.mpr ⟨by simpa [hclosing] using hlong, rfl⟩
      obtain ⟨q, hq, hspans⟩ := exists_spans_cons hl hp.leader hread hname
      have hplain : ∀ c ∈ p.name ++ p.raw, ¬ l.isLeader c := by
        intro c hc
        rcases List.mem_append.mp hc with hc | hc
        · exact hl.not_leader hp.name.mnemonic c hc
        · exact hends.2.1 c hc
      have htext : p.text ++ [] ++ v = p.leader :: (p.name ++ (p.raw ++ v)) := by simp [Span.text, hclosing]
      rw [htext, hspans, spans_span hp, ← List.append_assoc p.name, spans_of_not_leader hplain]
      simp [hq]
    · have hp' : p.Opens l (rest ++ v) := hp.append hl.apart hseal fun h1 h2 => absurd ⟨h1, h2⟩ hend
      rw [List.append_assoc, spans_span hp', spans_span hp, List.map_cons, ih hrest, List.map_cons, List.cons_append]

/-! ## What does not end field data -/

/-- Field data goes on through this text, whatever stands around it. -/
structure Passes (l : Leaders) (m : List Char) : Prop where
  ne_nil : m ≠ []
  misses : Misses l.terminator m
  head : ∀ c ∈ m.head?, ¬ isAlphanumeric c

/-- A needle that holds no leader and is no part of a mnemonic. -/
structure Inert (l : Leaders) (needle : List Char) : Prop where
  ne_nil : needle ≠ []
  not_leader : ∀ c ∈ needle, ¬ l.isLeader c
  head : ∀ c ∈ needle.head?, ¬ isAlphanumeric c ∧ c ≠ '@'

theorem Inert.passes (h : Inert l needle) : Passes l needle where
  ne_nil := h.ne_nil
  misses := misses_of_not_mem fun hmem => h.not_leader _ hmem (by simp [Leaders.isLeader])
  head := fun c hc => (h.head c hc).1

theorem Passes.body_append (hm : Passes l m) (hu : ¬ l.terminator <:+: u) (s : List Char) :
    (body l fieldData (u ++ m ++ s)).rest = (body l fieldData s).rest := by
  rw [body_fieldData_append (misses_terminator hu hm.misses hm.head hm.ne_nil)]

theorem exists_names_append (hl : l.Plain) (hu : ¬ Sealed l u) :
    ∃ ns, ∀ m, Passes l m → ∀ s, names l (u ++ (m ++ s)) = ns ++ names l (body l fieldData s).rest := by
  obtain ⟨cs, before, p, rfl, hp, hcontents⟩ := exists_open_contents hl hu
  refine ⟨cs.map Prod.fst ++ [fieldData], fun m hm s => ?_⟩
  rw [names_eq, hcontents, hp.contents_append hm.misses hm.head hm.ne_nil s, names_eq]
  simp

/-! ## Replacing -/

theorem rest_replaceAll (hneedle : Inert l needle) (hnew : Passes l new) (s : List Char) :
    (body l fieldData (replaceAll needle new s)).rest = replaceAll needle new (body l fieldData s).rest := by
  induction s using cut_induction hneedle.ne_nil with
  | none s hcut =>
    have hrest : cut? needle (body l fieldData s).rest = none := by
      rw [cut?_eq_none_iff] at hcut ⊢
      refine fun h => hcut (h.trans ?_)
      conv_rhs => rw [← Markup.body_append l fieldData s]
      exact (List.suffix_append _ _).isInfix
    rw [replaceAll_of_cut?_eq_none new hcut, replaceAll_of_cut?_eq_none new hrest]
  | some s a b hcut ih =>
    rw [replaceAll_of_cut? new hneedle.ne_nil hcut]
    cases hclosed : cut? l.terminator a with
    | some o =>
      obtain ⟨x, y⟩ := o
      -- The field data ends before the needle.
      have hbody : ∀ t, (body l fieldData (a ++ t)).rest = y ++ t := by
        intro t
        rw [body, if_pos rfl, cut?_append_right hclosed]
      have hcut' : cut? needle (y ++ (needle ++ b)) = some (y, b) := by
        refine cut?_eq_some_iff.mpr ⟨by simp, fun u v huv => ?_⟩
        have hs : s = x ++ l.terminator ++ u ++ needle ++ v := by
          rw [eq_append_of_cut? hcut, eq_append_of_cut? hclosed]
          simp only [List.append_assoc] at huv ⊢
          rw [huv]
        have hle := length_le_of_cut? hcut hs
        rw [eq_append_of_cut? hclosed] at hle
        simpa using hle
      rw [eq_append_of_cut? hcut, List.append_assoc, hbody, List.append_assoc, hbody,
        replaceAll_of_cut? new hneedle.ne_nil hcut', List.append_assoc]
    | none =>
      rw [cut?_eq_none_iff] at hclosed
      rw [eq_append_of_cut? hcut, hneedle.passes.body_append hclosed, hnew.body_append hclosed, ih]

/-- A command in the place of each needle is one more command or goes into field data. -/
theorem names_replaceAll (hl : l.Plain) (hneedle : Inert l needle) (hnew : Passes l new)
    (hleader : ∀ c ∈ new.head?, l.isLeader c) {name : List Char}
    (hnames : ∀ s, names l (new ++ s) = name :: names l s) (s : List Char) :
    (names l (replaceAll needle new s)).filter (· != name) = (names l s).filter (· != name) := by
  induction hlen : s.length using Nat.strong_induction_on generalizing s with
  | _ n ih =>
    cases hcut : cut? needle s with
    | none => rw [replaceAll_of_cut?_eq_none new hcut]
    | some o =>
      obtain ⟨a, b⟩ := o
      have hs := eq_append_of_cut? hcut
      have hpos := List.length_pos_iff.mpr hneedle.ne_nil
      have hb : b.length < n := by
        rw [← hlen, hs]
        simp only [List.length_append]
        omega
      rw [replaceAll_of_cut? new hneedle.ne_nil hcut, hs, List.append_assoc, List.append_assoc]
      by_cases ha : Sealed l a
      · have hhead : ∀ c ∈ (needle ++ b).head?, ¬ isAlphanumeric c ∧ c ≠ '@' := by
          rw [List.head?_append_of_ne_nil _ hneedle.ne_nil]
          exact hneedle.head
        have hnewhead : ∀ c ∈ (new ++ replaceAll needle new b).head?, ¬ isAlphanumeric c ∧ c ≠ '@' := by
          rw [List.head?_append_of_ne_nil _ hnew.ne_nil]
          exact fun c hc => ⟨hnew.head c hc, fun h => hl.not_at (h ▸ hleader c hc)⟩
        rw [names_append hl ha hnewhead, names_append hl ha hhead, hnames, names_of_not_leader hneedle.not_leader,
          List.filter_append, List.filter_append, List.filter_cons_of_neg (by simp), ih b.length hb b rfl]
      · obtain ⟨ns, hns⟩ := exists_names_append hl ha
        have hrest := length_rest_le l fieldData b
        rw [hns new hnew, hns needle hneedle.passes, rest_replaceAll hneedle hnew, List.filter_append,
          List.filter_append, ih _ (by omega) _ rfl]

end LabelPress.Markup
