/-!
# Finding, cutting and replacing

Searches go from left to right and never overlap. The main fact is `eq_append_of_cut?`: a cut text
is what stood before the needle, the needle, and what stood after it.
-/

namespace LabelPress.Text

/-! ## Needles -/

/-- What follows `needle`, if the text begins with it. -/
def rest? : List Char → List Char → Option (List Char)
  | [], s => some s
  | _ :: _, [] => none
  | p :: needle, c :: s => if p = c then rest? needle s else none

theorem eq_append_of_rest? {needle s t : List Char} (h : rest? needle s = some t) :
    s = needle ++ t := by
  induction needle generalizing s with
  | nil => simpa [rest?] using h
  | cons p needle ih =>
    cases s with
    | nil => simp [rest?] at h
    | cons c s =>
      simp only [rest?] at h
      split at h
      · next hpc => simp [hpc, ih h]
      · simp at h

/-- The text before the first `needle` and the text after it. -/
def cut? (needle : List Char) : List Char → Option (List Char × List Char)
  | [] => (rest? needle []).map ([], ·)
  | c :: s =>
    match rest? needle (c :: s) with
    | some t => some ([], t)
    | none => (cut? needle s).map fun (a, b) => (c :: a, b)

theorem eq_append_of_cut? {needle s a b : List Char} (h : cut? needle s = some (a, b)) :
    s = a ++ needle ++ b := by
  induction s generalizing a with
  | nil =>
    simp only [cut?, Option.map_eq_some_iff, Prod.mk.injEq] at h
    obtain ⟨t, ht, rfl, rfl⟩ := h
    simpa using eq_append_of_rest? ht
  | cons c s ih =>
    simp only [cut?] at h
    split at h
    · next t ht =>
      simp only [Option.some.injEq, Prod.mk.injEq] at h
      obtain ⟨rfl, rfl⟩ := h
      simpa using eq_append_of_rest? ht
    · simp only [Option.map_eq_some_iff, Prod.mk.injEq] at h
      obtain ⟨⟨a', b'⟩, hcut, rfl, rfl⟩ := h
      simp [ih hcut]

def occurs (needle s : List Char) : Bool :=
  (cut? needle s).isSome

/-- Every occurrence of `needle`, leftmost first, gives way to `new`. An empty needle occurs
nowhere. -/
def replaceAll (needle new s : List Char) : List Char :=
  if _hn : needle = [] then s
  else
    match _h : cut? needle s with
    | none => s
    | some (a, b) => a ++ new ++ replaceAll needle new b
termination_by s.length
decreasing_by
  have := congrArg List.length (eq_append_of_cut? _h)
  have := List.length_pos_iff.2 _hn
  simp at *
  omega

/-! ## Fields -/

/-- The fields between the separators. A text without a separator is one field. -/
def fields (separator : Char) : List Char → List (List Char)
  | [] => [[]]
  | c :: s =>
    if c = separator then [] :: fields separator s
    else
      match fields separator s with
      | [] => [[c]]
      | f :: fs => (c :: f) :: fs

def splitOnce? (separator : Char) : List Char → Option (List Char × List Char) :=
  cut? [separator]

/-- The text up to the last separator and the text after it. -/
def splitLast? (separator : Char) (s : List Char) : Option (List Char × List Char) :=
  (splitOnce? separator s.reverse).map fun (b, a) => (a.reverse, b.reverse)

end LabelPress.Text
