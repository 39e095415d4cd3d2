/-!
# Maps from names

A map keeps its names in rising order, by code points. So two maps with the same entries are equal,
and listing one needs no sorting.
-/

namespace LabelPress

/-- Entries in rising order of their names. -/
structure NameMap (α : Type) where
  toList : List (String × α)
  ordered : toList.Pairwise (fun a b => a.1 < b.1)
  deriving DecidableEq

namespace NameMap

variable {α : Type}

def empty : NameMap α := ⟨[], .nil⟩

instance : Inhabited (NameMap α) := ⟨empty⟩

def names (m : NameMap α) : List String :=
  m.toList.map (·.1)

def find? (name : String) (entries : List (String × α)) : Option α :=
  (entries.find? fun e => e.1 == name).map (·.2)

def get? (m : NameMap α) (name : String) : Option α :=
  find? name m.toList

def put (name : String) (a : α) : List (String × α) → List (String × α)
  | [] => [(name, a)]
  | e :: es =>
    if name < e.1 then (name, a) :: e :: es
    else if name = e.1 then (name, a) :: es
    else e :: put name a es

theorem fst_mem_put {name : String} {a : α} {es : List (String × α)} {x : String × α}
    (h : x ∈ put name a es) : x.1 = name ∨ x ∈ es := by
  induction es with
  | nil => simp_all [put]
  | cons e es ih =>
    unfold put at h
    grind

theorem ordered_put (name : String) (a : α) {es : List (String × α)}
    (h : es.Pairwise (fun a b => a.1 < b.1)) :
    (put name a es).Pairwise (fun a b => a.1 < b.1) := by
  induction es with
  | nil => simp [put]
  | cons e es ih =>
    rw [List.pairwise_cons] at h
    simp only [put]
    split
    · next hlt =>
      refine List.pairwise_cons.2 ⟨fun x hx => ?_, List.pairwise_cons.2 h⟩
      rcases List.mem_cons.1 hx with rfl | hx
      · exact hlt
      · exact String.lt_trans hlt (h.1 x hx)
    · split
      · next heq => exact List.pairwise_cons.2 ⟨fun x hx => heq ▸ h.1 x hx, h.2⟩
      · next hlt hne =>
        refine List.pairwise_cons.2 ⟨fun x hx => ?_, ih h.2⟩
        rcases fst_mem_put hx with hx | hx
        · rw [hx]
          refine Classical.byContradiction fun hn => hne ?_
          exact String.le_antisymm (String.not_lt.1 hn) (String.not_lt.1 hlt)
        · exact h.1 x hx

def insert (m : NameMap α) (name : String) (a : α) : NameMap α :=
  ⟨put name a m.toList, ordered_put name a m.ordered⟩

def erase (m : NameMap α) (name : String) : NameMap α :=
  ⟨m.toList.filter (·.1 != name), m.ordered.filter _⟩

/-- The map with these entries. Of two with the same name the later stays. -/
def ofList (entries : List (String × α)) : NameMap α :=
  entries.foldl (fun m e => m.insert e.1 e.2) empty

end NameMap

end LabelPress
