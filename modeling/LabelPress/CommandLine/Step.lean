import LabelPress.CommandLine.Report
import LabelPress.Files.Store

/-!
# Steps of commands

A command goes step by step: it reads, changes files, prints, and stops early where something fails
or where it exits. What it has left and printed by then stays.
-/

namespace LabelPress.CommandLine

open Files

/-- Why a command stops before its end. -/
inductive Stop where
  | failed (f : Failure)
  | exited (code : Nat)

/-- The files as a command has left them so far, and what it has printed. -/
structure Progress where
  files : Store
  prints : List Print := []

abbrev Step (α : Type) := ExceptT Stop (StateM Progress) α

namespace Step

/-- A step that only reads. -/
def attempt {α : Type} (r : Except Failure α) : Step α :=
  match r with
  | .ok a => pure a
  | .error f => throw (.failed f)

/-- A step that changes files, also if it fails. -/
def change {ε : Type} (r : Store × Except ε Unit) (failure : ε → Failure) : Step Unit := do
  modify fun p => { p with files := r.1 }
  attempt (r.2.mapError failure)

def emit (ps : List Print) : Step Unit :=
  modify fun p => { p with prints := p.prints ++ ps }

def exit (code : Nat) : Step Unit :=
  throw (.exited code)

/-- How a step ends, and how far it has got by then. -/
def result {α : Type} (x : Step α) (p : Progress) : Except Stop α × Progress :=
  StateT.run (ExceptT.run x) p

end Step

end LabelPress.CommandLine
