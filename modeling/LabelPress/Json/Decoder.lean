import LabelPress.Json.Node

/-!
# Reading values of a known shape

A decoder reads one value. It reports the first fault that it meets on the way through the text, so
a wrong shape wins over anything that stands behind it.
-/

namespace LabelPress.Json

abbrev Decoder (α : Type) := Node → Except Fault α

/-! ## Faults on the way -/

/-- The fault of a value of the wrong shape. A word, number or string is read first. -/
def Node.misfit : Node → Fault
  | .absent f => f
  | .word (.error f) => f
  | .word (.ok _) => .mismatched
  | .numeral ⟨.error f, _⟩ => f
  | .numeral ⟨.ok n, _⟩ => if n.float?.isSome then .mismatched else .malformed
  | .string ⟨.error f, _⟩ => f
  | .string ⟨.ok _, _⟩ => .mismatched
  | .array .. => .mismatched
  | .object .. => .mismatched

def orFault : Option Fault → Except Fault Unit
  | none => .ok ()
  | some f => .error f

mutual

/-- Passes over a value of any shape. Only its grammar counts. -/
def Node.pass : Node → Except Fault Unit
  | .absent f => .error f
  | .word w => w.map fun _ => ()
  | .numeral n => orFault n.passing
  | .string s => orFault s.passing
  | .array items ending => passItems ending items
  | .object members ending => passMembers ending members

def passItems (ending : Option Fault) : List Node → Except Fault Unit
  | [] => orFault ending
  | v :: vs => do v.pass; passItems ending vs

def passMembers (ending : Option Fault) : List (Scan String × Node) → Except Fault Unit
  | [] => orFault ending
  | (name, v) :: ms => do orFault name.passing; v.pass; passMembers ending ms

end

/-- The most values inside each other that are kept for later. -/
def maxDepth : Nat := 127

mutual

/-- Reads a value of any shape with care, to look at it again later. -/
def Node.keep (depth : Nat) : Node → Except Fault Unit
  | .absent f => .error f
  | .word w => w.map fun _ => ()
  | .numeral ⟨n, _⟩ => do if (← n).float?.isNone then .error .malformed
  | .string ⟨s, _⟩ => s.map fun _ => ()
  | .array items ending =>
    if maxDepth ≤ depth then .error .malformed else keepItems (depth + 1) ending items
  | .object members ending =>
    if maxDepth ≤ depth then .error .malformed else keepMembers (depth + 1) ending members

def keepItems (depth : Nat) (ending : Option Fault) : List Node → Except Fault Unit
  | [] => orFault ending
  | v :: vs => do v.keep depth; keepItems depth ending vs

def keepMembers (depth : Nat) (ending : Option Fault) :
    List (Scan String × Node) → Except Fault Unit
  | [] => orFault ending
  | (name, v) :: ms => do let _ ← name.value; v.keep depth; keepMembers depth ending ms

end

/-! ## Plain values -/

def natUpTo (limit : Nat) : Decoder Nat
  | .numeral ⟨.ok n, m⟩ =>
    match n.integer? with
    | some i => if 0 ≤ i ∧ i ≤ limit then .ok i.toNat else .error .mismatched
    | none => .error (Node.numeral ⟨.ok n, m⟩).misfit
  | v => .error v.misfit

def uint32 : Decoder UInt32 := fun v =>
  (natUpTo (UInt32.size - 1) v).map UInt32.ofNat

def uint64 : Decoder UInt64 := fun v =>
  (natUpTo (UInt64.size - 1) v).map UInt64.ofNat

def uint8 : Decoder UInt8 := fun v =>
  (natUpTo (UInt8.size - 1) v).map UInt8.ofNat

def double : Decoder Float
  | .numeral ⟨.ok n, _⟩ =>
    match n.float? with
    | some x => .ok x
    | none => .error .malformed
  | v => .error v.misfit

def bool : Decoder Bool
  | .word (.ok (.bool b)) => .ok b
  | v => .error v.misfit

def string : Decoder String
  | .string ⟨s, _⟩ => s
  | v => .error v.misfit

def text : Decoder (List Char) := fun v =>
  (string v).map String.toList

def nullable (d : Decoder α) : Decoder (Option α)
  | .word (.ok .null) => .ok none
  | v => (d v).map some

def refine (d : Decoder α) (f : α → Option β) : Decoder β := fun v => do
  match f (← d v) with
  | some b => .ok b
  | none => .error .mismatched

def items (d : Decoder α) : Decoder (List α)
  | .array vs ending => do
    let as ← vs.mapM d
    orFault ending
    return as
  | v => .error v.misfit

/-- The members of an object of any names, in their order. -/
def members (d : Decoder α) : Decoder (List (String × α))
  | .object ms ending => do
    let as ← ms.mapM fun (name, v) => do return (← name.value, ← d v)
    orFault ending
    return as
  | v => .error v.misfit

/-! ## Choices -/

/-- A choice of one of several shapes: an object with the name of the shape and its value. `named`
reads a name that stands alone. -/
def choice (named : String → Option α) (shape : String → Option (Decoder α)) : Decoder α
  | .string ⟨s, _⟩ => do
    match named (← s) with
    | some a => .ok a
    | none => .error .mismatched
  | .object [] ending => .error (ending.getD .malformed)
  | .object ((name, v) :: more) ending => do
    match shape (← name.value) with
    | none => .error .mismatched
    | some d =>
      let a ← d v
      if !more.isEmpty then .error .malformed
      orFault ending
      return a
  | .absent f => .error f
  | _ => .error .malformed

def unit : Decoder Unit
  | .word (.ok .null) => .ok ()
  | v => .error v.misfit

/-! ## Whole texts -/

def decode (d : Decoder α) (s : List Char) : Except Fault α := do
  let (v, rest) := scan s
  let a ← d v
  if !(skip rest).isEmpty then .error .malformed
  return a

end LabelPress.Json
