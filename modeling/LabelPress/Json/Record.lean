import LabelPress.Json.Decoder

/-!
# Records

A record is written as an object with named fields or as an array of its fields in order. A name may
stand only once, and names that are not fields are passed over or refused.
-/

namespace LabelPress.Json

abbrev Lookup := String → Option Node

/-- Reads a record: its fields in order, each with its check, and how it is made of them. -/
structure Record (α : Type) where
  fields : List (String × Decoder Unit)
  build : Lookup → Except Fault α

namespace Record

instance : Functor Record where
  map f r := ⟨r.fields, fun look => (r.build look).map f⟩

instance : Seq Record where
  seq f x := ⟨f.fields ++ (x ()).fields, fun look => do
    let g ← f.build look
    return g (← (x ()).build look)⟩

def required (name : String) (d : Decoder α) : Record α where
  fields := [(name, fun v => (d v).map fun _ => ())]
  build look :=
    match look name with
    | some v => d v
    | none => .error .mismatched

def optional (name : String) (d : Decoder α) (missing : α) : Record α where
  fields := [(name, fun v => (d v).map fun _ => ())]
  build look :=
    match look name with
    | some v => d v
    | none => .ok missing

/-! ## Objects -/

/-- What to do about names that are no fields. -/
inductive Unknown where
  | pass
  | refuse
  deriving DecidableEq, Repr

/-- The fields among the members, in the order they are met. -/
def gather (fields : List (String × Decoder Unit)) (unknown : Unknown) (ending : Option Fault) :
    List (String × Node) → List (Scan String × Node) → Except Fault (List (String × Node))
  | met, [] => do
    orFault ending
    return met
  | met, (key, v) :: ms => do
    let name ← key.value
    match fields.lookup name, unknown with
    | some check, _ =>
      if (met.lookup name).isSome then .error .mismatched
      check v
      gather fields unknown ending ((name, v) :: met) ms
    | none, .pass =>
      v.pass
      gather fields unknown ending met ms
    | none, .refuse => .error .mismatched

/-! ## Arrays -/

def assign (ending : Option Fault) :
    List (String × Decoder Unit) → List Node → Except Fault (List (String × Node) × List Node)
  | [], vs => .ok ([], vs)
  | _ :: _, [] => do
    orFault ending
    return ([], [])
  | (name, check) :: fields, v :: vs => do
    check v
    let (met, left) ← assign ending fields vs
    return ((name, v) :: met, left)

/-! ## Both -/

/-- Reads a record. Items that are left over have the given fault. -/
def decoderWith (r : Record α) (unknown : Unknown) (leftOver : Fault) : Decoder α
  | .object ms ending => do
    let met ← gather r.fields unknown ending [] ms
    r.build fun name => met.lookup name
  | .array vs ending => do
    let (met, left) ← assign ending r.fields vs
    let a ← r.build fun name => met.lookup name
    if !left.isEmpty then .error leftOver
    orFault ending
    return a
  | v => .error v.misfit

def decoder (r : Record α) : Decoder α :=
  r.decoderWith .pass .malformed

def strictDecoder (r : Record α) : Decoder α :=
  r.decoderWith .refuse .malformed

end Record

end LabelPress.Json
