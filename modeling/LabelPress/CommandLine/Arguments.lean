import LabelPress.Text.Search

/-!
# Command lines

A command line is a row of words. Those with dashes in front are switches. The others name a command
of a group, or are the operands of the command that was named.
-/

namespace LabelPress.CommandLine

open Text

/-! ## What a command takes -/

inductive Use where
  | flag
  | repeatedFlag
  | value
  | repeatedValue
  deriving DecidableEq, Repr

def Use.takesValue : Use → Bool
  | .value | .repeatedValue => true
  | .flag | .repeatedFlag => false

def Use.mayRepeat : Use → Bool
  | .repeatedFlag | .repeatedValue => true
  | .flag | .value => false

structure Switch where
  name : String
  use : Use
  letter : Option Char := none
  deriving DecidableEq, Repr

inductive Form where
  | command (switches : List Switch) (operands : Nat)
  | group (switches : List Switch) (commands : List (String × Form))

def Form.switches : Form → List Switch
  | .command ss _ | .group ss _ => ss

/-! ## What a command was given -/

inductive Misuse where
  | noCommand
  | unknownCommand (name : String)
  | unknownSwitch (name : String)
  | repeated (name : String)
  | noValue (name : String)
  | strayValue (name : String)
  | badValue (name value : String)
  | strayOperand (word : String)
  | missing (name : String)
  | conflict (name other : String)
  deriving DecidableEq, Repr

def Misuse.message : Misuse → String
  | noCommand => "no command is named"
  | unknownCommand n => "there is no command '" ++ n ++ "'"
  | unknownSwitch n => "there is no switch '" ++ n ++ "'"
  | repeated n => "'--" ++ n ++ "' stands more than once"
  | noValue n => "'--" ++ n ++ "' needs a value"
  | strayValue n => "'--" ++ n ++ "' takes no value"
  | badValue n v => "'" ++ v ++ "' is no value of '--" ++ n ++ "'"
  | strayOperand w => "there is no place for '" ++ w ++ "'"
  | missing n => "'" ++ n ++ "' is missing"
  | conflict n m => "'--" ++ n ++ "' excludes '--" ++ m ++ "'"

structure Given where
  operands : List String := []
  /-- Switches and their values, in order. That of a flag is empty. -/
  settings : List (String × String) := []
  deriving DecidableEq, Repr

namespace Given

def has (g : Given) (name : String) : Bool :=
  g.settings.any fun s => s.1 == name

def values (g : Given) (name : String) : List String :=
  (g.settings.filter fun s => s.1 == name).map (·.2)

def value? (g : Given) (name : String) : Option String :=
  (g.values name).head?

def addSwitch (g : Given) (s : Switch) (value : String) : Except Misuse Given :=
  if g.has s.name && !s.use.mayRepeat then .error (.repeated s.name)
  else .ok { g with settings := g.settings ++ [(s.name, value)] }

def addLetters (switches : List Switch) (g : Given) : List Char → Except Misuse Given
  | [] => .ok g
  | c :: cs =>
    match switches.find? fun s => s.letter == some c with
    | none => .error (.unknownSwitch (String.ofList ['-', c]))
    | some s => do
      if s.use.takesValue then .error (.noValue s.name)
      addLetters switches (← g.addSwitch s "") cs

def addOperand (g : Given) (room : Nat) (word : String) : Except Misuse Given :=
  if g.operands.length < room then .ok { g with operands := g.operands ++ [word] }
  else .error (.strayOperand word)

end Given

inductive Line where
  | command (given : Given)
  | group (given : Given) (name : String) (rest : Line)
  deriving Repr

/-! ## Reading words -/

/-- A word by the dashes it begins with. -/
inductive Word where
  | plain (text : String)
  | stop
  /-- A switch by its name, with the value after an equals sign. -/
  | named (name : String) (value : Option String)
  | letters (cs : List Char)
  deriving DecidableEq, Repr

/-- What a word is. A single dash is a plain word. -/
def Word.of (w : String) : Word :=
  match w.toList with
  | ['-'] => .plain w
  | ['-', '-'] => .stop
  | '-' :: '-' :: s =>
    match splitOnce? '=' s with
    | some (name, value) => .named (String.ofList name) (some (String.ofList value))
    | none => .named (String.ofList s) none
  | '-' :: cs => .letters cs
  | _ => .plain w

def readOperands (form : Form) (g : Given) : List String → Except Misuse Line
  | [] =>
    match form with
    | .command .. => .ok (.command g)
    | .group .. => .error .noCommand
  | w :: ws =>
    match form with
    | .command _ room => do readOperands form (← g.addOperand room w) ws
    | .group .. => .error (.strayOperand w)

/-- Reads the words of a command. A switch that waits for its value takes the next word. -/
def readWords (form : Form) (g : Given) (waiting : Option Switch) :
    List String → Except Misuse Line
  | [] =>
    match waiting, form with
    | some s, _ => .error (.noValue s.name)
    | none, .command .. => .ok (.command g)
    | none, .group .. => .error .noCommand
  | w :: ws =>
    match waiting, Word.of w with
    | some s, .plain v => do readWords form (← g.addSwitch s v) none ws
    | some s, _ => .error (.noValue s.name)
    | none, .stop => readOperands form g ws
    | none, .letters cs => do readWords form (← g.addLetters form.switches cs) none ws
    | none, .named name value =>
      match form.switches.find? (fun s => s.name == name), value with
      | none, _ => .error (.unknownSwitch name)
      | some s, some v =>
        if s.use.takesValue then do readWords form (← g.addSwitch s v) none ws
        else .error (.strayValue name)
      | some s, none =>
        if s.use.takesValue then readWords form g (some s) ws
        else do readWords form (← g.addSwitch s "") none ws
    | none, .plain w =>
      match form with
      | .command _ room => do readWords form (← g.addOperand room w) none ws
      | .group _ commands =>
        match commands.lookup w with
        | some inner => do return .group g w (← readWords inner {} none ws)
        | none => .error (.unknownCommand w)

def Form.read (form : Form) (words : List String) : Except Misuse Line :=
  readWords form {} none words

end LabelPress.CommandLine
