/-!
# Commands of a label

A label is a run of commands. Each begins with a leader and a short mnemonic, and what follows up
to the next leader are its parameters. Field data is the exception: it runs to its terminator, so
it may hold leaders.
-/

namespace LabelPress.Markup

structure Leaders where
  /-- Begins a format command, and the terminator of field data. -/
  command : Char := '^'
  /-- Begins a control command. -/
  control : Char := '~'
  deriving DecidableEq, Repr

def Leaders.isLeader (l : Leaders) (c : Char) : Bool :=
  c == l.command || c == l.control

def fieldData : List Char := ['F', 'D']

def fieldSeparator : List Char := ['F', 'S']

/-- What ends field data: the separator command. -/
def Leaders.terminator (l : Leaders) : List Char :=
  l.command :: fieldSeparator

/-- One command. Offsets count bytes from the beginning of the text. -/
structure Token where
  name : List Char
  params : List Char
  /-- Where the leader stands. -/
  start : Nat
  /-- Where the command has ended. -/
  stop : Nat
  deriving DecidableEq, Repr

def Token.isFieldData (t : Token) : Bool :=
  t.name == fieldData

end LabelPress.Markup
