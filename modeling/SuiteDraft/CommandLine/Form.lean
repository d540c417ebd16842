/-!
The form of a command line: the switches that a program knows and the word that it must be given,
and the two texts that explain them, a short one and a long one.
-/

namespace SuiteDraft.CommandLine

/-- What follows a switch: nothing, a text or an integer, the latter two under a name. -/
inductive Operand where
  | nothing
  | text (name : String)
  | integer (name : String)
  deriving DecidableEq

def Operand.name? : Operand → Option String
  | nothing => none
  | text name | integer name => some name

/-- A switch: its letter, if it has one, its word, and what it is for. -/
structure Switch where
  letter : Option Char := none
  word : String
  operand : Operand := .nothing
  purpose : String
  deriving DecidableEq

-- The ways to write a switch: a dash and its letter, two dashes and its word.
def Switch.spellings (s : Switch) : List String :=
  (s.letter.map fun c => String.ofList ['-', c]).toList ++ ["--" ++ s.word]

def Switch.withOperand (s : Switch) (text : String) : String :=
  match s.operand.name? with
  | none => text
  | some name => text ++ " " ++ name

-- The switch in the short explanation: its first spelling, in brackets.
def Switch.brief (s : Switch) : String :=
  "[" ++ s.withOperand ((s.spellings).headD "") ++ "]"

def Switch.full (s : Switch) : String := ", ".intercalate (s.spellings.map s.withOperand)

/-- The form of a command line: the program's name, what the program does, its switches, and the
word that it must be given, with what that is for. -/
structure Form where
  program : String
  summary : String
  switches : List Switch
  subject? : Option (String × String) := none

namespace Form

def help : Switch := ⟨some 'h', "help", .nothing, "show this help message and exit"⟩

def all (f : Form) : List Switch := help :: f.switches

def lineWidth : Nat := 78

def blanks (n : Nat) : String := String.ofList (List.replicate n ' ')

-- The short explanation: on one line, or with the word on a second when one is too short.
def usage (f : Form) : String :=
  let lead := "usage: " ++ f.program
  let switches := " ".intercalate (lead :: f.all.map Switch.brief)
  match f.subject? with
  | none => switches ++ "\n"
  | some (name, _) =>
    let margin := if switches.length + name.length < lineWidth then " "
      else "\n" ++ blanks (lead.length + 1)
    switches ++ margin ++ name ++ "\n"

def columnWidth (f : Form) : Nat :=
  ((f.all.map fun s => s.full.length).foldl max 0) + 2

def entry (f : Form) (name purpose : String) : String :=
  "  " ++ name ++ blanks (f.columnWidth - name.length) ++ purpose ++ "\n"

def explanation (f : Form) : String :=
  let words := match f.subject? with
    | none => ""
    | some (name, purpose) => "positional arguments:\n" ++ f.entry name purpose ++ "\n"
  f.usage ++ "\n" ++ f.summary ++ "\n\n" ++ words ++ "options:\n" ++
    String.join (f.all.map fun s => f.entry s.full s.purpose)

end Form

end SuiteDraft.CommandLine
