import SuiteDraft.Batch
import SuiteDraft.CommandLine.Reading

/-!
What a command shows: the text on its output and the text beside it, where complaints and the
records of what happened stand; and how the command ends.
-/

namespace SuiteDraft.CommandLine

/-- What is shown. -/
structure Screen where
  output : String := ""
  beside : String := ""
  deriving DecidableEq

namespace Screen

def say (s : Screen) (line : String) : Screen := { s with output := s.output ++ line ++ "\n" }

def complain (s : Screen) (line : String) : Screen := { s with beside := s.beside ++ line ++ "\n" }

def note (s : Screen) (least : Severity) (log : List LogRecord) : Screen :=
  (recordsFrom least log).foldl (fun s r => s.complain r.line) s

end Screen

/-- How a command ends: with a number, or with a last sentence. -/
inductive Exit where
  | code (number : Nat)
  | sentence (text : String)
  deriving DecidableEq

/-- Why a command does not come to an end of its own. -/
inductive Abort where
  /-- A literal of the one file that was asked for. -/
  | literal (error : LiteralError)
  | scan (error : ScanError)
  deriving DecidableEq

def Form.reproach (f : Form) (m : Misuse) : Screen where
  beside := f.usage ++ f.program ++ ": error: " ++ m.message ++ "\n"

def Form.ending (f : Form) : Stop → Screen × Exit
  | .help => ({ output := f.explanation }, .code 0)
  | .misuse m => (f.reproach m, .code 2)

end SuiteDraft.CommandLine
