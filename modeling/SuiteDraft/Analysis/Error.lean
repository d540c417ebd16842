import SuiteDraft.Files.Fault
import SuiteDraft.Tree.Basic

/-!
Why an analysis can fail. A file that cannot be read or does not follow the grammar is rejected,
with its path; a numbered escape beyond every machine word is a failure of another kind, which no
rejection covers.
-/

namespace SuiteDraft

/-- A numbered escape whose number does not fit in a signed word of thirty-two bits. -/
inductive LiteralError where
  | escapeTooLarge
  deriving DecidableEq

def LiteralError.message : LiteralError → String
  | escapeTooLarge => "Python int too large to convert to C int"

/-- Why a file is rejected. -/
inductive Cause where
  | unreadable (fault : Fault)
  | malformed (position : Position)
  deriving DecidableEq

-- The words for a cause; lines and columns are counted from one.
def Cause.message : Cause → String
  | unreadable fault => fault.words
  | malformed p => s!"syntax error at line {p.row + 1}, column {p.column + 1}"

/-- A rejected file and the cause. -/
structure Rejection where
  path : String
  cause : Cause
  deriving DecidableEq

def Rejection.message (r : Rejection) : String :=
  "Failed to analyze " ++ r.path ++ ": " ++ r.cause.message

/-- How an analysis fails. -/
inductive Failure where
  | rejected (rejection : Rejection)
  | literal (error : LiteralError)
  deriving DecidableEq

end SuiteDraft
