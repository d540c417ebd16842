/-!
The faults of a file system: what can stand in the way of reading or writing a file, with the number
and the words by which a system reports it.
-/

namespace SuiteDraft

/-- A fault of the file system. -/
inductive Fault where
  | missing
  | present
  | notDirectory
  | isDirectory
  | tooManyLinks
  deriving DecidableEq, Inhabited

def Fault.number : Fault → Nat
  | missing => 2
  | present => 17
  | notDirectory => 20
  | isDirectory => 21
  | tooManyLinks => 40

def Fault.words : Fault → String
  | missing => "No such file or directory"
  | present => "File exists"
  | notDirectory => "Not a directory"
  | isDirectory => "Is a directory"
  | tooManyLinks => "Too many levels of symbolic links"

end SuiteDraft
