import SuiteDraft.Files.Lookup
import SuiteDraft.Text.Quoted

/-!
Making folders and writing files. What stands in the way is reported with the path that was asked
for, and with the disk as it is by then: folders that were made before stay.
-/

namespace SuiteDraft

/-- A fault and the path at which it arose. -/
structure FileError where
  fault : Fault
  path : Path
  deriving DecidableEq

def FileError.message (e : FileError) : String :=
  "[Errno " ++ toString e.fault.number ++ "] " ++ e.fault.words ++ ": " ++
    Text.quoted e.path.toString

/-- A change that failed: the error, and the disk as the change leaves it. -/
structure Setback where
  error : FileError
  disk : Disk

def bytesOf (text : String) : List UInt8 := text.toList.flatMap String.utf8EncodeChar

namespace Disk

def makeOne (d : Disk) (p : Path) : Except Fault Disk := do
  match ← d.locate false p with
  | .absent names => .ok (d.put names (.folder []))
  | .present _ _ => .error .present

def makeOrKeep (d : Disk) (p : Path) : Except Setback Disk :=
  match d.makeOne p with
  | .ok d => .ok d
  | .error fault => if d.holdsFolder p then .ok d else .error ⟨⟨fault, p⟩, d⟩

-- Makes a folder and, at most `n` levels up, the folders that it lies in.
def makeWithin : Nat → Disk → Path → Except Setback Disk
  | 0, d, p => d.makeOrKeep p
  | n + 1, d, p =>
    match d.makeOne p with
    | .error .missing => do (← makeWithin n d p.parent).makeOrKeep p
    | _ => d.makeOrKeep p

-- Makes a folder and the folders that it lies in, as far as they are not there.
def makeFolder (d : Disk) (p : Path) : Except Setback Disk := makeWithin p.parts.length d p

def write (d : Disk) (p : Path) (bytes : List UInt8) : Except Setback Disk :=
  match d.locate true p with
  | .ok (.present names (.file _)) | .ok (.absent names) => .ok (d.put names (.file bytes))
  | .ok (.present _ _) => .error ⟨⟨.isDirectory, p⟩, d⟩
  | .error fault => .error ⟨⟨fault, p⟩, d⟩

end Disk

end SuiteDraft
