import SuiteDraft.Files.Change
import SuiteDraft.Log
import SuiteDraft.Suite.Basic

/-!
Putting a test file in its place on a disk. One that is there already stays, unless it is to be
replaced.
-/

namespace SuiteDraft.Suite

def keptRecord (p : Path) : LogRecord :=
  ⟨.info, .suite, "Test file already exists, not overwriting: " ++ p.toString⟩

/-- Writes the test file for the component of a file; the new disk, or nothing when there is such a
file already and it is not to be replaced. -/
def place (d : Disk) (component : Path) (component? : Option Component) (replace : Bool) :
    Except Setback (Option Disk) := do
  let p := pathFor component
  if d.holds p && !replace then return none
  let d ← d.makeFolder p.parent
  return some (← d.write p (bytesOf (textFor component component?)))

end SuiteDraft.Suite
