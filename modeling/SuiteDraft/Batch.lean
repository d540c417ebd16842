import SuiteDraft.Analysis.Source
import SuiteDraft.Discovery.Walk

/-!
The analysis of files on a disk: of one, and of all that a scan finds. In a batch, a file that fails
stands as an item like the others.
-/

namespace SuiteDraft

def Failure.text : Failure → String
  | rejected r => r.cause.message
  | literal e => e.message

def Report.ofFile (d : Disk) (path : String) : Report :=
  match d.read (Path.ofString path) with
  | .ok bytes => .ofBytes path bytes
  | .error fault => { outcome := .error (.rejected ⟨path, .unreadable fault⟩) }

namespace Batch

/-- A file of a batch: its component, or the words for its failure. -/
structure Item where
  path : String
  outcome : Except String Component

-- What the analysis of a file says, and the item that comes of it. A failure that is no rejection
-- is said to be unexpected.
def analyze (d : Disk) (path : String) : List LogRecord × Item :=
  let report := Report.ofFile d path
  match report.outcome with
  | .ok c => (report.log, ⟨path, .ok c⟩)
  | .error (.rejected r) => (report.log, ⟨path, .error r.cause.message⟩)
  | .error (.literal e) =>
    (report.log ++ [⟨.error, .batch, "Unexpected failure analyzing " ++ path⟩],
      ⟨path, .error e.message⟩)

def Item.complaint? (i : Item) : Option LogRecord :=
  match i.outcome with
  | .ok _ => none
  | .error text => some ⟨.warning, .batch, "Skipping " ++ i.path ++ ": " ++ text⟩

/-- The outcomes of files, by their paths. -/
abbrev Results := Keyed (Except String Component)

-- Puts the outcome of each file under its path, in the order in which the outcomes come in.
def Results.gather (d : Disk) (arrivals : List String) : Results :=
  arrivals.foldl (fun results path => results.put path (analyze d path).2.outcome) []

-- The items of all outcomes, in the order of their paths.
def Results.items (results : Results) : List Item :=
  (inOrder id results.names).filterMap fun path => (results.get? path).map (Item.mk path)

/-- An order in which files that were handed out to workers come back: each of them, and each once.
-/
structure Schedule where
  arrivals : List String → List String
  complete : ∀ files, (arrivals files).Perm files

def Schedule.inTurn : Schedule := ⟨id, fun files => .refl files⟩

/-- A batch: what is said along the way, and the items in the order of their paths. -/
structure Result where
  log : List LogRecord
  items : List Item

/-- Analyses all component files below a path, one after the other, or by workers that come back as
`schedule` has it. What workers say of single files is said elsewhere and lost here. -/
def runBy (schedule : Schedule) (d : Disk) (root : Path) (workers : Int) :
    Except ScanError Result := do
  let files := (← Discovery.components d root).map Path.toString
  let arrivals := if workers ≤ 1 then files else schedule.arrivals files
  let items := (Results.gather d arrivals).items
  let start : LogRecord := ⟨.info, .batch,
    "Analyzing " ++ toString files.length ++ " component files under " ++ root.toString⟩
  let own := if workers ≤ 1 then files.flatMap fun path => (analyze d path).1 else []
  return ⟨start :: own ++ items.filterMap Item.complaint?, items⟩

def run (d : Disk) (root : Path) (workers : Int) : Except ScanError Result :=
  runBy .inTurn d root workers

end Batch

end SuiteDraft
