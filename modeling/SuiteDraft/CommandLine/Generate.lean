import SuiteDraft.CommandLine.Screen
import SuiteDraft.Component.Dump
import SuiteDraft.Json.Writer
import SuiteDraft.Suite.Placement

/-!
The command that writes test files: for the component of one file, or for all components below a
folder. A file that fails in a folder does not keep the others from their tests.
-/

namespace SuiteDraft.CommandLine.Generate

def form : Form where
  program := "testgen"
  summary := "Generate a Vitest + Testing Library suite from a React component's source."
  subject? := some ("path", "Component file, or a directory to scan for components.")
  switches := [
    { word := "force", purpose := "Overwrite existing test files." },
    { word := "json", purpose := "Print the analysis result as JSON." },
    { word := "stdout", purpose := "Print generated tests instead of writing them." },
    { word := "workers", operand := .integer "WORKERS"
      purpose := "Worker processes for directory scans (default: 4)." },
    { letter := some 'v', word := "verbose", purpose := "Enable debug logging." }]

/-- What was asked for. -/
structure Request where
  path : String
  replace : Bool := false
  showsFacts : Bool := false
  showsTests : Bool := false
  workers : Int := 4
  verbose : Bool := false
  deriving DecidableEq

def Request.ofLine (l : Line) : Request where
  path := l.subject?.getD ""
  replace := l.has "force"
  showsFacts := l.has "json"
  showsTests := l.has "stdout"
  workers := l.integerOr "workers" 4
  verbose := l.has "verbose"

def Request.least (r : Request) : Severity := if r.verbose then .debug else .warning

/-- The state of a run: the disk and what was shown. -/
structure State where
  disk : Disk
  screen : Screen := {}

namespace State

def say (s : State) (line : String) : State := { s with screen := s.screen.say line }

def complain (s : State) (line : String) : State := { s with screen := s.screen.complain line }

def note (s : State) (r : Request) (log : List LogRecord) : State :=
  { s with screen := s.screen.note r.least log }

def showFacts (s : State) (r : Request) (c : Component) : State :=
  if r.showsFacts then s.say c.toJson.pretty else s

-- Shows the test file of a component, or puts it in its place and says so.
def deliver (s : State) (r : Request) (p : Path) (c : Component) : Except Setback State := do
  if r.showsTests then return s.say (Suite.textFor p (some c))
  else
    match ← Suite.place s.disk p (some c) r.replace with
    | some disk =>
      return { s with disk }.say ("✅ Test file created: " ++ (Suite.pathFor p).toString)
    | none =>
      return (s.note r [Suite.keptRecord (Suite.pathFor p)]).say
        ("⚠️  Test file already exists. Use --force to overwrite: " ++ (Suite.pathFor p).toString)

end State

def item (r : Request) (s : State) (i : Batch.Item) : State × Bool :=
  match i.outcome with
  | .error text => (s.complain ("❌ " ++ i.path ++ ": " ++ text), false)
  | .ok c =>
    let s := s.showFacts r c
    match s.deliver r (Path.ofString i.path) c with
    | .ok s => (s, true)
    | .error e =>
      ({ s with disk := e.disk }.complain
        ("❌ " ++ i.path ++ ": could not write test file: " ++ e.error.message), false)

-- Deals with the items of a batch in order; also how many of them went well.
def items (r : Request) (s : State) : List Batch.Item → State × Nat
  | [] => (s, 0)
  | i :: rest =>
    let (s, well) := item r s i
    let (s, n) := items r s rest
    (s, n + if well then 1 else 0)

def folder (r : Request) (d : Disk) (target : Path) : Except Abort (State × Exit) := do
  let s := ({ disk := d } : State).say ("📂 Scanning components under: " ++ target.toString)
  let batch ← (Batch.run d target r.workers).mapError .scan
  let (s, well) := items r (s.note r batch.log) batch.items
  let all := batch.items.length
  let s := s.say ("🧩 " ++ toString well ++ "/" ++ toString all ++ " components analyzed")
  return (s, .code (if well = all then 0 else 1))

def file (r : Request) (d : Disk) (target : Path) : Except Abort (State × Exit) :=
  let s := ({ disk := d } : State).say ("🧩 Analyzing component: " ++ target.toString)
  let report := Report.ofFile d target.toString
  let s := s.note r report.log
  match report.outcome with
  | .error (.literal e) => .error (.literal e)
  | .error (.rejected rejection) => .ok (s.complain ("❌ " ++ rejection.message), .code 1)
  | .ok c =>
    let s := s.showFacts r c
    match s.deliver r target c with
    | .ok s => .ok (s, .code 0)
    | .error e =>
      .ok ({ s with disk := e.disk }.complain
        ("❌ Could not write test file for " ++ target.toString ++ ": " ++ e.error.message), .code 1)

def Request.run (r : Request) (d : Disk) : Except Abort (State × Exit) :=
  let target := d.absolute (Path.ofString r.path)
  if !d.holds target then
    .ok ({ disk := d }, .sentence ("Path does not exist: " ++ target.toString))
  else if d.holdsFolder target then folder r d target
  else file r d target

/-- Runs the command with its arguments. -/
def run (d : Disk) (arguments : List String) : Except Abort (State × Exit) :=
  match form.read arguments with
  | .ok l => (Request.ofLine l).run d
  | .error stop => .ok ({ disk := d, screen := (form.ending stop).1 }, (form.ending stop).2)

end SuiteDraft.CommandLine.Generate
