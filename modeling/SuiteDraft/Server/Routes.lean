import SuiteDraft.Batch
import SuiteDraft.Component.Dump
import SuiteDraft.Server.Request
import SuiteDraft.Suite.Basic
import SuiteDraft.Text.Integer

/-!
The answers of the server: whether it runs, the facts of a component, the test file that would be
written for it, and the facts of all components below a folder.
-/

namespace SuiteDraft.Server

/-- What an answer holds. -/
inductive Body where
  | json (value : Json)
  | text (text : String)

/-- An answer: a status and what it holds. -/
structure Response where
  status : Nat := 200
  body : Body

namespace Response

def refusal (status : Nat) (words : String) : Response :=
  ⟨status, .json (.object [("detail", .string words)])⟩

def misunderstood : Response := ⟨422, .json .null⟩

def failure : Response := ⟨500, .text "Internal Server Error"⟩

end Response

/-- What can be asked for. -/
inductive Route where
  | status
  | component
  | test
  | batch
  deriving DecidableEq

def Route.path : Route → String
  | status => "/api-status"
  | component => "/api/analysis/component"
  | test => "/api/analysis/component/test"
  | batch => "/api/analysis/batch"

def Route.ofPath? (path : String) : Option Route :=
  let path := (path.toList.reverse.dropWhile (· == '/')).reverse
  [status, component, test, batch].find? fun r => r.path.toList == path

/-- The file that a path leads to, by its path without links, and its component; or the answer that
says why there is none. -/
def componentAt (d : Disk) (path : String) : Except Response (Path × Component) :=
  let p := Path.ofString path
  if !d.holds p then .error (.refusal 404 "Path not found")
  else if d.holdsFolder p then .error (.refusal 400 "Path is not a file")
  else
    match d.resolve p with
    | .error _ => .error .failure
    | .ok real =>
      match (Report.ofFile d real.toString).outcome with
      | .ok c => .ok (real, c)
      | .error (.rejected r) => .error (.refusal 422 r.message)
      | .error (.literal _) => .error .failure

def componentResponse (d : Disk) (path : String) : Response :=
  match componentAt d path with
  | .ok (_, c) => ⟨200, .json c.toJson⟩
  | .error answer => answer

def testResponse (d : Disk) (path : String) : Response :=
  match componentAt d path with
  | .ok (real, c) => ⟨200, .text (Suite.textFor real (some c))⟩
  | .error answer => answer

def itemJson (i : Batch.Item) : Json :=
  match i.outcome with
  | .ok c => .object [("path", .string i.path), ("component", c.toJson), ("error", .null)]
  | .error text =>
    .object [("path", .string i.path), ("component", .null), ("error", .string text)]

def batchResponse (d : Disk) (path : String) (workers : Int) : Response :=
  let p := Path.ofString path
  if !d.holds p then .refusal 404 "Path not found"
  else if !d.holdsFolder p then .refusal 400 "Path is not a directory"
  else
    match Batch.run d p workers with
    | .ok batch => ⟨200, .json (.array (batch.items.map itemJson))⟩
    | .error _ => .failure

-- Reads an integer of plain digits, which may have zeros for decimal places.
def wholeNumber? (text : String) : Option Int :=
  let text := Text.trim text.toList
  let whole := text.takeWhile (· != '.')
  let places := (text.drop whole.length).drop 1
  if places.all (· == '0') && whole.all (fun c => c.toNat < 128 && !Text.isBlank c) then
    Text.readInteger? 10 whole
  else none

-- How many workers a request wants, at most thirty-two; nothing when that cannot be understood.
def workers? (r : Request) : Option Int :=
  match r.value? "workers" with
  | none => some 1
  | some text => (wholeNumber? text).filter fun n => 1 ≤ n && n ≤ 32

def respond (d : Disk) (r : Request) : Response :=
  match Route.ofPath? r.path, r.value? "path", workers? r with
  | none, _, _ => .refusal 404 "Not Found"
  | some .status, _, _ =>
    ⟨200, .json (.object [("message", .string
      "JSX Testgen Server is running. Visit /docs for API documentation.")])⟩
  | some .component, some path, _ => componentResponse d path
  | some .test, some path, _ => testResponse d path
  | some .batch, some path, some workers => batchResponse d path workers
  | _, _, _ => .misunderstood

end SuiteDraft.Server
