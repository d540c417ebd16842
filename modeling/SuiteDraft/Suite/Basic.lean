import SuiteDraft.Path.Basic
import SuiteDraft.Suite.TestCase

/-!
The generated test file of a component: which tests it has, how it is written, and where it lies.
-/

namespace SuiteDraft

/-- A test file: the component under test, the sample attributes that it is rendered with, whether
the network is mocked throughout, and the tests. -/
structure Suite where
  subject : String
  attributes : List (String × String)
  mocksNetwork : Bool
  cases : List TestCase

namespace Suite

def maxElementTests : Nat := 6

/-- The attributes for the props of a component: a sample for each. A first prop called `props` is
the whole of them and names none. -/
def attributesOf (props : List String) : List (String × String) :=
  match props with
  | [] => []
  | "props" :: _ => []
  | _ => props.map fun p => (p, sample p)

-- The elements that can be found, except those of repeated items, each with its query.
def findable (elements : List Element) : List (Element × Query) :=
  (elements.filter fun e => !isRepeatedId e.stableId).filterMap fun e =>
    (Query.ofElement? e).map fun query => (e, query)

def elementCases (elements : List Element) : List TestCase :=
  ((findable elements).take maxElementTests).mapIdx fun i p =>
    .element (i + 1) p.2 (Query.present p.1.text)

-- The first element with a role or a test id, or else the first with a tag in any case.
def elementFor? (role id tag : String) (elements : List Element) : Option Element :=
  elements.find? (fun e => e.roleHint = some role || e.stableId = some id)
    <|> elements.find? (fun e => Text.lowerLatin e.tag = tag)

def input? (elements : List Element) : Option Element :=
  elementFor? "textbox" "user-input" "input" elements

def button? (elements : List Element) : Option Element :=
  elementFor? "button" "add-button" "button" elements

-- The tests of an input and, if there is a button as well, of the two together.
def inputCases (elements : List Element) : List TestCase :=
  match input? elements with
  | none => []
  | some input =>
    let input := Query.ofIdUnless "textbox" input
    .typing input :: match button? elements with
      | none => []
      | some button => [.adding input (Query.ofIdUnless "button" button)]

-- The test of the first network call of a component with effects.
def loadCases (c : Component) : List TestCase :=
  if c.hasEffects then
    match c.apis with
    | [] => []
    | api :: _ =>
      let row := Row.ofElements c.elements
      match api.kind with
      | .fetch => [.fetching row]
      | .axios => [.requesting ((Query.present api.method).getD "get") row]
  else []

-- The test file of a component under the name by which its file goes.
def ofComponent (subject : String) (c : Component) : Suite where
  subject := subject
  attributes := attributesOf c.props
  mocksNetwork := c.hasEffects
  cases := .smoke :: elementCases c.elements ++ inputCases c.elements ++ loadCases c

def renderCall (s : Suite) : String :=
  let attributes := s.attributes.map fun a => " " ++ a.1 ++ "=" ++ Json.quote a.2
  "render(<" ++ s.subject ++ String.join attributes ++ " />);"

def importLines (subject : String) : List String := [
  "import \x7b render, screen \x7d from \"@testing-library/react\";",
  "import userEvent from \"@testing-library/user-event\";",
  "import \"@testing-library/jest-dom\";",
  "import \x7b afterEach, beforeEach, describe, expect, test, vi \x7d from \"vitest\";",
  "import " ++ subject ++ " from \"../" ++ subject ++ "\";",
  ""]

def networkLines : List String := [
  "beforeEach(() => \x7b",
  "  // Safe default: no network; components expecting arrays get []",
  "  vi.spyOn(globalThis as any, \"fetch\").mockResolvedValue(\x7b",
  "    json: async () => [],",
  "  \x7d as any);",
  "\x7d);",
  ""]

def restoreLines : List String := [
  "afterEach(() => \x7b",
  "  vi.restoreAllMocks();",
  "\x7d);",
  ""]

def lines (s : Suite) : List String :=
  importLines s.subject
    ++ (if s.mocksNetwork then networkLines else [])
    ++ restoreLines
    ++ ["describe(\"" ++ s.subject ++ " component\", () => \x7b"]
    ++ s.cases.flatMap (TestCase.lines s.renderCall)
    ++ ["\x7d);", ""]

def render (s : Suite) : String := "\n".intercalate s.lines

def pathFor (component : Path) : Path :=
  (component.parent.child "__tests__").child (component.stem ++ ".test.tsx")

/-- The text of the test file for the component of a file; of one that is not known, its name is
enough. -/
def textFor (path : Path) (component? : Option Component) : String :=
  (ofComponent path.stem (component?.getD { name := path.stem })).render

end Suite

end SuiteDraft
