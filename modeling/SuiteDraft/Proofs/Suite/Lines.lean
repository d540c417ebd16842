import SuiteDraft.Analysis.Source
import SuiteDraft.Proofs.Source.Marks
import SuiteDraft.Suite.Basic

/-!
# The lines of a test file

A test file is a preamble, one block for all its tests, and in the block the lines of each test.
Among all these lines one for each test renders the component, with the samples for its props; a test
that types has a line of its own for the input.
-/

namespace SuiteDraft

namespace Suite

/-- The line begins with this word. -/
def opens (word line : String) : Bool := word.toList.isPrefixOf line.toList

/-- The lines before the tests. -/
def preamble (s : Suite) : List String :=
  importLines s.subject ++ (if s.mocksNetwork then networkLines else []) ++ restoreLines

def blockLine (s : Suite) : String := "describe(\"" ++ s.subject ++ " component\", () => \x7b"

theorem lines_eq (s : Suite) : s.lines =
    s.preamble ++ [s.blockLine] ++ s.cases.flatMap (TestCase.lines s.renderCall) ++ ["\x7d);", ""] :=
  rfl

/-- The words with which a line renders the component or names an input. -/
def marks : List String := ["    render(", "    const input = "]

/-- Outside the tests no line renders anything or names an input. -/
theorem filter_opens_outside {word : String} (mark : word ∈ marks) (s : Suite) :
    (s.preamble ++ [s.blockLine] ++ ["\x7d);", ""]).filter (opens word) = [] := by
  simp only [marks, List.mem_cons, List.not_mem_nil, or_false] at mark
  rcases mark with rfl | rfl <;> cases network : s.mocksNetwork <;>
    simp [preamble, network, importLines, networkLines, restoreLines, blockLine, opens,
      List.isPrefixOf]

/-- No line before the block opens it or a test. -/
theorem opens_preamble (s : Suite) :
    ∀ line ∈ s.preamble, opens "describe(" line = false ∧ opens "  test(" line = false := by
  cases network : s.mocksNetwork <;>
    simp [preamble, network, importLines, networkLines, restoreLines, opens, List.isPrefixOf]

theorem filter_opens_lines {word : String} (mark : word ∈ marks) (s : Suite) :
    s.lines.filter (opens word) =
      s.cases.flatMap fun test => (test.lines s.renderCall).filter (opens word) := by
  have outside := filter_opens_outside mark s
  rw [List.filter_append, List.append_eq_nil_iff] at outside
  rw [lines_eq, List.filter_append, List.filter_append, outside.1, outside.2, List.filter_flatMap,
    List.nil_append, List.append_nil]

end Suite

namespace TestCase

open Suite (opens)

/-- The line that opens a test. -/
def openingLine (test : TestCase) : String :=
  "  test(\"" ++ test.title ++ "\", " ++ (if test.isAsync then "async " else "") ++ "() => \x7b"

theorem opens_margin (word line : String) :
    opens ("    " ++ word) ("    " ++ line) = opens word line := by
  simp [opens, List.isPrefixOf]

/-- The lines of a test's body that call for rendering are the call that the body is given. -/
theorem filter_calls_body (test : TestCase) {call : String} (h : opens "render(" call = true) :
    (test.body call).filter (opens "render(") = [call] := by
  replace h : ['r', 'e', 'n', 'd', 'e', 'r', '('] <+: call.toList := List.isPrefixOf_iff_prefix.mp h
  cases test with
  | element number query text? =>
    cases text? <;> simp [body, List.filter_cons, opens, List.isPrefixOf, h]
  | _ => simp [body, typingLines, List.filter_cons, opens, List.isPrefixOf, h]

/-- Lines that begin with a margin of four blanks are lines of the body. -/
theorem filter_margin_lines (test : TestCase) (call word : String) :
    (test.lines call).filter (opens ("    " ++ word)) =
      ((test.body call).filter (opens word)).map ("    " ++ ·) := by
  have margin : opens ("    " ++ word) ∘ ("    " ++ ·) = opens word := by
    funext line
    exact opens_margin word line
  have opening : opens ("    " ++ word) test.openingLine = false := by
    simp [openingLine, opens, List.isPrefixOf]
  have closing : ["  \x7d);", ""].filter (opens ("    " ++ word)) = [] := by
    simp [opens, List.isPrefixOf]
  show (([test.openingLine] ++ _) ++ _).filter _ = _
  rw [List.filter_append, List.filter_append, List.filter_map, margin, closing,
    List.filter_cons_of_neg (by rw [opening]; exact Bool.false_ne_true), List.filter_nil,
    List.nil_append, List.append_nil]

theorem filter_calls_lines (test : TestCase) {call : String} (h : opens "render(" call = true) :
    (test.lines call).filter (opens "    render(") = ["    " ++ call] := by
  have word : "    render(" = "    " ++ "render(" := by decide +kernel
  rw [word, test.filter_margin_lines, test.filter_calls_body h, List.map_singleton]

end TestCase

namespace Suite

theorem opens_renderCall (s : Suite) : opens "render(" s.renderCall = true := by
  simp [renderCall, opens, List.isPrefixOf]

/-- The component is rendered once in each test, and always by the same call. -/
theorem filter_calls (s : Suite) :
    s.lines.filter (opens "    render(") = s.cases.map fun _ => "    " ++ s.renderCall := by
  rw [filter_opens_lines (by decide)]
  simp only [TestCase.filter_calls_lines _ s.opens_renderCall]
  exact List.flatMap_pure_eq_map _ _

/-! ## The samples for the props -/

/-- The call that renders a component with a sample for each of these names. -/
def callWith (subject : String) (names : List String) : String :=
  "render(<" ++ subject ++
    String.join (names.map fun name => " " ++ name ++ "=" ++ Json.quote (sample name)) ++ " />);"

/-- The names for which a sample is passed: all, unless the first one is `props`. -/
def passed (props : List String) : List String := if props.head? = some "props" then [] else props

/-- The names for which a sample should be passed: all, unless `props` is the only one. -/
def wanted (props : List String) : List String := if props = ["props"] then [] else props

theorem attributesOf_eq (props : List String) :
    attributesOf props = (passed props).map fun name => (name, sample name) := by
  unfold attributesOf passed
  split
  · rfl
  · rfl
  · rename_i others
    rw [if_neg]
    intro first
    cases props with
    | nil => cases first
    | cons name rest => exact others rest (by rw [Option.some.inj first])

theorem renderCall_ofComponent (subject : String) (c : Component) :
    (ofComponent subject c).renderCall = callWith subject (passed c.props) := by
  show "render(<" ++ subject ++ String.join ((attributesOf c.props).map _) ++ " />);" = _
  rw [attributesOf_eq, List.map_map]
  rfl

theorem callWith_eq_callWith_nil_iff {subject : String} {names : List String} :
    callWith subject names = callWith subject [] ↔ names = [] := by
  refine ⟨fun h => ?_, fun h => by rw [h]⟩
  have noSamples : String.join (names.map fun name => " " ++ name ++ "=" ++ Json.quote (sample name)) = "" :=
    (String.append_right_inj _).mp ((String.append_left_inj _).mp h)
  cases names with
  | nil => rfl
  | cons name names =>
    have length := congrArg String.length noSamples
    simp [String.join_cons, String.length_append] at length

/-- What is passed is what should be, unless `props` is the first name and not the only one. -/
theorem callWith_passed_eq_iff {subject : String} {props : List String} :
    callWith subject (passed props) = callWith subject (wanted props) ↔
      (props.head? = some "props" → props = ["props"]) := by
  by_cases first : props.head? = some "props"
  · by_cases only : props = ["props"]
    · simp [passed, wanted, only]
    · have wanted_ne : wanted props ≠ [] := by
        intro h
        rw [wanted, if_neg only] at h
        simp [h] at first
      rw [passed, if_pos first, eq_comm, callWith_eq_callWith_nil_iff]
      simp [wanted_ne, first, only]
  · have only : props ≠ ["props"] := fun h => first (by rw [h]; rfl)
    simp [passed, wanted, first, only]

/-- Every test renders the component once, and all of a file by the same call, with a sample for each
prop in order, or for none if the first prop is called `props`. This is as it should be unless more
props follow on that one. -/
theorem calls_of_ofComponent (path : Path) (c : Component) :
    textFor path (some c) = "\n".intercalate (ofComponent path.stem c).lines ∧
      (ofComponent path.stem c).lines.filter (opens "    render(") =
        (ofComponent path.stem c).cases.map
          (fun _ => "    " ++ callWith path.stem (passed c.props)) ∧
      (∀ test : TestCase,
        (test.lines (ofComponent path.stem c).renderCall).filter (opens "    render(") =
          ["    " ++ callWith path.stem (passed c.props)]) ∧
      (callWith path.stem (passed c.props) = callWith path.stem (wanted c.props) ↔
        (c.props.head? = some "props" → c.props = ["props"])) := by
  have call_eq := renderCall_ofComponent path.stem c
  refine ⟨rfl, ?_, fun test => ?_, callWith_passed_eq_iff⟩
  · rw [filter_calls, call_eq]
  · rw [TestCase.filter_calls_lines test (opens_renderCall _), call_eq]

/-- A component that takes a prop called `props` and another one. -/
def mixed : Component where
  name := "A"
  elements := [{ tag := "p" }]
  props := ["props", "title"]

/-- A file that is analysed as such a component. -/
def mixedSource : String := "export default function A(\x7bprops, title\x7d)\x7breturn <p/>\x7d"

/-- Its test renders the component without any sample, though `props` is not its only prop. -/
theorem calls_of_mixedSource :
    (Report.ofText "A.tsx" mixedSource).outcome.toOption = some mixed ∧
      (Path.ofString "A.tsx").stem = "A" ∧
      (ofComponent "A" mixed).lines.filter (opens "    render(") = ["    render(<A />);"] ∧
      callWith "A" (wanted mixed.props) =
        "render(<A props=\"Sample Props\" title=\"Sample Title\" />);" := by
  have cases_eq : (ofComponent "A" mixed).cases = [.smoke] := by
    have noQueries : findable mixed.elements = [] := by decide +kernel
    have noInput : input? mixed.elements = none := by decide +kernel
    show .smoke :: elementCases mixed.elements ++ inputCases mixed.elements ++ [] = _
    rw [elementCases, inputCases, noQueries, noInput]
    rfl
  refine ⟨by decide +kernel, by decide +kernel, ?_, by decide +kernel⟩
  rw [filter_calls, cases_eq, renderCall_ofComponent]
  rfl

end Suite

end SuiteDraft
