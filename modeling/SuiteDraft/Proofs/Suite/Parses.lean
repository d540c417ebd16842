import SuiteDraft.Proofs.Suite.Clear
import SuiteDraft.Proofs.Text.Case

/-!
# The whole test file

Imports, mocks and one block of tests are a source of the grammar. So the test file of a component
parses without a fault, if every text that a pattern of it matches is on one line and every name that
it passes on can stand where it is put.
-/

namespace SuiteDraft

open Grammar

variable {depth : Nat} {cs w : List Char} {subject : String} {c : Component}

theorem gap_none : IsGap "".toList := .nil

namespace Suite

/-! ## Imports -/

theorem importable {l : List Char} (h : isWord l = true) (other : l ≠ ['t', 'y', 'p', 'e'])
    (other' : l ≠ ['t', 'y', 'p', 'e', 'o', 'f']) : Importable (String.ofList l).toList := by
  refine ⟨isName_word h, fun eq => other ?_, fun eq => other' ?_⟩
  · simpa using congrArg String.toList eq
  · simpa using congrArg String.toList eq

theorem script_imports (name : isName subject.toList = true) :
    Script 1 (linesChars "" (importLines subject)) := by
  have screens : ∀ w ∈ ["screen".toList], Importable w := by
    intro w mem
    rw [List.mem_singleton.mp mem]
    exact importable rfl (by decide) (by decide)
  have runners : ∀ w ∈ ["beforeEach".toList, "describe".toList, "expect".toList, "test".toList, "vi".toList],
      Importable w := by
    intro w mem
    simp only [List.mem_cons, List.not_mem_nil, or_false] at mem
    rcases mem with rfl | rfl | rfl | rfl | rfl <;> exact importable rfl (by decide) (by decide)
  have render := (import_names (w := "render".toList) (importable rfl (by decide) (by decide)) screens "@testing-library/react".toList).statement
  have user := (import_main (w := "userEvent".toList) (isName_word rfl) "@testing-library/user-event".toList).statement
  have matchers := (import_itself "@testing-library/jest-dom".toList).statement
  have runner := (import_names (w := "afterEach".toList) (importable rfl (by decide) (by decide)) runners
    "vitest".toList).statement
  have main := (import_main name ("../".toList ++ subject.toList)).statement
  rw [Json.quoteChars_text rfl] at render user matchers runner
  have unescaped : Json.Unescaped "../".toList := Json.unescaped_text rfl
  rw [Json.quoteChars_plain (unescaped.append (Json.unescaped_name name))] at main
  refine .line gap_none ?_ (.line gap_none ?_ (.line gap_none ?_ (.line gap_none ?_ (.line gap_none ?_
    (.blank gap_none .nil)))))
  · simpa [namesChars, moreChars] using render
  · simpa using user
  · simpa using matchers
  · simpa [namesChars, moreChars] using runner
  · simpa using main

/-! ## Before and after each test -/

/-- Something is done before or after each test. -/
theorem script_hook {block : List String} (name : isName w = true) (plain : String.ofList w ∉ reservedWords)
    (plain' : String.ofList w ∉ statementWords) (h : Script depth cs)
    (text_eq : linesChars "" block =
      w ++ '(' :: ("() => ".toList ++ blockChars ('\n' :: cs) ++ [')']) ++ [';'] ++ ['\n', '\n']) :
    Script (depth + 11) (linesChars "" block) := by
  have body := (h.within_lines (g := []) .nil).body
  rw [List.append_nil] at body
  have step := statement_call name plain' (.inl rfl)
    (expression_call name plain (one_argument (expression_arrow body)))
  rw [text_eq]
  rw [← List.append_nil ['\n', '\n']]
  exact .statement step (.gap (g := ['\n', '\n']) (.of_blanks (by decide)) .nil)

set_option maxRecDepth 2000 in
theorem script_network : Script 29 (linesChars "" networkLines) := by
  have gap : IsGap "  ".toList := .of_blanks (by decide)
  have spy : Script 18 (linesChars "  " [
      "vi.spyOn(globalThis as any, \"fetch\").mockResolvedValue(\x7b",
      "  json: async () => [],",
      "\x7d as any);"]) := by
    refine .block_of_lines gap (step_spy gap) ?_
    simp only [linesChars, lineObject, List.flatMap_cons, List.flatMap_nil]
    repeat rw [String.toList_ofList]
    simp
  have inner : Script 18 (linesChars "  " [
      "// Safe default: no network; components expecting arrays get []",
      "vi.spyOn(globalThis as any, \"fetch\").mockResolvedValue(\x7b",
      "  json: async () => [],",
      "\x7d as any);"]) := .comment gap String.toList_ofList (by decide) spy
  refine script_hook (w := "beforeEach".toList) (isName_word rfl) (by decide) (by decide) inner ?_
  simp only [linesChars, networkLines, blockChars, List.flatMap_cons, List.flatMap_nil]
  repeat rw [String.toList_ofList]
  simp

theorem script_restore : Script 16 (linesChars "" restoreLines) := by
  have gap : IsGap "  ".toList := .of_blanks (by decide)
  have restore : Statement 5 "vi.restoreAllMocks();".toList := by
    have call := expression_method (f := "vi".toList) (m := "restoreAllMocks".toList) (isName_word rfl) (by decide)
      (isName_word rfl) (no_arguments : Listing value ')' 0 [])
    have step := statement_call (isName_word rfl) (by decide) (.inr rfl) call
    simpa using step
  have inner : Script 5 (linesChars "  " ["vi.restoreAllMocks();"]) := .line gap restore .nil
  refine script_hook (w := "afterEach".toList) (isName_word rfl) (by decide) (by decide) inner ?_
  simp only [linesChars, restoreLines, blockChars, List.flatMap_cons, List.flatMap_nil]
  repeat rw [String.toList_ofList]
  simp

/-! ## The block of tests -/

theorem script_cases {tests : List TestCase} {call : String} (fits : ∀ test ∈ tests, test.Fits)
    (render : Statement 10 call.toList) : Script 53 (linesChars "" (tests.flatMap (TestCase.lines call))) := by
  induction tests with
  | nil => exact .nil
  | cons test tests ih =>
    obtain ⟨own, others⟩ := List.forall_mem_cons.mp fits
    rw [List.flatMap_cons]
    exact (TestCase.script_lines own render).lines_append (ih others)

/-- All the tests of a file. -/
def tests (s : Suite) : List String := s.blockLine :: s.cases.flatMap (TestCase.lines s.renderCall) ++ ["\x7d);"]

theorem script_tests {s : Suite} (name : isName s.subject.toList = true) (fits : ∀ test ∈ s.cases, test.Fits)
    (render : Statement 10 s.renderCall.toList) : Script 64 (linesChars "" s.tests) := by
  have block := ((script_cases fits render).within_lines (g := []) .nil).body
  rw [List.append_nil] at block
  have unescaped : Json.Unescaped " component".toList := Json.unescaped_text rfl
  have step := step_titled (w := "describe".toList) (isName_word rfl) (by decide) (by decide)
    (Json.quoteChars_plain ((Json.unescaped_name name).append unescaped)) (expression_arrow block) (by decide)
  refine .block_of_lines gap_none step ?_
  rw [tests, blockLine, linesChars_append, ← List.singleton_append, linesChars_append]
  simp [linesChars, blockChars]

theorem toList_intercalate_lines (lines : List String) :
    ("\n".intercalate (lines ++ [""])).toList = linesChars "" lines := by
  induction lines with
  | nil => rfl
  | cons line lines ih =>
    rw [List.cons_append, String.intercalate_cons_of_ne_nil (by simp), String.toList_append, ih]
    simp [linesChars]

theorem toList_render (s : Suite) : s.render.toList = linesChars "" (s.preamble ++ s.tests) := by
  have lines : s.lines = s.preamble ++ s.tests ++ [""] := by simp [lines_eq, tests]
  rw [render, lines, toList_intercalate_lines]

theorem script_render {s : Suite} (name : isName s.subject.toList = true) (fits : ∀ test ∈ s.cases, test.Fits)
    (render : Statement 10 s.renderCall.toList) : Script 64 s.render.toList := by
  have imports : Script 64 (linesChars "" (importLines s.subject)) := (script_imports name).mono (by decide)
  have network : Script 64 (linesChars "" (if s.mocksNetwork then networkLines else [])) := by
    split
    · exact script_network.mono (by decide)
    · exact .nil
  rw [toList_render]
  exact ((imports.lines_append network).lines_append (script_restore.mono (by decide))).lines_append
    (script_tests name fits render)

theorem head_render (s : Suite) : ∃ rest, s.render.toList = 'i' :: 'm' :: 'p' :: rest := by
  rw [toList_render, preamble, importLines]
  exact ⟨_, rfl⟩

/-! ## What a component puts into its test file -/

theorem writable_attributes {c : Component}
    (names : ∀ name ∈ passed c.props, isAttributeName name.toList = true) :
    Writable (ofComponent subject c).attributeParts := by
  have attributes : (ofComponent subject c).attributes = (passed c.props).map fun name => (name, sample name) :=
    attributesOf_eq c.props
  intro a mem
  rw [attributeParts, attributes, List.map_map] at mem
  obtain ⟨name, inside, rfl⟩ := List.mem_map.mp mem
  have own := names name inside
  have unmarked : ∀ c ∈ name.toList, c ∉ Text.attributeMarks := by
    intro c mem marked
    have marks : ∀ c ∈ Text.attributeMarks, isNameBreak c = true ∧ c ≠ '-' := by decide
    obtain ⟨breaks, other⟩ := marks c marked
    rcases part_of_attributeName own c mem with part | hyphen
    · exact ne_of_isNameBreak part breaks rfl
    · exact other hyphen
  have clear : ∀ c ∈ (sample name).toList, c ∉ Text.attributeMarks := by
    have start : ∀ c ∈ "Sample ".toList, c ∉ Text.attributeMarks := by decide
    rw [sample, String.toList_append]
    exact List.forall_mem_append.mpr ⟨start, Text.capitalize_unmarked unmarked⟩
  exact ⟨own, fun mem => clear _ mem (by decide), fun mem => clear _ mem (by decide)⟩

theorem fits_row (elements : List Element) : Row.Fits (Row.ofElements elements) := by
  intro m mem
  rw [Row.ofElements] at mem
  split at mem
  · simp only [Row.fallback, List.mem_cons, List.not_mem_nil, or_false] at mem
    rcases mem with rfl | rfl
    · exact .inr rfl
    · exact .inl ⟨"Eve", rfl⟩
  · exact .inl ⟨_, (Row.mem_ofNames mem).2⟩

theorem name_of_method (methods : ∀ api ∈ c.apis, ∀ method ∈ Query.present api.method, isName method.toList = true)
    {api : NetworkCall} (mem : api ∈ c.apis) : isName ((Query.present api.method).getD "get").toList = true := by
  cases own : Query.present api.method with
  | none => exact isName_word rfl
  | some method => exact methods api mem method own

theorem fits_cases (lines : ∀ test ∈ (ofComponent subject c).cases, ∀ text ∈ test.matched,
      '\n' ∉ text.toList ∧ '\x00' ∉ text.toList)
    (methods : ∀ api ∈ c.apis, ∀ method ∈ Query.present api.method, isName method.toList = true) : ∀ test ∈ (ofComponent subject c).cases, test.Fits := by
  intro test mem
  have oneLine : ∀ text ∈ test.matched, OneLine text := fun text matched =>
    ⟨(text_of_matched mem matched).1, (lines test mem text matched).1, (lines test mem text matched).2⟩
  obtain ⟨presence, typing, adding, loading, arranged⟩ := exists_arranged subject c
  rw [arranged.order] at mem
  simp only [List.mem_cons, List.mem_append] at mem
  have searched : ∀ role e, (Query.ofIdUnless role e).Fits := fun role e text matched => by
    rw [Query.matched?_ofIdUnless] at matched
    cases matched
  rcases mem with rfl | ((inPresence | inTyping) | inAdding) | inLoading
  · trivial
  · obtain ⟨i, hi, test_eq⟩ := List.mem_iff_getElem.mp inPresence
    obtain ⟨e, query, -, -, case_eq⟩ := arranged.presence.numbered i hi
    rw [case_eq] at test_eq
    rw [← test_eq] at oneLine ⊢
    exact ⟨fun text matched => oneLine text (List.mem_append_left _ (Option.mem_toList.mpr matched)),
      fun text shown => oneLine text (List.mem_append_right _ (Option.mem_toList.mpr shown))⟩
  · obtain ⟨input, -, rfl⟩ := arranged.typing.such inTyping
    exact searched _ _
  · obtain ⟨input, button, -, -, rfl⟩ := arranged.adding.such inAdding
    exact ⟨searched _ _, searched _ _⟩
  · obtain ⟨api, first, rfl⟩ := arranged.loading.such inLoading
    unfold loadTest
    cases api.kind with
    | fetch => exact fits_row _
    | axios => exact ⟨name_of_method methods (List.mem_of_head? first), fits_row _⟩

theorem whole_source (name : isName subject.toList = true) (plain : subject ≠ "const")
    (lines : ∀ test ∈ (ofComponent subject c).cases, ∀ text ∈ test.matched,
      '\n' ∉ text.toList ∧ '\x00' ∉ text.toList)
    (names : ∀ name ∈ passed c.props, isAttributeName name.toList = true)
    (methods : ∀ api ∈ c.apis, ∀ method ∈ Query.present api.method, isName method.toList = true) :
    Whole (Grammar.treeOf .markup (ofComponent subject c).source) := by
  have writable : Writable (ofComponent subject c).attributeParts := writable_attributes names
  have fits := fits_cases lines methods
  have script := script_render name fits (step_render name plain writable)
  obtain ⟨rest, text_eq⟩ := (ofComponent subject c).head_render
  have long : 64 ≤ 20 * ((ofComponent subject c).render.toList.length + 1) := by
    rw [text_eq, List.length_cons, List.length_cons, List.length_cons]
    omega
  refine whole_treeOf script ?_ ?_ long (clear_render name writable fits) (Input.Spells.of_text _)
  · rw [text_eq]
    rfl
  · rw [text_eq]
    simp

/-- The test file of a component parses without a fault, if each text that a pattern of it matches is on
one line, each name that it passes to the component is one of an attribute and each method of the client
is a name. Nothing else that a component puts into the file matters, and of each pattern alone it holds
whatever else is there: the grammar reads it to its end if its text is on one line, and else reads no
pattern. -/
theorem parses_of_ofComponent (subject : String) (c : Component) :
    (isName subject.toList = true → subject ≠ "const" →
      (∀ test ∈ (ofComponent subject c).cases, ∀ text ∈ test.matched,
        '\n' ∉ text.toList ∧ '\x00' ∉ text.toList) →
      (∀ name ∈ passed c.props, isAttributeName name.toList = true) →
      (∀ api ∈ c.apis, ∀ method ∈ Query.present api.method, isName method.toList = true) →
      (Grammar.treeOf .markup (ofComponent subject c).source).hasFault = false) ∧
    ∀ test ∈ (ofComponent subject c).cases, ∀ text ∈ test.matched,
      ∃ before after, (ofComponent subject c).render = before ++ Pattern.literal text ++ after ∧
        Grammar.pattern ((ofComponent subject c).source.drop before.length) =
          if '\n' ∈ text.toList then none
          else some ((ofComponent subject c).source.drop (before ++ Pattern.literal text).length) :=
  ⟨whole_source, fun _ mem _ matched => pattern_of_ofComponent mem matched⟩

/-- A component that puts something of each kind into its test file. -/
def addressBook : Component where
  name := "AddressBook"
  elements := [
    { tag := "input", roleHint := some "textbox" },
    { tag := "button", text := some "Add (new)", roleHint := some "button" },
    { tag := "p", text := some "\"Names\" & numbers", properties := [("title", .text "expr:owner")] }]
  props := ["title", "data-kind"]
  hasEffects := true
  apis := [{ kind := .axios, method := some "get" }]

theorem parses_of_addressBook :
    (Grammar.treeOf .markup (ofComponent "AddressBook" addressBook).source).hasFault = false ∧
      ∃ before after, (ofComponent "AddressBook" addressBook).render =
          before ++ Pattern.literal "Add (new)" ++ after ∧
        Grammar.pattern ((ofComponent "AddressBook" addressBook).source.drop before.length) =
          some ((ofComponent "AddressBook" addressBook).source.drop
            (before ++ Pattern.literal "Add (new)").length) := by
  have texts : ∀ e ∈ addressBook.elements, ∀ text ∈ e.text, '\n' ∉ text.toList ∧ '\x00' ∉ text.toList := by
    decide
  have parses := parses_of_ofComponent "AddressBook" addressBook
  refine ⟨parses.1 (isName_word rfl) (by decide) ?_ ?_ ?_, ?_⟩
  · intro test mem text matched
    obtain ⟨-, e, inside, own⟩ := text_of_matched mem matched
    exact texts e inside text own
  · decide +kernel
  · decide +kernel
  · have found : findable addressBook.elements = [
        (addressBook.elements[0], .byRole "textbox" none),
        (addressBook.elements[1], .byRole "button" (some "Add (new)")),
        (addressBook.elements[2], .byText "\"Names\" & numbers")] := by decide +kernel
    have mem : TestCase.element 2 (.byRole "button" (some "Add (new)")) (some "Add (new)") ∈
        (ofComponent "AddressBook" addressBook).cases := by
      refine List.mem_append_left _ (List.mem_append_left _ (.tail _ ?_))
      rw [elementCases, found]
      exact .tail _ (.head _)
    obtain ⟨before, after, render, pattern⟩ := parses.2 _ mem "Add (new)" List.mem_cons_self
    exact ⟨before, after, render, pattern.trans (if_neg (by decide))⟩

/-- A component whose one element says something on two lines. -/
def twoLines : Component where
  name := "A"
  elements := [{ tag := "p", text := some "a\nb" }]

/-- A file that is analysed as such a component. -/
def twoLinesSource : String := "export default function A()\x7breturn <p>a\nb</p>\x7d"

/-- The component is accepted, but its test file does not parse. -/
theorem hasFault_of_twoLinesSource :
    (Report.ofText "A.tsx" twoLinesSource).outcome.toOption = some twoLines ∧
      (Grammar.treeOf .markup <| .ofGlyphs <| Glyph.ofText <|
        textFor (Path.ofString "A.tsx") (some twoLines)).hasFault = true := by
  have hstem : (Path.ofString "A.tsx").stem = "A" := by decide +kernel
  have htext : textFor (Path.ofString "A.tsx") (some twoLines) = (ofComponent "A" twoLines).render := by
    rw [textFor, hstem, Option.getD_some]
  refine ⟨by decide +kernel, ?_⟩
  -- the file by its characters, which is quicker to compute than the text
  rw [htext, Glyph.ofText, render, String.toList_intercalate]
  decide +kernel

end Suite

end SuiteDraft
