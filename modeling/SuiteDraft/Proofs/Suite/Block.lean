import SuiteDraft.Proofs.Suite.Cases
import SuiteDraft.Proofs.Suite.Patterns

/-!
# The block of a test file

The tests of a component as they are printed: line by line, with what each of them asks the screen for
and what it expects. The block of the component's file consists of these tests.
-/

namespace SuiteDraft

/-- A test as it is printed: its title, whether it waits for anything, and the lines of its body. -/
structure PrintedTest where
  title : String
  waits : Bool
  body : List String

namespace PrintedTest

def lines (t : PrintedTest) : List String :=
  ["  test(\"" ++ t.title ++ "\", " ++ (if t.waits then "async " else "") ++ "() => \x7b"]
    ++ t.body.map ("    " ++ ·)
    ++ ["  \x7d);", ""]

/-! ## What is printed for each kind of test -/

section

variable (call : String)

def smoke : PrintedTest where
  title := "renders without crashing"
  waits := false
  body := [call, "expect(true).toBe(true);"]

/-- What is expected of an element that is found: that it has its text, or, if it has none, that it is
there. -/
def expectation (e : Element) : String :=
  if e.text.getD "" = "" then "expect(el).toBeInTheDocument();"
  else "expect(el).toHaveTextContent(" ++ Pattern.literal (e.text.getD "") ++ ");"

def element (number : Nat) (query : String) (e : Element) : PrintedTest where
  title := "renders expected element #" ++ toString number
  waits := false
  body := [call, "const el = " ++ query ++ ";", expectation e]

def typing (input : String) : PrintedTest where
  title := "updates input value on typing"
  waits := true
  body := [
    "const user = userEvent.setup();",
    call,
    "const input = " ++ input ++ ";",
    "const value = `test-$\x7bDate.now()\x7d`;",
    "await user.type(input as HTMLElement, value);",
    "expect((input as HTMLInputElement).value).toBe(value);"]

def adding (input button : String) : PrintedTest where
  title := "adds a new item on button click"
  waits := true
  body := [
    "const user = userEvent.setup();",
    call,
    "const input = " ++ input ++ ";",
    "const button = " ++ button ++ ";",
    "const value = `test-$\x7bDate.now()\x7d`;",
    "await user.type(input as HTMLElement, value);",
    "await user.click(button);",
    "const items = screen.queryAllByTestId(\"user\");",
    "if (items.length) \x7b",
    "  expect(items[items.length - 1]).toHaveTextContent(new RegExp(value, \"i\"));",
    "\x7d else \x7b",
    "  // Fallback if no testids for items are present",
    "  expect(screen.getByText(new RegExp(value, \"i\"))).toBeInTheDocument();",
    "\x7d"]

/-- Rows are loaded through `fetch`. -/
def fetching (rows : String) : PrintedTest where
  title := "loads data from fetch on mount"
  waits := true
  body := [
    "// Override default fetch mock for this test with an ARRAY (component expects array)",
    "(globalThis.fetch as any) = vi.fn(() => Promise.resolve(\x7b",
    "  json: async () => " ++ rows ++ ",",
    "\x7d));",
    call,
    "expect(globalThis.fetch).toHaveBeenCalled();"]

/-- An answer comes from a method of the client. -/
def requesting (method answer : String) : PrintedTest where
  title := "loads data from axios on mount"
  waits := true
  body := [
    "vi.mock(\"axios\", () => (\x7b",
    "  default: \x7b",
    "    " ++ method ++ ": vi.fn().mockResolvedValue(" ++ answer ++ "),",
    "  \x7d,",
    "\x7d));",
    "const axios = (await import(\"axios\")).default as any;",
    call,
    "expect(axios." ++ method ++ ").toHaveBeenCalled();"]

end

end PrintedTest

namespace Suite

variable {c : Component} {elements : List Element} {e : Element} {call role : String}

/-! ## Which elements are tested -/

/-- The words by which the screen knows the roles that it can be asked for. -/
def roleWords : List (String × String) :=
  [("button", "button"), ("link", "link"), ("textbox", "textbox"), ("image", "img")]

def HasWord (e : Element) (word : String) : Prop :=
  ∃ role, e.roleHint = some role ∧ (role, word) ∈ roleWords

def IsNamed (e : Element) : Prop := e.roleHint = some "button" ∨ e.roleHint = some "link"

/-- How a test asks the screen for an element: for its role, with its text as the name of a button or
of a link; if the screen cannot be asked for its role, for its test id; and if it has none, for its
text. -/
inductive Finds (e : Element) : String → Prop
  | byName {word name : String} (known : HasWord e word) (named : IsNamed e) (has : e.text = some name)
      (nonempty : name ≠ "") : Finds e
        ("screen.getByRole(" ++ Json.quote word ++ ", \x7b name: " ++ Pattern.literal name ++ " \x7d)")
  | byRole {word : String} (known : HasWord e word) (unnamed : IsNamed e → e.text.getD "" = "") :
      Finds e ("screen.getByRole(" ++ Json.quote word ++ ")")
  | byTestId {id : String} (unknown : ∀ word, ¬ HasWord e word) (has : e.stableId = some id)
      (nonempty : id ≠ "") : Finds e ("screen.getByTestId(" ++ Json.quote id ++ ")")
  | byText {text : String} (unknown : ∀ word, ¬ HasWord e word) (noId : e.stableId.getD "" = "")
      (has : e.text = some text) (nonempty : text ≠ "") :
      Finds e ("screen.getByText(" ++ Pattern.literal text ++ ")")

/-- The test id is one of the words for items of a list, in any case, or a hyphen cuts such a word off
at one of its ends. -/
def IsRepeated (id : String) : Prop :=
  ∃ word ∈ ["user", "todo", "item", "row", "card"], Text.lowerLatin id = word ∨
    ("-" ++ word).toList <:+ (Text.lowerLatin id).toList ∨
    (word ++ "-").toList <+: (Text.lowerLatin id).toList

/-- The element can be found, and is no item of many. -/
def Eligible (e : Element) : Prop := ¬ IsRepeated (e.stableId.getD "") ∧ ∃ query, Finds e query

theorem present_some {text : String} (nonempty : text ≠ "") :
    Query.present (some text) = some text := by
  simp [Query.present, nonempty]

theorem present_cases (text? : Option String) :
    (text?.getD "" = "" ∧ Query.present text? = none) ∨
      ∃ text, text? = some text ∧ text ≠ "" ∧ Query.present text? = some text := by
  cases text? with
  | none => exact .inl ⟨rfl, rfl⟩
  | some text =>
    by_cases blank : text = ""
    · exact .inl ⟨blank, by rw [blank]; rfl⟩
    · exact .inr ⟨text, rfl, blank, present_some blank⟩

theorem screenRole_eq_some_iff {role word : String} :
    Query.screenRole role = some word ↔ (role, word) ∈ roleWords := by
  unfold Query.screenRole
  split
  case h_5 => simp_all [roleWords]
  all_goals simp [roleWords, eq_comm]

theorem not_hasWord (h : Query.ofRole? e = none) (word : String) : ¬ HasWord e word := by
  rintro ⟨role, plays, known⟩
  have asked : Query.screenRole role = some word := screenRole_eq_some_iff.mpr known
  simp [Query.ofRole?, plays, asked] at h

theorem finds_of_ofRole? {query : Query} (h : Query.ofRole? e = some query) : Finds e query.render := by
  obtain ⟨role, plays, h⟩ := Option.bind_eq_some_iff.mp h
  obtain ⟨word, asked, query_eq⟩ := Option.bind_eq_some_iff.mp h
  cases query_eq
  have known : HasWord e word := ⟨role, plays, screenRole_eq_some_iff.mp asked⟩
  have named_iff : Query.isNamedByText role = true ↔ IsNamed e := by
    simp [Query.isNamedByText, IsNamed, plays]
  by_cases named : IsNamed e
  · rw [if_pos (named_iff.mpr named)]
    rcases present_cases e.text with ⟨blank, present_eq⟩ | ⟨name, has, nonempty, present_eq⟩
    · rw [present_eq]
      exact .byRole known fun _ => blank
    · rw [present_eq]
      exact .byName known named has nonempty
  · rw [if_neg (mt named_iff.mp named)]
    exact .byRole known fun isNamed => absurd isNamed named

theorem finds_of_ofElement? {query : Query} (h : Query.ofElement? e = some query) :
    Finds e query.render := by
  rw [Query.ofElement?_eq_or] at h
  rcases Option.or_eq_some_iff.mp h with byRole | ⟨noRole, h⟩
  · exact finds_of_ofRole? byRole
  · have unknown : ∀ word, ¬ HasWord e word := not_hasWord noRole
    rcases present_cases e.stableId with ⟨noId, id_eq⟩ | ⟨id, has, nonempty, id_eq⟩
    · rcases present_cases e.text with ⟨-, text_eq⟩ | ⟨text, has, nonempty, text_eq⟩
      · rw [id_eq, text_eq] at h
        cases h
      · rw [id_eq, text_eq] at h
        cases h
        exact .byText unknown noId has nonempty
    · rw [id_eq] at h
      cases h
      exact .byTestId unknown has nonempty

theorem not_finds_of_ofElement? (h : Query.ofElement? e = none) (query : String) : ¬ Finds e query := by
  rw [Query.ofElement?_eq_or, Option.or_eq_none_iff, Option.or_eq_none_iff] at h
  obtain ⟨noRole, noId, noText⟩ := h
  intro finds
  cases finds with
  | byName known => exact not_hasWord noRole _ known
  | byRole known => exact not_hasWord noRole _ known
  | byTestId _ has nonempty =>
    rw [has, present_some nonempty] at noId
    cases noId
  | byText _ _ has nonempty =>
    rw [has, present_some nonempty] at noText
    cases noText

theorem isRepeatedId_iff (id? : Option String) :
    isRepeatedId id? = true ↔ IsRepeated (id?.getD "") := by
  unfold isRepeatedId IsRepeated
  rw [List.any_eq_true]
  refine exists_congr fun word => and_congr_right fun _ => ?_
  rw [Bool.or_eq_true, Bool.or_eq_true, beq_iff_eq, or_assoc, String.startsWith_string_iff,
    String.endsWith_eq_endsWith_toSlice, String.Slice.endsWith_string_iff, String.copy_toSlice]

theorem eligible_iff (e : Element) :
    Eligible e ↔ (!isRepeatedId e.stableId && (Query.ofElement? e).isSome) = true := by
  rw [Bool.and_eq_true, Bool.not_eq_true', ← Bool.not_eq_true, isRepeatedId_iff, Eligible]
  refine and_congr_right fun _ => ?_
  cases query_eq : Query.ofElement? e with
  | none => exact ⟨fun ⟨query, finds⟩ => absurd finds (not_finds_of_ofElement? query_eq query), nofun⟩
  | some query => exact ⟨fun _ => rfl, fun _ => ⟨_, finds_of_ofElement? query_eq⟩⟩

instance (e : Element) : Decidable (Eligible e) := decidable_of_iff' _ (eligible_iff e)

theorem tested_eq (elements : List Element) : tested elements = elements.filter Eligible := by
  refine List.filter_congr fun e _ => ?_
  rw [Bool.eq_iff_iff, decide_eq_true_iff, eligible_iff]

/-! ## Which tests are printed -/

/-- The tests for elements: one for each that is eligible, but six at most, numbered in the order of
the elements, each of which asks the screen for its element. -/
structure PrintedPresence (elements : List Element) (call : String) (tests : List PrintedTest) : Prop where
  length : tests.length = min 6 (elements.filter Eligible).length
  numbered : ∀ i (h : i < tests.length), ∃ e query, (elements.filter Eligible)[i]? = some e ∧
    Finds e query ∧ tests[i] = .element call (i + 1) query e

/-- How a test asks for the element that is taken for a role: by its test id, or, if the element plays
the role or has no test id, for anything that plays it. -/
inductive AsksFor (role : String) (e : Element) : String → Prop
  | byTestId {id : String} (other : e.roleHint ≠ some role) (has : e.stableId = some id)
      (nonempty : id ≠ "") : AsksFor role e ("screen.getByTestId(" ++ Json.quote id ++ ")")
  | byRole (any : e.roleHint = some role ∨ e.stableId.getD "" = "") :
      AsksFor role e ("screen.getByRole(" ++ Json.quote role ++ ")")

/-- A test types into the input that is taken. -/
def PrintsTyping (elements : List Element) (call : String) (test : PrintedTest) : Prop :=
  ∃ e input, TakenInput elements e ∧ AsksFor "textbox" e input ∧ test = .typing call input

/-- A test types into the input that is taken and clicks the button that is. -/
def PrintsAdding (elements : List Element) (call : String) (test : PrintedTest) : Prop :=
  ∃ e e' input button, TakenInput elements e ∧ TakenButton elements e' ∧ AsksFor "textbox" e input ∧
    AsksFor "button" e' button ∧ test = .adding call input button

/-- The method by which a client is asked, which is `get` if none is known. -/
inductive AskedBy (api : NetworkCall) : String → Prop
  | own {method : String} (has : api.method = some method) (nonempty : method ≠ "") : AskedBy api method
  | get (none : api.method.getD "" = "") : AskedBy api "get"

/-- A test answers the first network call of the component with its row. -/
inductive PrintsLoading (c : Component) (call : String) : PrintedTest → Prop
  | fetch {api : NetworkCall} (first : c.apis.head? = some api) (kind : api.kind = .fetch) :
      PrintsLoading c call
        (.fetching call (Json.array [.object (Row.ofElements c.elements)]).compact)
  | axios {api : NetworkCall} {method : String} (first : c.apis.head? = some api)
      (kind : api.kind = .axios) (asked : AskedBy api method) :
      PrintsLoading c call (.requesting call method
        (Json.object [("data", .array [.object (Row.ofElements c.elements)])]).compact)

/-- The tests of a component as they are printed, kind by kind. -/
structure PrintedInOrder (c : Component) (call : String)
    (tests presence typing adding loading : List PrintedTest) : Prop where
  order : tests = .smoke call :: (presence ++ typing ++ adding ++ loading)
  presence : PrintedPresence c.elements call presence
  typing : OneIf (∃ e ∈ c.elements, IsInput e) (PrintsTyping c.elements call) typing
  adding : OneIf ((∃ e ∈ c.elements, IsInput e) ∧ ∃ e ∈ c.elements, IsButton e)
    (PrintsAdding c.elements call) adding
  loading : OneIf (c.hasEffects = true ∧ c.apis ≠ []) (PrintsLoading c call) loading

/-! ## Tests and what is printed for them -/

end Suite

/-- What is printed for a test. -/
def TestCase.printed (call : String) (test : TestCase) : PrintedTest where
  title := test.title
  waits := test.isAsync
  body := test.body call

namespace Suite

variable {c : Component} {elements : List Element} {e : Element} {call role : String}

theorem flatMap_lines (call : String) (tests : List TestCase) :
    tests.flatMap (TestCase.lines call) = (tests.map (TestCase.printed call)).flatMap PrintedTest.lines := by
  rw [List.flatMap_map]
  rfl

theorem body_element (number : Nat) (query : Query) (e : Element) :
    (TestCase.element number query (Query.present e.text)).body call =
      [call, "const el = " ++ query.render ++ ";", PrintedTest.expectation e] := by
  rw [PrintedTest.expectation]
  rcases present_cases e.text with ⟨blank, present_eq⟩ | ⟨text, text_eq, nonempty, present_eq⟩
  · rw [if_pos blank, present_eq]
    rfl
  · rw [present_eq, text_eq, Option.getD_some, if_neg nonempty]
    rfl

theorem printed_element (number : Nat) (query : Query) (e : Element) :
    (TestCase.element number query (Query.present e.text)).printed call =
      .element call number query.render e := by
  rw [TestCase.printed, body_element]
  rfl

theorem Presence.printed {tests : List TestCase} (h : Presence elements tests) (call : String) :
    PrintedPresence elements call (tests.map (TestCase.printed call)) where
  length := by rw [List.length_map, h.length, tested_eq]
  numbered i hi := by
    rw [List.length_map] at hi
    obtain ⟨e, query, element_eq, query_eq, test_eq⟩ := h.numbered i hi
    rw [tested_eq] at element_eq
    refine ⟨e, query.render, element_eq, finds_of_ofElement? query_eq, ?_⟩
    rw [List.getElem_map, test_eq, printed_element]

theorem asksFor_ofIdUnless (role : String) (e : Element) :
    AsksFor role e (Query.ofIdUnless role e).render := by
  rw [Query.ofIdUnless]
  split
  · rename_i plays
    exact .byRole (.inl plays)
  · rename_i other
    rcases present_cases e.stableId with ⟨blank, present_eq⟩ | ⟨id, id_eq, nonempty, present_eq⟩
    · rw [present_eq]
      exact .byRole (.inr blank)
    · rw [present_eq]
      exact .byTestId other id_eq nonempty

theorem askedBy_method (api : NetworkCall) : AskedBy api ((Query.present api.method).getD "get") := by
  rcases present_cases api.method with ⟨blank, present_eq⟩ | ⟨method, method_eq, nonempty, present_eq⟩
  · rw [present_eq]
    exact .get blank
  · rw [present_eq]
    exact .own method_eq nonempty

theorem IsTyping.printed {test : TestCase} (h : IsTyping elements test) :
    PrintsTyping elements call (test.printed call) := by
  obtain ⟨input, taken, rfl⟩ := h
  exact ⟨input, _, taken, asksFor_ofIdUnless _ _, rfl⟩

theorem IsAdding.printed {test : TestCase} (h : IsAdding elements test) :
    PrintsAdding elements call (test.printed call) := by
  obtain ⟨input, button, takenInput, takenButton, rfl⟩ := h
  exact ⟨input, button, _, _, takenInput, takenButton, asksFor_ofIdUnless _ _, asksFor_ofIdUnless _ _, rfl⟩

theorem IsLoading.printed {test : TestCase} (h : IsLoading c test) :
    PrintsLoading c call (test.printed call) := by
  obtain ⟨api, first, rfl⟩ := h
  unfold loadTest
  cases kind : api.kind with
  | fetch => exact .fetch first kind
  | axios => exact .axios first kind (askedBy_method api)

theorem Arranged.printed {tests presence typing adding loading : List TestCase}
    (h : Arranged c tests presence typing adding loading) (call : String) :
    PrintedInOrder c call (tests.map (TestCase.printed call)) (presence.map (TestCase.printed call))
      (typing.map (TestCase.printed call)) (adding.map (TestCase.printed call))
      (loading.map (TestCase.printed call)) where
  order := by
    rw [h.order, List.map_cons, List.map_append, List.map_append, List.map_append]
    rfl
  presence := h.presence.printed call
  typing := h.typing.map fun _ => IsTyping.printed
  adding := h.adding.map fun _ => IsAdding.printed
  loading := h.loading.map fun _ => IsLoading.printed

/-- The block of a component's file consists of its tests, line by line, and no line before the block
opens one or a test: first the test that it renders, then one for each of the first six elements that
are tested, and at most one for an input, one for an input and a button, and one for its data. No two
of them have one title. -/
theorem block_of_textFor (path : Path) (c : Component) :
    ∃ preamble tests presence typing adding loading,
      textFor path (some c) = "\n".intercalate (preamble ++
        ["describe(\"" ++ path.stem ++ " component\", () => \x7b"] ++
        tests.flatMap PrintedTest.lines ++ ["\x7d);", ""]) ∧
      (∀ line ∈ preamble, opens "describe(" line = false ∧ opens "  test(" line = false) ∧
      (tests.map PrintedTest.title).Nodup ∧
      PrintedInOrder c (callWith path.stem (passed c.props)) tests presence typing adding loading := by
  obtain ⟨presence, typing, adding, loading, arranged⟩ := exists_arranged path.stem c
  rw [← renderCall_ofComponent path.stem c]
  refine ⟨(ofComponent path.stem c).preamble, _, _, _, _, _, ?_, opens_preamble _, ?_,
    arranged.printed (ofComponent path.stem c).renderCall⟩
  · rw [← flatMap_lines]
    rfl
  · rw [List.map_map]
    exact arranged.ranked.nodup_titles

/-- A list, an item of it and a button, and an answer of the client. -/
def shoppingList : Component where
  name := "List"
  elements := [
    { tag := "li", stableId := some "todo-1", text := some "Milk" },
    { tag := "button", text := some "Buy (all)", roleHint := some "button" }]
  hasEffects := true
  apis := [{ kind := .axios }]

example : (ofComponent "List" shoppingList).cases.flatMap
    (TestCase.lines (ofComponent "List" shoppingList).renderCall) = [
    "  test(\"renders without crashing\", () => \x7b",
    "    render(<List />);",
    "    expect(true).toBe(true);",
    "  \x7d);",
    "",
    "  test(\"renders expected element #1\", () => \x7b",
    "    render(<List />);",
    "    const el = screen.getByRole(\"button\", \x7b name: /Buy \\(all\\)/i \x7d);",
    "    expect(el).toHaveTextContent(/Buy \\(all\\)/i);",
    "  \x7d);",
    "",
    "  test(\"loads data from axios on mount\", async () => \x7b",
    "    vi.mock(\"axios\", () => (\x7b",
    "      default: \x7b",
    "        get: vi.fn().mockResolvedValue(\x7b\"data\":[\x7b\"id\":1,\"username\":\"Eve\"\x7d]\x7d),",
    "      \x7d,",
    "    \x7d));",
    "    const axios = (await import(\"axios\")).default as any;",
    "    render(<List />);",
    "    expect(axios.get).toHaveBeenCalled();",
    "  \x7d);",
    ""] := by
  decide +kernel
end Suite

end SuiteDraft
