import SuiteDraft.Proofs.Json.Quotes
import SuiteDraft.Proofs.Keyed
import SuiteDraft.Proofs.Suite.Cases
import SuiteDraft.Proofs.Suite.Patterns

/-!
# The quoted texts of a test file

The words for roles, the test ids and the texts of mocked data are quoted in the tests, as string
literals; the samples for the props are quoted as the values of attributes. Each of them stands in
the file, and the former are read there as the texts that they were. A sample is so only if nothing
in it is escaped.
-/

namespace SuiteDraft

open Grammar (stringLiteral attributeString)
open Input (chars)
open Json (quote)
open Literal (ReadsAs)

/-! ## What the tests quote -/

namespace Query

/-- The text that a query quotes. -/
def quoted? : Query → Option String
  | byRole role _ => some role
  | byTestId id => some id
  | byText _ => none

theorem infix_quoted {query : Query} {text : String} (h : query.quoted? = some text) :
    (quote text).toList <:+: query.render.toList := by
  cases query with
  | byRole role name? =>
    rw [← Option.some.inj h]
    cases name? with
    | none => exact Pattern.infix_between "screen.getByRole(" (quote role) ")"
    | some name =>
      show _ <:+: ("screen.getByRole(" ++ quote role ++ ", \x7b name: " ++ Pattern.literal name ++
        " \x7d)").toList
      rw [String.append_assoc, String.append_assoc]
      exact Pattern.infix_between _ _ _
  | byTestId id =>
    rw [← Option.some.inj h]
    exact Pattern.infix_between "screen.getByTestId(" (quote id) ")"
  | byText _ => cases h

theorem quoted?_ofElement? {e : Element} {query : Query} {text : String}
    (h : ofElement? e = some query) (quoted : query.quoted? = some text) :
    (∃ role, e.roleHint = some role ∧ screenRole role = some text) ∨ e.stableId = some text := by
  rcases ofElement?_cases h with ⟨role, word, plays, asked, rfl⟩ | ⟨id, stable, rfl⟩ | ⟨own, _, rfl⟩
  · cases quoted
    exact .inl ⟨role, plays, asked⟩
  · cases quoted
    exact .inr (present_eq_some_iff.mp stable).1
  · cases quoted

theorem quoted?_ofIdUnless {role : String} {e : Element} {text : String}
    (h : (ofIdUnless role e).quoted? = some text) : text = role ∨ e.stableId = some text := by
  unfold ofIdUnless at h
  split at h
  · exact .inl (Option.some.inj h).symm
  · cases stable : present e.stableId with
    | none =>
      rw [stable] at h
      exact .inl (Option.some.inj h).symm
    | some id =>
      rw [stable] at h
      exact .inr (Option.some.inj h ▸ (present_eq_some_iff.mp stable).1)

end Query

namespace Row

/-- The text of a value that is a text. -/
def text? : Json → Option String
  | .string text => some text
  | _ => none

/-- The texts in a row: its names, and the values that are texts. -/
def texts (row : Keyed Json) : List String :=
  row.flatMap fun entry => entry.1 :: (text? entry.2).toList

theorem mem_compactMembers {row : Keyed Json} {name : String} {value : Json}
    (h : (name, value) ∈ row) : quote name ++ ":" ++ value.compact ∈ Json.compactMembers row := by
  induction row with
  | nil => cases h
  | cons entry row ih =>
    rw [Json.compactMembers]
    rcases List.mem_cons.mp h with here | h
    · rw [← here]
      exact List.mem_cons_self
    · exact List.mem_cons_of_mem _ (ih h)

theorem infix_texts {row : Keyed Json} {text : String} (h : text ∈ texts row) :
    (quote text).toList <:+: (Json.object row).compact.toList := by
  have ⟨⟨name, value⟩, mem, part⟩ := List.mem_flatMap.mp h
  have entry : (quote text).toList <:+: (quote name ++ ":" ++ value.compact).toList := by
    rw [String.toList_append]
    rcases List.mem_cons.mp part with rfl | part
    · rw [String.toList_append]
      exact ((List.prefix_append _ _).trans (List.prefix_append _ _)).isInfix
    · cases value with
      | string own =>
        rw [List.mem_singleton.mp part, Json.compact]
        exact (List.suffix_append _ _).isInfix
      | _ => cases part
  have members : (quote name ++ ":" ++ value.compact).toList <:+:
      (",".intercalate (Json.compactMembers row)).toList := by
    rw [String.toList_intercalate]
    exact Suite.infix_of_mem_intercalate (List.mem_map_of_mem (mem_compactMembers mem))
  rw [Json.compact]
  exact (entry.trans members).trans (Pattern.infix_between _ _ _)

theorem mem_ofNames {names : List String} {name : String} {value : Json}
    (h : (name, value) ∈ ofNames names) : name ∈ names ∧ value = .string (sample name) := by
  -- from the right, as the row is filled
  induction names using List.reverseRecOn with
  | nil => cases h
  | append_singleton names last ih =>
    rw [ofNames, List.foldl_append] at h
    rcases Keyed.mem_put h with before | ⟨rfl, rfl⟩
    · exact ⟨List.mem_append_left _ (ih before).1, (ih before).2⟩
    · exact ⟨List.mem_append_right _ List.mem_cons_self, rfl⟩

theorem texts_ofElements {elements : List Element} {text : String}
    (h : text ∈ texts (ofElements elements)) :
    (boundNames elements = [] ∧ text ∈ texts fallback) ∨
      ∃ name ∈ boundNames elements, text = name ∨ text = sample name := by
  rw [ofElements] at h
  cases names_eq : boundNames elements with
  | nil =>
    rw [names_eq] at h
    exact .inl ⟨rfl, h⟩
  | cons first names =>
    rw [names_eq] at h
    have ⟨⟨name, value⟩, mem, part⟩ := List.mem_flatMap.mp h
    have ⟨bound, value_eq⟩ := mem_ofNames mem
    refine .inr ⟨name, bound, ?_⟩
    rw [value_eq] at part
    rcases List.mem_cons.mp part with own | part
    · exact .inl own
    · exact .inr (List.mem_singleton.mp part)

end Row

namespace TestCase

/-- The texts that a test quotes. -/
def quoted : TestCase → List String
  | smoke => []
  | element _ query _ => query.quoted?.toList
  | typing input => input.quoted?.toList
  | adding input button => input.quoted?.toList ++ button.quoted?.toList
  | fetching row => Row.texts row
  | requesting _ row => Row.texts row

theorem infix_body {test : TestCase} {text : String} (h : text ∈ test.quoted) (call : String) :
    ∃ line ∈ test.body call, (quote text).toList <:+: line.toList := by
  have hquery : ∀ {query : Query} (name : String), text ∈ query.quoted?.toList →
      (quote text).toList <:+: ("const " ++ name ++ " = " ++ query.render ++ ";").toList :=
    fun name h => (Query.infix_quoted (Option.mem_toList.mp h)).trans (Pattern.infix_between _ _ _)
  have hrow : ∀ {row : Keyed Json}, text ∈ Row.texts row →
      (quote text).toList <:+: (Json.array [.object row]).compact.toList :=
    fun h => (Row.infix_texts h).trans (Pattern.infix_between _ _ _)
  cases test with
  | smoke => cases h
  | element number query text? => exact ⟨_, by simp [body], hquery "el" h⟩
  | typing input => exact ⟨_, by simp [body], hquery "input" h⟩
  | adding input button =>
    rcases List.mem_append.mp h with h | h
    · exact ⟨_, by simp [body], hquery "input" h⟩
    · exact ⟨_, by simp [body], hquery "button" h⟩
  | fetching row =>
    refine ⟨_, .tail _ (.tail _ List.mem_cons_self), (hrow h).trans ?_⟩
    exact Pattern.infix_between _ _ _
  | requesting method row =>
    have answer : (Json.array [.object row]).compact.toList <:+:
        (Json.object [("data", .array [.object row])]).compact.toList := by
      show _ <:+: ("\x7b" ++ (quote "data" ++ ":" ++ (Json.array [.object row]).compact) ++
        "\x7d").toList
      refine List.IsInfix.trans ?_ (Pattern.infix_between _ _ _)
      rw [String.toList_append]
      exact (List.suffix_append _ _).isInfix
    refine ⟨_, .tail _ (.tail _ List.mem_cons_self), ((hrow h).trans answer).trans ?_⟩
    exact Pattern.infix_between _ _ _

end TestCase

/-! ## Where the quoted texts come from -/

/-- The texts known of a component that its tests quote: words for roles, test ids, and the names
that its properties read, with their samples, or else the row that stands for none. -/
inductive Known (c : Component) : String → Prop
  | role {e : Element} {role word : String} (mem : e ∈ c.elements) (plays : e.roleHint = some role)
      (asked : Query.screenRole role = some word) : Known c word
  | anyInput : Known c "textbox"
  | anyButton : Known c "button"
  | id {e : Element} {id : String} (mem : e ∈ c.elements) (stable : e.stableId = some id) : Known c id
  | name {name : String} (read : name ∈ Row.boundNames c.elements) : Known c name
  | sample {name : String} (read : name ∈ Row.boundNames c.elements) : Known c (sample name)
  | fallback {text : String} (none : Row.boundNames c.elements = [])
      (mem : text ∈ Row.texts Row.fallback) : Known c text

namespace Suite

variable {c : Component} {text : String}

theorem known_search {role : String} {e : Element} (any : Known c role) (mem : e ∈ c.elements)
    (h : (Query.ofIdUnless role e).quoted? = some text) : Known c text := by
  rcases Query.quoted?_ofIdUnless h with rfl | stable
  · exact any
  · exact .id mem stable

theorem known_row (h : text ∈ Row.texts (Row.ofElements c.elements)) : Known c text := by
  rcases Row.texts_ofElements h with ⟨none, mem⟩ | ⟨name, read, rfl | rfl⟩
  · exact .fallback none mem
  · exact .name read
  · exact .sample read

theorem known_of_quoted {tests presence typing adding loading : List TestCase} {test : TestCase}
    (arranged : Arranged c tests presence typing adding loading) (mem : test ∈ tests)
    (h : text ∈ test.quoted) : Known c text := by
  rw [arranged.order] at mem
  simp only [List.mem_cons, List.mem_append] at mem
  rcases mem with rfl | ((inPresence | inTyping) | inAdding) | inLoading
  · cases h
  · have ⟨i, hi, test_eq⟩ := List.mem_iff_getElem.mp inPresence
    have ⟨e, query, element_eq, query_eq, case_eq⟩ := arranged.presence.numbered i hi
    have inside : e ∈ c.elements := (List.mem_filter.mp (List.mem_of_getElem? element_eq)).1
    rw [← test_eq, case_eq] at h
    rcases Query.quoted?_ofElement? query_eq (Option.mem_toList.mp h) with ⟨role, plays, asked⟩ | stable
    · exact .role inside plays asked
    · exact .id inside stable
  · have ⟨input, taken, test_eq⟩ := arranged.typing.such inTyping
    rw [test_eq] at h
    exact known_search .anyInput taken.mem (Option.mem_toList.mp h)
  · have ⟨input, button, takenInput, takenButton, test_eq⟩ := arranged.adding.such inAdding
    rw [test_eq] at h
    rcases List.mem_append.mp h with h | h
    · exact known_search .anyInput takenInput.mem (Option.mem_toList.mp h)
    · exact known_search .anyButton takenButton.mem (Option.mem_toList.mp h)
  · have ⟨api, _, test_eq⟩ := arranged.loading.such inLoading
    rw [test_eq, loadTest] at h
    cases kind : api.kind <;> rw [kind] at h <;> exact known_row h

/-! ## Where they stand -/

theorem chars_source {s : Suite} {before part after : String} (h : s.render = before ++ part ++ after) :
    chars (s.source.drop before.length) = part.toList ++ after.toList := by
  rw [Input.chars_drop, source, (Input.Spells.of_text _).chars_eq, h, String.toList_append,
    String.toList_append, List.append_assoc, ← String.length_toList, List.drop_left]

theorem numbered_source (s : Suite) (n : Nat) : Input.Numbered (s.source.drop n) :=
  (Input.numbered_ofGlyphs _).drop n

/-- A part of a file has a place there. -/
theorem exists_place {s : Suite} {part : String} (h : part.toList <:+: s.render.toList) :
    ∃ before after, s.render = before ++ part ++ after := by
  have ⟨before, after, split⟩ := h
  refine ⟨String.ofList before, String.ofList after, String.toList_inj.mp ?_⟩
  rw [String.toList_append, String.toList_append, String.toList_ofList, String.toList_ofList, split]

theorem infix_quoted {s : Suite} {test : TestCase} (mem : test ∈ s.cases) (h : text ∈ test.quoted) :
    (quote text).toList <:+: s.render.toList := by
  have ⟨line, inBody, stands⟩ := TestCase.infix_body h s.renderCall
  exact stands.trans (infix_render mem inBody)

theorem infix_attribute {s : Suite} {name value : String} (h : (name, value) ∈ s.attributes) :
    (name ++ "=" ++ quote value).toList <:+: s.renderCall.toList := by
  let attributes := s.attributes.map fun a => " " ++ a.1 ++ "=" ++ quote a.2
  have own : " " ++ name ++ "=" ++ quote value ∈ attributes :=
    List.mem_map.mpr ⟨(name, value), h, rfl⟩
  have all : (" " ++ name ++ "=" ++ quote value).toList <:+: (String.join attributes).toList := by
    rw [String.toList_join, List.flatMap_def]
    exact List.infix_of_mem_flatten (List.mem_map_of_mem own)
  have front : (name ++ "=" ++ quote value).toList <:+:
      (" " ++ name ++ "=" ++ quote value).toList := by
    refine ⟨[' '], [], ?_⟩
    simp
  exact (front.trans all).trans (Pattern.infix_between ("render(<" ++ s.subject) _ " />);")

theorem infix_sample (subject : String) {name : String} (h : name ∈ passed c.props) :
    (name ++ "=" ++ quote (sample name)).toList <:+: (ofComponent subject c).render.toList := by
  have own : (name, sample name) ∈ (ofComponent subject c).attributes := by
    show _ ∈ attributesOf c.props
    rw [attributesOf_eq]
    exact List.mem_map_of_mem (f := fun name => (name, sample name)) h
  have smoke : TestCase.smoke ∈ (ofComponent subject c).cases := List.mem_cons_self
  exact (infix_attribute own).trans (infix_render smoke List.mem_cons_self)

/-- A quoted text is on one line, no other text is quoted so, and wherever it stands it is a string
literal of the text. As the value of an attribute it is so, if it has no reference, just when nothing
in it is escaped. Every text that a test of a component quotes is known of the component, and stands
in its file as such a literal; so do the samples for the props, as values of attributes. -/
theorem quotes_of_ofComponent (path : Path) (c : Component) :
    (∀ text : String,
      (∀ d ∈ (quote text).toList, 32 ≤ d.toNat) ∧
      (∀ other, quote text = quote other → text = other) ∧
      ∀ (glyphs : List Glyph) (start : Nat) (after : List Char),
        chars ((Input.ofGlyphs glyphs).drop start) = (quote text).toList ++ after →
          ReadsAs stringLiteral ((Input.ofGlyphs glyphs).drop start) (quote text).length text ∧
          ('&' ∉ text.toList →
            (ReadsAs (attributeString '"') ((Input.ofGlyphs glyphs).drop start) (quote text).length
              text ↔ Json.Unescaped text.toList))) ∧
    (∀ test ∈ (ofComponent path.stem c).cases, ∀ text ∈ test.quoted, Known c text ∧
      ∃ before after, (ofComponent path.stem c).render = before ++ quote text ++ after ∧
        ReadsAs stringLiteral ((ofComponent path.stem c).source.drop before.length)
          (quote text).length text) ∧
    ∀ name ∈ passed c.props, ∃ before after,
      (ofComponent path.stem c).render = before ++ (name ++ "=" ++ quote (sample name)) ++ after ∧
      ('&' ∉ (sample name).toList →
        (ReadsAs (attributeString '"')
          ((ofComponent path.stem c).source.drop (before ++ (name ++ "=")).length)
          (quote (sample name)).length (sample name) ↔ Json.Unescaped (sample name).toList)) := by
  refine ⟨fun text => ⟨Json.visible_quote text, fun _ => Json.quote_injective, ?_⟩, ?_, ?_⟩
  · intro glyphs start after stands
    have numbered := (Input.numbered_ofGlyphs glyphs).drop start
    exact ⟨Json.quote_readsAs numbered stands,
      fun noReference => Json.quote_readsAs_attribute_iff noReference numbered stands⟩
  · intro test mem text quoted
    have ⟨presence, typing, adding, loading, arranged⟩ := exists_arranged path.stem c
    have ⟨before, after, split⟩ := exists_place (infix_quoted mem quoted)
    refine ⟨known_of_quoted arranged mem quoted, before, after, split, ?_⟩
    exact Json.quote_readsAs (numbered_source _ _) (chars_source split)
  · intro name mem
    have ⟨before, after, split⟩ := exists_place (infix_sample path.stem mem)
    have place : (ofComponent path.stem c).render =
        before ++ (name ++ "=") ++ quote (sample name) ++ after := by
      rw [split]
      simp only [String.append_assoc]
    exact ⟨before, after, split, fun noReference =>
      Json.quote_readsAs_attribute_iff noReference (numbered_source _ _) (chars_source place)⟩

/-- A component whose one element has a test id full of marks, with a letter behind a backslash. -/
def marked : Component where
  name := "A"
  elements := [{ tag := "p", stableId := some "\"\\u0041\n" }]
  props := ["title"]

theorem quotes_of_marked :
    TestCase.element 1 (.byTestId "\"\\u0041\n") none ∈ (ofComponent "A" marked).cases ∧
      "title" ∈ passed marked.props ∧
      (∃ before after, (ofComponent "A" marked).render = before ++ quote "\"\\u0041\n" ++ after ∧
        ReadsAs stringLiteral ((ofComponent "A" marked).source.drop before.length)
          (quote "\"\\u0041\n").length "\"\\u0041\n") ∧
      ∃ before after, (ofComponent "A" marked).render =
          before ++ ("title" ++ "=" ++ quote (sample "title")) ++ after ∧
        ReadsAs (attributeString '"')
          ((ofComponent "A" marked).source.drop (before ++ ("title" ++ "=")).length)
          (quote (sample "title")).length (sample "title") := by
  have stem_eq : (Path.ofString "A.tsx").stem = "A" := by decide +kernel
  have test : TestCase.element 1 (.byTestId "\"\\u0041\n") none ∈ (ofComponent "A" marked).cases := by
    have found : findable marked.elements =
        [({ tag := "p", stableId := some "\"\\u0041\n" }, .byTestId "\"\\u0041\n")] := by
      decide +kernel
    refine List.mem_append_left _ (List.mem_append_left _ (.tail _ ?_))
    rw [elementCases, found]
    exact List.mem_cons_self
  have named : "title" ∈ passed marked.props := by decide
  have noReference : '&' ∉ (sample "title").toList := by decide +kernel
  have plain : Json.Unescaped (sample "title").toList := by
    have checked : (sample "title").toList.all (fun c => Json.escapeChar c = [c]) = true := by
      decide +kernel
    intro c hc
    simpa using List.all_eq_true.mp checked c hc
  have quotes := quotes_of_ofComponent (Path.ofString "A.tsx") marked
  rw [stem_eq] at quotes
  obtain ⟨_, texts, samples⟩ := quotes
  obtain ⟨before, after, split, reads⟩ := samples "title" named
  exact ⟨test, named, (texts _ test _ List.mem_cons_self).2, before, after, split,
    (reads noReference).mpr plain⟩

/-- A component with a prop whose name is written with an escape. -/
def escapedName : Component where
  name := "A"
  elements := [{ tag := "p" }]
  props := ["\\u0061"]

/-- A file that is analysed as such a component. -/
def escapedNameSource : String := "export default function A(\x7b\\u0061\x7d)\x7breturn <p/>\x7d"

/-- Its test file is free of faults, but the sample is another text there: it has two backslashes. -/
theorem quotes_of_escapedNameSource :
    (Report.ofText "A.tsx" escapedNameSource).outcome.toOption = some escapedName ∧
      (Path.ofString "A.tsx").stem = "A" ∧ sample "\\u0061" = "Sample \\u0061" ∧
      (Grammar.treeOf .markup (ofComponent "A" escapedName).source).hasFault = false ∧
      ∃ before after, (ofComponent "A" escapedName).render =
          before ++ ("\\u0061=" ++ quote "Sample \\u0061") ++ after ∧
        ReadsAs (attributeString '"')
          ((ofComponent "A" escapedName).source.drop (before ++ "\\u0061=").length)
          (quote "Sample \\u0061").length "Sample \\\\u0061" ∧
        ¬ ReadsAs (attributeString '"')
          ((ofComponent "A" escapedName).source.drop (before ++ "\\u0061=").length)
          (quote "Sample \\u0061").length "Sample \\u0061" := by
  have sample_eq : sample "\\u0061" = "Sample \\u0061" := by decide +kernel
  have noFault : (Grammar.treeOf .markup (ofComponent "A" escapedName).source).hasFault = false := by
    rw [source, Glyph.ofText, render, String.toList_intercalate]
    decide +kernel
  have named : "\\u0061" ∈ passed escapedName.props := by decide
  have stands := infix_sample "A" named
  have start_eq : "\\u0061" ++ "=" = "\\u0061=" := by decide +kernel
  rw [start_eq, sample_eq] at stands
  obtain ⟨before, after, split⟩ := exists_place stands
  have place : (ofComponent "A" escapedName).render =
      before ++ "\\u0061=" ++ quote "Sample \\u0061" ++ after := by
    rw [split]
    simp only [String.append_assoc]
  have here := chars_source place
  have numbered := numbered_source (ofComponent "A" escapedName) (before ++ "\\u0061=").length
  refine ⟨by decide +kernel, by decide +kernel, sample_eq, noFault, before, after, split, ?_, ?_⟩
  · have quote_eq : (quote "Sample \\u0061").toList =
        '"' :: ("Sample \\\\u0061".toList ++ ['"']) := by decide +kernel
    rw [quote_eq] at here
    have plain : ∀ d ∈ "Sample \\\\u0061".toList, d ≠ '"' ∧ d ≠ '&' := by simp
    rw [List.cons_append, List.append_assoc] at here
    have reads := Json.attributeString_readsAs plain numbered here
    have length_eq : "Sample \\\\u0061".toList.length + 2 = (quote "Sample \\u0061").length := by
      decide +kernel
    rwa [length_eq, String.ofList_toList] at reads
  · have noReference : '&' ∉ "Sample \\u0061".toList := by simp
    rw [Json.quote_readsAs_attribute_iff noReference numbered here]
    intro plain
    exact absurd (plain '\\' (by simp)) (by decide)

end Suite

end SuiteDraft
