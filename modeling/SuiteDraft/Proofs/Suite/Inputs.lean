import SuiteDraft.Proofs.Analysis.Elements
import SuiteDraft.Proofs.Suite.Cases
import SuiteDraft.Proofs.Suite.Patterns

/-!
# The input that a test types into

A test that types finds its input by the role of a textbox, or else by a test id. The role goes with
the tag or with an attribute, and a `type` other than `text` rules it out. But an input that is taken
for its tag alone and has no test id is looked for by the role all the same.
-/

namespace SuiteDraft

/-! ## Textboxes -/

namespace Role

/-- There is a `type` attribute under which a textbox does not keep its role. -/
def RulesOut (properties : Keyed PropertyValue) : Prop :=
  ∃ value, properties.get? "type" = some value ∧ value ≠ .text "text"

theorem keepsTextbox_eq_true_iff {properties : Keyed PropertyValue} :
    keepsTextbox (properties.get? "type") = true ↔ ¬ RulesOut properties := by
  unfold RulesOut
  cases properties.get? "type" with
  | none => simp [keepsTextbox]
  | some value => cases value <;> simp [keepsTextbox]

/-- A textbox is what is declared to be one and has no `type` that rules it out. -/
theorem infer_eq_textbox_iff {tag : String} {properties : Keyed PropertyValue} :
    infer tag properties = some "textbox" ↔
      declared tag properties = some "textbox" ∧ ¬ RulesOut properties := by
  rw [← keepsTextbox_eq_true_iff]
  unfold infer
  split
  · rename_i isTextbox
    simp [isTextbox]
  · rename_i notTextbox
    exact ⟨fun h => absurd h notTextbox, fun h => absurd h.1 notTextbox⟩

end Role

/-! ## Queries for a textbox -/

namespace Query

theorem screenRole_eq_textbox {role : String} (h : screenRole role = some "textbox") :
    role = "textbox" := by
  unfold screenRole at h
  split at h
  case h_3 => rfl
  all_goals simp at h

/-- Only for an element that plays the role does a test of its presence ask for a textbox. -/
theorem roleHint_of_ofElement? {e : Element} {name? : Option String}
    (h : ofElement? e = some (.byRole "textbox" name?)) : e.roleHint = some "textbox" := by
  rcases ofElement?_cases h with ⟨role, word, plays, asked, query_eq⟩ | ⟨_, _, query_eq⟩ |
    ⟨_, _, query_eq⟩
  · cases query_eq
    rw [plays, screenRole_eq_textbox asked]
  · cases query_eq
  · cases query_eq

theorem render_byTestId_ne (id role : String) : (byTestId id).render ≠ (byRole role none).render := by
  unfold render
  intro same
  rw [← String.toList_inj] at same
  simp at same

/-- An element is looked for as anything that plays a role if it plays that role, or if it has no
test id. -/
theorem render_ofIdUnless_eq_iff {role : String} {e : Element} :
    (ofIdUnless role e).render = (byRole role none).render ↔
      e.roleHint = some role ∨ present e.stableId = none := by
  unfold ofIdUnless
  split
  · rename_i plays
    exact ⟨fun _ => .inl plays, fun _ => rfl⟩
  · rename_i plays
    cases present e.stableId with
    | none => exact ⟨fun _ => .inr rfl, fun _ => rfl⟩
    | some id => simp [plays, render_byTestId_ne]

end Query

/-! ## The lines that name an input -/

namespace TestCase

open Suite (opens)

/-- The query by which a test finds the input that it types into. -/
def inputQuery? : TestCase → Option Query
  | typing input => some input
  | adding input _ => some input
  | _ => none

/-- The line that names an input. -/
def inputLine (query : Query) : String := "const input = " ++ query.render ++ ";"

theorem filter_inputs_body (test : TestCase) {call : String} (h : opens "render(" call = true) :
    (test.body call).filter (opens "const input = ") = (test.inputQuery?.map inputLine).toList := by
  have notInput :
      ¬ ['c', 'o', 'n', 's', 't', ' ', 'i', 'n', 'p', 'u', 't', ' ', '=', ' '] <+: call.toList := by
    have ⟨_, call_eq⟩ := List.isPrefixOf_iff_prefix.mp h
    simp [← call_eq]
  unfold inputLine
  cases test with
  | element number query text? =>
    cases text? <;>
      simp [body, inputQuery?, opens, List.isPrefixOf, notInput]
  | _ => simp [body, typingLines, inputQuery?, opens, List.isPrefixOf, notInput]

theorem filter_inputs_lines (test : TestCase) {call : String} (h : opens "render(" call = true) :
    (test.lines call).filter (opens "    const input = ") =
      (test.inputQuery?.map fun query => "    " ++ inputLine query).toList := by
  have word : "    const input = " = "    " ++ "const input = " := by decide +kernel
  rw [word, test.filter_margin_lines, test.filter_inputs_body h]
  cases test.inputQuery? <;> rfl

end TestCase

namespace Suite

/-- The lines that name an input are those of the tests that type, in order. -/
theorem filter_inputs (s : Suite) : s.lines.filter (opens "    const input = ") =
    (s.cases.filterMap TestCase.inputQuery?).map fun query => "    " ++ TestCase.inputLine query := by
  rw [filter_opens_lines (by decide), List.map_filterMap, List.filterMap_eq_flatMap_toList]
  simp only [TestCase.filter_inputs_lines _ s.opens_renderCall]

/-- The tests that type find their input as the one that is taken. -/
theorem mem_inputQueries_iff {subject : String} {c : Component} {query : Query} :
    query ∈ (ofComponent subject c).cases.filterMap TestCase.inputQuery? ↔
      ∃ e, input? c.elements = some e ∧ query = Query.ofIdUnless "textbox" e := by
  have elementQueries : (elementCases c.elements).filterMap TestCase.inputQuery? = [] := by
    rw [List.filterMap_eq_nil_iff]
    intro test mem
    have ⟨_, _, _, _, _, test_eq⟩ := mem_elementCases mem
    rw [test_eq]
    rfl
  have loadQueries : (loadCases c).filterMap TestCase.inputQuery? = [] := by
    rw [List.filterMap_eq_nil_iff]
    intro test mem
    have ⟨api, _, test_eq⟩ := (oneIf_loadCases c).such mem
    rw [test_eq, loadTest]
    cases api.kind <;> rfl
  have queries_eq : (ofComponent subject c).cases.filterMap TestCase.inputQuery? =
      (inputCases c.elements).filterMap TestCase.inputQuery? := by
    show (.smoke :: elementCases c.elements ++ inputCases c.elements ++ loadCases c).filterMap _ = _
    rw [List.filterMap_append, loadQueries, List.append_nil, List.cons_append,
      List.filterMap_cons_none rfl, List.filterMap_append, elementQueries, List.nil_append]
  rw [queries_eq, inputCases]
  cases input? c.elements with
  | none => simp
  | some input => cases button? c.elements <;> simp [TestCase.inputQuery?]

/-! ## What is asked for as a textbox -/

/-- The line that takes anything that is a textbox as the input. -/
def textboxLine : String := "    const input = screen.getByRole(\"textbox\");"

theorem textboxLine_eq : textboxLine = "    " ++ TestCase.inputLine (.byRole "textbox" none) := by
  decide +kernel

theorem inputLine_eq_textboxLine_iff {e : Element} :
    "    " ++ TestCase.inputLine (Query.ofIdUnless "textbox" e) = textboxLine ↔
      e.roleHint = some "textbox" ∨ Query.present e.stableId = none := by
  rw [textboxLine_eq, String.append_right_inj]
  unfold TestCase.inputLine
  rw [String.append_left_inj, String.append_right_inj, Query.render_ofIdUnless_eq_iff]

theorem textboxLine_mem_iff {subject : String} {c : Component} :
    textboxLine ∈ (ofComponent subject c).lines ↔ ∃ e, input? c.elements = some e ∧
      (e.roleHint = some "textbox" ∨ Query.present e.stableId = none) := by
  have opening : opens "    const input = " textboxLine = true := by decide
  calc textboxLine ∈ (ofComponent subject c).lines
      ↔ textboxLine ∈ (ofComponent subject c).lines.filter (opens "    const input = ") := by
        rw [List.mem_filter, and_iff_left opening]
    _ ↔ ∃ query ∈ (ofComponent subject c).cases.filterMap TestCase.inputQuery?,
          "    " ++ TestCase.inputLine query = textboxLine := by
        rw [filter_inputs, List.mem_map]
    _ ↔ _ := by
        constructor
        · rintro ⟨query, mem, line_eq⟩
          have ⟨e, taken, query_eq⟩ := mem_inputQueries_iff.mp mem
          rw [query_eq] at line_eq
          exact ⟨e, taken, inputLine_eq_textboxLine_iff.mp line_eq⟩
        · rintro ⟨e, taken, asked⟩
          exact ⟨_, mem_inputQueries_iff.mpr ⟨e, taken, rfl⟩, inputLine_eq_textboxLine_iff.mpr asked⟩

/-- An input that is taken for its tag alone, since no element plays the role or has the test id,
and that has no test id to be found by. -/
structure Stray (elements : List Element) (e : Element) : Prop where
  others : ∀ other ∈ elements, ¬ Plays "textbox" "user-input" other
  first : IsFirst (fun other => Text.lowerLatin other.tag = "input") elements e
  unmarked : Query.present e.stableId = none

namespace Stray

variable {elements : List Element} {e : Element}

theorem input?_eq (h : Stray elements e) : input? elements = some e := by
  have ⟨before, after, split, tagged, earlier⟩ := h.first
  rw [input?, elementFor?_eq_or, Option.or_eq_some_iff]
  refine .inr ⟨List.find?_eq_none.mpr fun other mem plays => ?_, ?_⟩
  · exact h.others other mem ((plays_iff _ _ other).mp plays)
  · rw [List.find?_eq_some_iff_append]
    refine ⟨decide_eq_true tagged, before, after, split, fun other mem => ?_⟩
    rw [decide_eq_false (earlier other mem)]
    rfl

theorem roleHint_ne (h : Stray elements e) : e.roleHint ≠ some "textbox" :=
  fun plays => h.others e h.first.mem (.inl plays)

end Stray

theorem stray_iff {elements : List Element} {e : Element} (taken : input? elements = some e)
    (other : e.roleHint ≠ some "textbox") :
    Stray elements e ↔ Query.present e.stableId = none := by
  refine ⟨Stray.unmarked, fun unmarked => ?_⟩
  cases elementFor?_eq_some taken with
  | plays first =>
    have ⟨_, _, _, here, _⟩ := first
    rcases here with plays | id
    · exact absurd plays other
    · rw [id] at unmarked
      exact absurd unmarked (by decide)
  | tagged others first => exact ⟨others, first, unmarked⟩

/-- A file asks for a textbox as its input exactly when the input that is taken is one or is stray,
and a stray one never is. What is declared a textbox is one unless its `type` rules that out, and an
element whose `type` does is not asked for as a textbox where its presence is tested. -/
theorem textboxes_of_ofComponent {name : String} {tree : Tree} {c : Component}
    (analysed : (Report.ofTree name tree).outcome = .ok c) (path : Path) :
    textFor path (some c) = "\n".intercalate (ofComponent path.stem c).lines ∧
      (textboxLine ∈ (ofComponent path.stem c).lines ↔
        ∃ e, input? c.elements = some e ∧ (e.roleHint = some "textbox" ∨ Stray c.elements e)) ∧
      (∀ e, Stray c.elements e → input? c.elements = some e ∧ e.roleHint ≠ some "textbox") ∧
      (∀ e ∈ c.elements, e.roleHint = some "textbox" ↔
        Role.declared e.tag e.properties = some "textbox" ∧ ¬ Role.RulesOut e.properties) ∧
      ∀ e ∈ c.elements, Role.RulesOut e.properties →
        ∀ name?, Query.ofElement? e ≠ some (.byRole "textbox" name?) := by
  have isTextbox_iff : ∀ e ∈ c.elements, e.roleHint = some "textbox" ↔
      Role.declared e.tag e.properties = some "textbox" ∧ ¬ Role.RulesOut e.properties := by
    intro e mem
    rw [Analysis.roleHint_of_mem_elements analysed mem, Role.infer_eq_textbox_iff]
  refine ⟨rfl, ?_, fun e stray => ⟨stray.input?_eq, stray.roleHint_ne⟩, isTextbox_iff, ?_⟩
  · rw [textboxLine_mem_iff]
    refine exists_congr fun e => and_congr_right fun taken => ?_
    by_cases plays : e.roleHint = some "textbox"
    · simp only [plays, true_or]
    · simp only [plays, false_or, stray_iff taken plays]
  · intro e mem ruledOut name? asked
    exact ((isTextbox_iff e mem).mp (Query.roleHint_of_ofElement? asked)).2 ruledOut

/-- A form with an input for a search and a plain one. -/
def form : Component where
  name := "A"
  elements := [
    { tag := "form" },
    { tag := "input", properties := [("type", .text "search")] },
    { tag := "input", roleHint := some "textbox" }]

/-- A file that is analysed as such a form. -/
def formSource : Tree := Grammar.treeOf .markup <| .ofGlyphs <| Glyph.ofText
  "export default function A()\x7breturn <form><input type=\"search\"/><input/></form>\x7d"

/-- Of its inputs the second one is typed into, and no test asks for the first as a textbox. -/
theorem textboxes_of_formSource :
    (Report.ofTree "A.tsx" formSource).outcome = .ok form ∧
      textboxLine ∈ (ofComponent (Path.ofString "A.tsx").stem form).lines ∧
      ∀ e ∈ form.elements, Role.RulesOut e.properties →
        ∀ name?, Query.ofElement? e ≠ some (.byRole "textbox" name?) := by
  have analysed : (Report.ofTree "A.tsx" formSource).outcome = .ok form :=
    eq_ok_of_toOption (by decide +kernel)
  have taken : input? form.elements = some { tag := "input", roleHint := some "textbox" } := by
    decide +kernel
  have ⟨_, asked_iff, _, _, ruledOut⟩ := textboxes_of_ofComponent analysed (Path.ofString "A.tsx")
  exact ⟨analysed, asked_iff.mpr ⟨_, taken, .inl rfl⟩, ruledOut⟩

/-- An input whose `type` leaves it without a role. -/
def checkbox : Element where
  tag := "input"
  properties := [("type", .text "checkbox")]

/-- A file that has no other input than a checkbox. -/
def checkboxSource : String := "export default function A()\x7breturn <input type=\"checkbox\"/>\x7d"

/-- Its test asks for a textbox, though the only input is a checkbox and plays no role. -/
theorem textboxes_of_checkboxSource :
    (Report.ofText "A.tsx" checkboxSource).outcome.toOption =
        some { name := "A", elements := [checkbox] } ∧
      (Path.ofString "A.tsx").stem = "A" ∧
      textboxLine ∈ (ofComponent "A" { name := "A", elements := [checkbox] }).lines ∧
      input? [checkbox] = some checkbox ∧
      checkbox.roleHint ≠ some "textbox" ∧ Role.RulesOut checkbox.properties := by
  have taken : input? [checkbox] = some checkbox := by decide +kernel
  have unmarked : Query.present checkbox.stableId = none := by decide +kernel
  refine ⟨by decide +kernel, by decide +kernel, ?_, taken, by decide, ?_⟩
  · exact textboxLine_mem_iff.mpr ⟨checkbox, taken, .inr unmarked⟩
  · exact ⟨.text "checkbox", by decide +kernel, by decide⟩

end Suite

end SuiteDraft
