import SuiteDraft.Proofs.Suite.Mocks

/-!
# The lines of a test file as statements

Lines behind a margin are statements and gaps one after the other: a line is a statement, or a comment,
or begins a statement that goes on to a line further down.
-/

namespace SuiteDraft

open Grammar

variable {depth : Nat} {cs g : List Char} {margin first : String} {lines : List String}

/-- The text of lines behind a margin. -/
def linesChars (margin : String) (lines : List String) : List Char :=
  lines.flatMap fun line => margin.toList ++ (line.toList ++ ['\n'])

theorem linesChars_append (margin : String) (lines lines' : List String) :
    linesChars margin (lines ++ lines') = linesChars margin lines ++ linesChars margin lines' :=
  List.flatMap_append

theorem linesChars_map (margin : String) (lines : List String) :
    linesChars "" (lines.map (margin ++ ·)) = linesChars margin lines := by
  simp [linesChars, List.flatMap_map]

namespace Grammar.Script

theorem mono {depth' : Nat} (h : Script depth cs) (le : depth ≤ depth') : Script depth' cs := by
  induction h with
  | nil => exact .nil
  | gap gap _ ih => exact .gap gap ih
  | statement first _ ih => exact .statement (first.mono le) ih

theorem lines_append {lines' : List String} (h : Script depth (linesChars margin lines))
    (h' : Script depth (linesChars margin lines')) : Script depth (linesChars margin (lines ++ lines')) := by
  rw [linesChars_append]
  exact h.append h'

/-- What stands in braces, on lines of its own. -/
theorem within_lines (h : Script depth cs) (gap : IsGap g) : Script depth ('\n' :: (cs ++ g)) := by
  have script : Script depth (['\n'] ++ (cs ++ (g ++ []))) :=
    .gap (.of_blanks (by decide)) (h.append (.gap gap .nil))
  rwa [List.append_nil] at script

/-- Lines that are one statement. -/
theorem block_of_lines {block : List String} (gap : IsGap margin.toList) (h : Statement depth cs)
    (text_eq : linesChars margin block = margin.toList ++ (cs ++ ['\n'])) :
    Script depth (linesChars margin block) := by
  rw [text_eq]
  exact .gap gap (.statement h (.gap (.blank (by decide) .nil) .nil))

theorem line (gap : IsGap margin.toList) (h : Statement depth first.toList)
    (rest : Script depth (linesChars margin lines)) : Script depth (linesChars margin (first :: lines)) := by
  have alone : Script depth (linesChars margin [first]) :=
    block_of_lines gap h (List.append_nil _)
  exact lines_append alone rest

theorem comment {text : List Char} (gap : IsGap margin.toList) (first_eq : first.toList = '/' :: '/' :: text)
    (plain : ∀ c ∈ text, endsLine c = false)
    (rest : Script depth (linesChars margin lines)) : Script depth (linesChars margin (first :: lines)) := by
  have alone : Script depth (linesChars margin [first]) := by
    have text_eq : linesChars margin [first] = margin.toList ++ ('/' :: '/' :: (text ++ ['\n']) ++ []) := by
      simp [linesChars, first_eq]
    rw [text_eq, ← List.append_assoc]
    exact .gap (gap.append (.comment plain .nil)) .nil
  exact lines_append alone rest

theorem blank (gap : IsGap margin.toList) (rest : Script depth (linesChars margin lines)) :
    Script depth (linesChars margin ("" :: lines)) := by
  have alone : Script depth (linesChars margin [""]) := by
    have text_eq : linesChars margin [""] = margin.toList ++ ['\n'] ++ [] := by simp [linesChars]
    rw [text_eq]
    exact .gap (gap.append (.blank (by decide) .nil)) .nil
  exact lines_append alone rest

end Grammar.Script

/-! ## Steps on several lines -/

set_option maxRecDepth 2000 in
/-- What was added is the last item, or stands somewhere. -/
theorem script_choice (gap : IsGap margin.toList) : Script 21 (linesChars margin [
    "if (items.length) \x7b",
    "  expect(items[items.length - 1]).toHaveTextContent(new RegExp(value, \"i\"));",
    "\x7d else \x7b",
    "  // Fallback if no testids for items are present",
    "  expect(screen.getByText(new RegExp(value, \"i\"))).toBeInTheDocument();",
    "\x7d"]) := by
  have inner : IsGap (margin ++ "  ").toList := by
    rw [String.toList_append]
    exact gap.append (.of_blanks (by decide))
  have yes : Script 18 (linesChars (margin ++ "  ")
      ["expect(items[items.length - 1]).toHaveTextContent(new RegExp(value, \"i\"));"]) :=
    .line inner (step_last.mono (by decide)) .nil
  have no : Script 18 (linesChars (margin ++ "  ") ["// Fallback if no testids for items are present",
      "expect(screen.getByText(new RegExp(value, \"i\"))).toBeInTheDocument();"]) :=
    .comment inner String.toList_ofList (by decide) (.line inner step_anywhere .nil)
  have count : Expression 4 ("items".toList ++ '.' :: ("length".toList ++ [])) :=
    expression_name (isName_word rfl) (by decide) fun _ follows => .member (isName_word rfl) (.stop follows)
  refine .block_of_lines gap (statement_if (count.mono (by decide)) (yes.within_lines gap).block
    (no.within_lines gap).block) ?_
  simp only [linesChars, choiceChars, blockChars, List.flatMap_cons, List.flatMap_nil, String.toList_append]
  repeat rw [String.toList_ofList]
  simp

theorem step_query {query : Query} {w : List Char} {opening : String} (fits : query.Fits) (name : isName w = true)
    (plain : String.ofList w ≠ "enum") (opening_eq : opening.toList = "const ".toList ++ (w ++ " = ".toList)) :
    Statement 13 (opening ++ query.render ++ ";").toList := by
  have step := step_bind name plain (Query.expression_render fits)
  have text_eq : (opening ++ query.render ++ ";").toList =
      "const ".toList ++ (w ++ (" = ".toList ++ (query.render.toList ++ ";".toList))) := by
    rw [String.toList_append, String.toList_append, opening_eq]
    simp only [List.append_assoc]
  rwa [text_eq]

/-- A row holds texts and the number one. -/
def Row.Fits (row : Keyed Json) : Prop := ∀ m ∈ row, (∃ text, m.2 = .string text) ∨ m.2 = .number 1 0

theorem Row.Fits.expression {row : Keyed Json} (fits : Row.Fits row) :
    ∀ m ∈ row, Expression 4 m.2.compact.toList := by
  intro m mem
  rcases fits m mem with ⟨text, value⟩ | value
  · rw [value]
    exact Json.expression_text text
  · rw [value]
    exact Json.expression_unit

theorem Row.expression_rows {row : Keyed Json} (fits : Row.Fits row) :
    Expression 12 (Json.array [.object row]).compact.toList :=
  Json.expression_items fun j mem => by
    rw [List.mem_singleton.mp mem]
    exact Json.expression_members fits.expression

theorem script_answer {row : Keyed Json} (gap : IsGap margin.toList) (fits : Row.Fits row) :
    Script 38 (linesChars margin [
      "(globalThis.fetch as any) = vi.fn(() => Promise.resolve(\x7b",
      "  json: async () => " ++ (Json.array [.object row]).compact ++ ",",
      "\x7d));"]) := by
  have bracket : (Json.array [.object row]).compact.toList.head? ≠ some '\x7b' := by
    simp [Json.compact]
  refine .block_of_lines gap (step_answer gap (Row.expression_rows fits) bracket) ?_
  simp only [linesChars, lineObject, fetchChars, List.flatMap_cons, List.flatMap_nil, String.toList_append]
  repeat rw [String.toList_ofList]
  simp

theorem script_module {method : String} {row : Keyed Json} (gap : IsGap margin.toList)
    (name : isName method.toList = true) (fits : Row.Fits row) :
    Script 42 (linesChars margin [
      "vi.mock(\"axios\", () => (\x7b",
      "  default: \x7b",
      "    " ++ method ++ ": vi.fn().mockResolvedValue(" ++
        (Json.object [("data", .array [.object row])]).compact ++ "),",
      "  \x7d,",
      "\x7d));"]) := by
  have answer : Expression 16 (Json.object [("data", .array [.object row])]).compact.toList :=
    Json.expression_members fun m mem => by
      rw [List.mem_singleton.mp mem]
      exact Row.expression_rows fits
  refine .block_of_lines gap (step_module gap name answer) ?_
  simp only [linesChars, lineObject, methodChars, List.flatMap_cons, List.flatMap_nil, String.toList_append]
  repeat rw [String.toList_ofList]
  simp

/-! ## The bodies of tests -/

/-- What a component puts into a test can stand there. -/
def TestCase.Fits : TestCase → Prop
  | smoke => True
  | element _ query text? => query.Fits ∧ ∀ text ∈ text?, OneLine text
  | typing input => input.Fits
  | adding input button => input.Fits ∧ button.Fits
  | fetching row => Row.Fits row
  | requesting method row => isName method.toList = true ∧ Row.Fits row

theorem TestCase.script_body {test : TestCase} {call : String} (fits : test.Fits) (gap : IsGap margin.toList)
    (render : Statement 10 call.toList) : Script 42 (linesChars margin (test.body call)) := by
  have rendered : Statement 42 call.toList := render.mono (by decide)
  cases test with
  | smoke => exact .line gap rendered (.line gap (step_alive.mono (by decide)) .nil)
  | element number query text? =>
    obtain ⟨found, shown⟩ := fits
    refine .line gap rendered (.line gap ((step_query (w := "el".toList) found (isName_word rfl) (by decide)
      rfl).mono (by decide)) ?_)
    cases text? with
    | none => exact .line gap (step_present.mono (by decide)) .nil
    | some text => exact .line gap ((step_text (shown text rfl)).mono (by decide)) .nil
  | typing input =>
    refine .line gap (step_user.mono (by decide)) (.line gap rendered (.line gap ((step_query
      (w := "input".toList) fits (isName_word rfl) (by decide) rfl).mono (by decide)) ?_))
    exact .line gap (step_value.mono (by decide)) (.line gap (step_type.mono (by decide))
      (.line gap (step_typed.mono (by decide)) .nil))
  | adding input button =>
    obtain ⟨found, found'⟩ := fits
    refine .line gap (step_user.mono (by decide)) (.line gap rendered (.line gap ((step_query
      (w := "input".toList) found (isName_word rfl) (by decide) rfl).mono (by decide)) (.line gap ((step_query
      (w := "button".toList) found' (isName_word rfl) (by decide) rfl).mono (by decide)) ?_)))
    refine .line gap (step_value.mono (by decide)) (.line gap (step_type.mono (by decide)) ?_)
    refine .line gap (step_click.mono (by decide)) (.line gap (step_items.mono (by decide)) ?_)
    exact (script_choice gap).mono (by decide)
  | fetching row =>
    refine .comment gap String.toList_ofList (by decide) ?_
    refine ((script_answer gap fits).mono (by decide)).lines_append ?_
    exact .line gap rendered (.line gap (step_fetched.mono (by decide)) .nil)
  | requesting method row =>
    obtain ⟨name, fits⟩ := fits
    have called : Statement 42 ("expect(axios." ++ method ++ ").toHaveBeenCalled();").toList := by
      rw [String.toList_append, String.toList_append, List.append_assoc]
      exact (step_called name).mono (by decide)
    exact (script_module gap name fits).lines_append (.line gap (step_client.mono (by decide))
      (.line gap rendered (.line gap called .nil)))

/-! ## Tests -/

/-- What is called with a title and something to do. -/
theorem step_titled {w title : List Char} (name : isName w = true) (plain : String.ofList w ∉ reservedWords)
    (plain' : String.ofList w ∉ statementWords) {quoted : List Char} (quoted_eq : Json.quoteChars title = quoted)
    (h : Expression depth cs) (deep : 4 ≤ depth) :
    Statement (depth + 5) (w ++ '(' :: (quoted ++ ',' :: ' ' :: cs ++ ");".toList)) := by
  have call := expression_call name plain (two_arguments ((expression_string title).mono deep) h)
  have step := statement_call name plain' (.inl rfl) call
  rw [quoted_eq] at step
  simpa using step

theorem unescaped_title (test : TestCase) : Json.Unescaped test.title.toList := by
  cases test with
  | element number _ _ =>
    show Json.Unescaped ("renders expected element #" ++ toString number).toList
    rw [String.toList_append, Nat.toString_eq_repr, Nat.toList_repr]
    have start : Json.Unescaped "renders expected element #".toList := Json.unescaped_text rfl
    refine start.append fun c mem => Json.escapeChar_of_part (isNameBreak_part ?_)
    rw [isWordPart, Nat.isDigit_of_mem_toDigits (by decide) (by decide) mem, Bool.or_true]
  | _ => exact Json.unescaped_text rfl

theorem TestCase.script_lines {test : TestCase} {call : String} (fits : test.Fits)
    (render : Statement 10 call.toList) : Script 53 (linesChars "" (test.lines call)) := by
  have gap : IsGap "    ".toList := .of_blanks (by decide)
  have body := TestCase.script_body fits gap render
  have block := (body.within_lines (g := "  ".toList) (.of_blanks (by decide))).body
  have does : Expression 48 ((if test.isAsync then "async () => " else "() => ").toList ++
      blockChars ('\n' :: (linesChars "    " (test.body call) ++ "  ".toList))) := by
    cases test.isAsync with
    | true => exact expression_asyncArrow block
    | false => exact expression_arrow block
  have step := step_titled (w := "test".toList) (isName_word rfl) (by decide) (by decide)
    (Json.quoteChars_plain (unescaped_title test)) does (by decide)
  have text_eq : linesChars "" (test.lines call) = "  ".toList ++ ("test".toList ++ '(' ::
      ('"' :: (test.title.toList ++ ['"']) ++ ',' :: ' ' ::
        ((if test.isAsync then "async () => " else "() => ").toList ++
      blockChars ('\n' :: (linesChars "    " (test.body call) ++ "  ".toList))) ++ ");".toList) ++ ("\n\n".toList ++ [])) := by
    rw [TestCase.lines, linesChars_append, linesChars_append, linesChars_map]
    cases test.isAsync <;> simp [linesChars, blockChars]
  rw [text_eq]
  exact .gap (.of_blanks (by decide)) (.statement step (.gap (.of_blanks (by decide)) .nil))

end SuiteDraft
