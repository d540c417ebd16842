import SuiteDraft.Proofs.Suite.Expressions

/-!
# The steps of a test

Each line of a test's body, or each few that belong together, is a statement of the grammar.
-/

namespace SuiteDraft

open Grammar

variable {depth : Nat} {cs inner w m : List Char}

/-! ## Checks -/

/-- A check of a value. -/
theorem step_expect (h : Expression depth cs) (name : isName m = true)
    (args : Listing value ')' depth inner) : Statement (depth + 5)
      ("expect(".toList ++ (cs ++ (").".toList ++ (m ++ ('(' :: (inner ++ ");".toList)))))) := by
  have check : Expression (depth + 4) ("expect".toList ++ '(' :: (cs ++ ')' :: '.' :: (m ++ '(' ::
      (inner ++ [')'])))) := expression_chain (isName_word rfl) (by decide) (one_argument h) name args
  have step := statement_call (isName_word rfl) (by decide) (.inl rfl) check
  have text_eq : "expect(".toList ++ (cs ++ (").".toList ++ (m ++ ('(' :: (inner ++ ");".toList))))) =
      "expect".toList ++ '(' :: (cs ++ ')' :: '.' :: (m ++ '(' :: (inner ++ [')']))) ++ [';'] := by simp
  rwa [text_eq]

theorem step_alive : Statement 9 "expect(true).toBe(true);".toList := by
  have step := step_expect (m := "toBe".toList) expression_true (isName_word rfl)
    (one_argument expression_true)
  simpa using step

theorem step_present : Statement 9 "expect(el).toBeInTheDocument();".toList := by
  have el : Expression 4 "el".toList := expression_word (isName_word rfl) (by decide)
  have step := step_expect (m := "toBeInTheDocument".toList) el (isName_word rfl) no_arguments
  simpa using step

theorem step_text {text : String} (fits : OneLine text) : Statement 9
    ("expect(el).toHaveTextContent(" ++ Pattern.literal text ++ ");").toList := by
  have el : Expression 4 "el".toList := expression_word (isName_word rfl) (by decide)
  have step := step_expect (m := "toHaveTextContent".toList) el (isName_word rfl)
    (one_argument (expression_pattern fits.nonempty fits.line))
  rw [String.toList_append, String.toList_append]
  repeat rw [String.toList_ofList]
  repeat rw [String.toList_ofList] at step
  exact step

/-! ## What is rendered -/

/-- The sample attributes of a component, each as its name and its text. -/
def Suite.attributeParts (s : Suite) : List (List Char × List Char) :=
  s.attributes.map fun a => (a.1.toList, a.2.toList)

theorem Suite.toList_renderCall (s : Suite) : s.renderCall.toList =
    "render".toList ++ '(' :: (elementChars s.subject.toList s.attributeParts ++ [')']) ++ [';'] := by
  simp [renderCall, elementChars, attributeChars, attributeParts, String.toList_join, List.flatMap_map,
    Json.toList_quote]

theorem Suite.step_render {s : Suite} (name : isName s.subject.toList = true)
    (plain : s.subject ≠ "const") (writable : Writable s.attributeParts) :
    Statement 10 s.renderCall.toList := by
  have element := expression_markup writable name (by rwa [String.ofList_toList])
  have call := expression_call (f := "render".toList) (isName_word rfl) (by decide) (one_argument element)
  rw [toList_renderCall]
  exact statement_call (isName_word rfl) (by decide) (.inl rfl) call

/-! ## What is named -/

/-- A name for a value. -/
theorem step_bind (name : isName w = true) (plain : String.ofList w ≠ "enum") (h : Expression depth cs) :
    Statement (depth + 1) ("const ".toList ++ (w ++ (" = ".toList ++ (cs ++ ";".toList)))) := by
  have step := statement_const name plain h
  have text_eq : "const ".toList ++ (w ++ (" = ".toList ++ (cs ++ ";".toList))) =
      "const".toList ++ (' ' :: (w ++ (" = ".toList ++ cs)) ++ [';']) := by simp
  rwa [text_eq]

theorem step_user : Statement 5 "const user = userEvent.setup();".toList := by
  have setup := expression_method (f := "userEvent".toList) (m := "setup".toList) (isName_word rfl) (by decide)
    (isName_word rfl) (no_arguments : Listing value ')' 0 [])
  have step := step_bind (w := "user".toList) (isName_word rfl) (by decide) setup
  simpa using step

theorem step_value : Statement 9 "const value = `test-$\x7bDate.now()\x7d`;".toList := by
  have now := expression_method (f := "Date".toList) (m := "now".toList) (isName_word rfl) (by decide)
    (isName_word rfl) (no_arguments : Listing value ')' 0 [])
  have template := expression_template (v := "test-".toList) (by decide) (by decide) now
  have step := step_bind (w := "value".toList) (isName_word rfl) (by decide) template
  simpa using step

theorem step_items : Statement 9 "const items = screen.queryAllByTestId(\"user\");".toList := by
  have all := Query.expression_ofScreen (m := "queryAllByTestId".toList) (isName_word rfl)
    (one_argument (expression_string "user".toList))
  have step := step_bind (w := "items".toList) (isName_word rfl) (by decide) all
  have quoted : Json.quoteChars ['u', 's', 'e', 'r'] = "\"user\"".toList := by decide
  simpa [quoted] using step

/-! ## What a user does -/

theorem expression_input {v : List Char} (name : isName v = true) (plain : String.ofList v ∉ typeStarts) :
    Expression 4 ("input".toList ++ [] ++ (" as ".toList ++ v)) :=
  expression_name_cast (isName_word rfl) (by decide) (fun _ => .cast) name plain

theorem step_user_does (name : isName m = true) (args : Listing value ')' depth inner) :
    Statement (depth + 6) ("await user.".toList ++ (m ++ ('(' :: (inner ++ ");".toList)))) := by
  have waits := expression_await (w := "user".toList) (isName_word rfl) (by decide) fun after follows =>
    .member name (.call args .nil (.stop follows))
  have step := statement_await (isName_word rfl) waits
  have text_eq : "await user.".toList ++ (m ++ ('(' :: (inner ++ ");".toList))) =
      "await".toList ++ ([' '] ++ ("user".toList ++ '.' :: (m ++ '(' :: (inner ++ ([] ++ [')']))))) ++
        [';'] := by simp
  rwa [text_eq]

theorem step_type : Statement 10 "await user.type(input as HTMLElement, value);".toList := by
  have input := expression_input (v := "HTMLElement".toList) (isName_word rfl) (by decide)
  have value : Expression 4 "value".toList := expression_word (isName_word rfl) (by decide)
  have step := step_user_does (m := "type".toList) (isName_word rfl) (two_arguments input value)
  simpa using step

theorem step_click : Statement 10 "await user.click(button);".toList := by
  have button : Expression 4 "button".toList := expression_word (isName_word rfl) (by decide)
  have step := step_user_does (m := "click".toList) (isName_word rfl) (one_argument button)
  simpa using step

/-! ## What is seen of it -/

theorem step_typed : Statement 13 "expect((input as HTMLInputElement).value).toBe(value);".toList := by
  have input := expression_input (v := "HTMLInputElement".toList) (isName_word rfl) (by decide)
  have follows : ∀ rest, Follows ['a'] (" as HTMLInputElement".toList ++ rest) := fun rest =>
    ⟨[' '], 'a', _, isGap_blank, by decide, rfl, rfl⟩
  have member : ∀ after, Follows stops after → Tail 4 ".value".toList after Whole := fun after follows =>
    .lastMember (w := "value".toList) (isName_word rfl) (.stop follows)
  have typed := expression_parenthesized input
    (fun d _ after => by
      have refused := refuses_parameters_of_name (w := "input".toList) (isName_word rfl) (by decide)
        (by decide) (follows (')' :: after)) rfl (by decide) d
      simpa using refused)
    member
  have value : Expression 8 "value".toList :=
    (expression_word (isName_word rfl) (by decide)).mono (by decide)
  have step := step_expect (m := "toBe".toList) typed (isName_word rfl) (one_argument value)
  simpa using step

theorem expression_added : Expression 9 "new RegExp(value, \"i\")".toList := by
  have value : Expression 4 "value".toList := expression_word (isName_word rfl) (by decide)
  have made := expression_new (w := "RegExp".toList) (isName_word rfl) (by decide)
    (two_arguments value (expression_string "i".toList)) .nil
  have quoted : Json.quoteChars ['i'] = "\"i\"".toList := by decide
  simpa [quoted] using made

theorem expression_last : Expression 9 "items[items.length - 1]".toList := by
  have quiet : ∀ after, Tail 1 ".length".toList (" - ".toList ++ after) Whole := by
    intro after
    have follows : Follows ['-'] (" - ".toList ++ after) := ⟨[' '], '-', _, isGap_blank, by decide, rfl, rfl⟩
    exact .lastMember (w := "length".toList) (isName_word rfl) (.nil follows (by decide) rfl)
  have index := expression_less (w := "items".toList) (isName_word rfl) (by decide) quiet le_rfl
  have last := expression_name (w := "items".toList) (isName_word rfl) (by decide) fun _ follows =>
    .index index (.stop follows)
  simpa using last

theorem step_last : Statement 14
    "expect(items[items.length - 1]).toHaveTextContent(new RegExp(value, \"i\"));".toList := by
  have step := step_expect (m := "toHaveTextContent".toList) expression_last (isName_word rfl)
    (one_argument expression_added)
  simpa using step

theorem step_anywhere : Statement 18
    "expect(screen.getByText(new RegExp(value, \"i\"))).toBeInTheDocument();".toList := by
  have found := Query.expression_ofScreen (m := "getByText".toList) (isName_word rfl)
    (one_argument expression_added)
  have step := step_expect (m := "toBeInTheDocument".toList) found (isName_word rfl) no_arguments
  simpa using step

end SuiteDraft
