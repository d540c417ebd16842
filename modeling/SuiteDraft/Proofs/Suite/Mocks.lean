import SuiteDraft.Proofs.Suite.Steps

/-!
# The mocks of a test file

What stands for the network is written on several lines: an object within a call within an assignment,
a module that is put together on the spot, and a spy that answers with nothing. Each is one statement
of the grammar, whatever the margin is before its lines.
-/

namespace SuiteDraft

open Grammar SuiteDraft.Grammar.Parser

variable {depth : Nat} {cs inner margin w : List Char}

theorem gap_line (gap : IsGap margin) : IsGap ('\n' :: margin) := .blank (by decide) gap

theorem gap_inner (gap : IsGap margin) : IsGap ('\n' :: (margin ++ "  ".toList)) :=
  gap_line (gap.append (.of_blanks (by decide)))

/-! ## An answer of the network -/

/-- An object whose one member is on a line of its own. -/
def lineObject (margin member : List Char) : List Char :=
  '\x7b' :: ('\n' :: (margin ++ "  ".toList) ++ member ++ ',' :: ('\n' :: margin ++ ['\x7d']))

theorem listing_line {k : List Char} (gap : IsGap margin) (h : Key k) (value : Expression depth cs) :
    Listing member '\x7d' depth ('\n' :: (margin ++ "  ".toList) ++ (k ++ ':' :: ([' '] ++ cs)) ++ [',']) := by
  have closing : Listing member '\x7d' depth [] :=
    (Item.empty fun _ => noStop_member).last (by decide) (by decide)
  have only := (h.item (gap_inner gap) isGap_blank value).more closing
  exact only

theorem expression_lineObject {k : List Char} (gap : IsGap margin) (h : Key k) (value : Expression depth cs) :
    Expression (depth + 4) (lineObject margin (k ++ ':' :: ([' '] ++ cs))) := by
  have object := expression_object (listing_line gap h value) (gap_line gap)
  have text_eq : lineObject margin (k ++ ':' :: ([' '] ++ cs)) =
      '\x7b' :: ('\n' :: (margin ++ "  ".toList) ++ (k ++ ':' :: ([' '] ++ cs)) ++ [','] ++
        ('\n' :: margin ++ ['\x7d'])) := by simp [lineObject]
  rwa [text_eq]

/-! ## An assignment -/

/-- The way to the network, as a value of any type, before what is put there. -/
def fetchChars : List Char := '(' :: ("globalThis.fetch as any".toList ++ [')'])

theorem access_fetch {after : List Char} (follows : Follows ['='] after) :
    Access 5 fetchChars after (IsA (other "parenthesized_expression")) := by
  have fetch : Expression 4 ("globalThis".toList ++ ".fetch".toList ++ (" as ".toList ++ "any".toList)) :=
    expression_name_cast (isName_word rfl) (by decide)
      (fun after => .lastMember (w := "fetch".toList) (isName_word rfl) .cast) (isName_word rfl) (by decide)
  have operand : Operand 4 _ after _ := operand_parenthesized fetch fun d _ => by
    have follows : Follows ['.'] (".fetch as any)".toList ++ after) := ⟨[], '.', _, .nil, by decide, rfl, rfl⟩
    have refused := refuses_parameters_of_name (w := "globalThis".toList) (isName_word rfl) (by decide)
      (by decide) follows rfl (by decide) d
    simpa using refused
  simpa [fetchChars] using operand.alone follows (by decide) rfl

/-- The network answers with these rows. -/
theorem step_answer (gap : IsGap margin) (rows : Expression depth cs) (noBlock : cs.head? ≠ some '\x7b') :
    Statement (depth + 26) (fetchChars ++ " = vi.fn(() => Promise.resolve(".toList ++
      (lineObject margin ("json: async () => ".toList ++ cs) ++ "));".toList)) := by
  have json := expression_asyncArrow (rows.body noBlock)
  have object := expression_lineObject (k := "json".toList) gap (key_name (isName_word rfl)) json
  have resolved := expression_method (f := "Promise".toList) (m := "resolve".toList) (isName_word rfl)
    (by decide) (isName_word rfl) (one_argument object)
  have arrow := expression_arrow (resolved.body (Ne.symm (by simp)))
  have mocked := expression_method (f := "vi".toList) (m := "fn".toList) (isName_word rfl)
    (by decide) (isName_word rfl) (one_argument arrow)
  have access : ∀ rest, Access (depth + 22) fetchChars (" = ".toList ++ rest)
      (IsA (other "parenthesized_expression")) := fun rest =>
    (access_fetch ⟨[' '], '=', _, isGap_blank, by decide, rfl, rfl⟩).mono (by omega)
  have assigned := Access.assignment (fun _ => access _) (fun t ht => ⟨ht.1, by simp [isTarget, ht.2]⟩)
    (opens_cons (by decide) (by decide)) (fun _ => opening_sign (by decide) rfl (by decide)) mocked
  have step := statement_bracket assigned
  simpa [fetchChars, lineObject] using step

/-! ## A spy -/

/-- Nothing is loaded. -/
theorem step_spy (gap : IsGap margin) : Statement 18
    ("vi.spyOn(globalThis as any, \"fetch\").mockResolvedValue(".toList ++
      (lineObject margin "json: async () => []".toList ++ " as any);".toList)) := by
  have world : Expression 4 ("globalThis".toList ++ [] ++ (" as ".toList ++ "any".toList)) :=
    expression_name_cast (isName_word rfl) (by decide) (fun _ => .cast) (isName_word rfl) (by decide)
  have none : Expression 4 "[]".toList :=
    expression_array ((Item.empty fun _ => noStop_value).last (by decide) (by decide)) .nil
  have json := expression_asyncArrow (none.body (by decide))
  have answer := expression_object_cast (v := "any".toList)
    (listing_line (k := "json".toList) gap (key_name (isName_word rfl)) json) (gap_line gap)
    (isName_word rfl) (by decide)
  have spy := expression_name (w := "vi".toList) (isName_word rfl) (by decide) fun _ follows =>
    .member (w := "spyOn".toList) (isName_word rfl) (.call
      (two_arguments (world.mono (by decide : 4 ≤ 13)) ((expression_string "fetch".toList).mono (by decide))) .nil
      (.member (w := "mockResolvedValue".toList) (isName_word rfl) (.call (one_argument answer) .nil
        (.stop follows))))
  have step := statement_call (isName_word rfl) (by decide) (.inr rfl) spy
  have quoted : Json.quoteChars ['f', 'e', 't', 'c', 'h'] = "\"fetch\"".toList := by decide
  simpa [lineObject, quoted] using step

/-! ## A module -/

/-- A method of the client, with what it answers. -/
def methodChars (cs : List Char) : List Char := "vi".toList ++ (".fn().mockResolvedValue(".toList ++ (cs ++ [')']))

theorem tail_method {after : List Char} {ds : List Char} (answer : Expression depth cs) (follows : Follows ds after)
    (quiet : ∀ c ∈ ds, accessSigns.contains c = false) :
    Tail depth (".fn().mockResolvedValue(".toList ++ (cs ++ [')'])) after (IsA .callExpression) := by
  have tail : Tail depth ('.' :: ("fn".toList ++ ('(' :: ([] ++ ([] ++ ')' :: ('.' :: ("mockResolvedValue".toList ++
      ('(' :: (cs ++ ([] ++ [')'])))))))))) after (IsA .callExpression) :=
    .member (isName_word rfl) (.call no_arguments .nil (.member (isName_word rfl)
      (.lastCall (one_argument answer) .nil follows quiet)))
  simpa using tail

theorem access_method {after : List Char} {ds : List Char} (answer : Expression depth cs) (follows : Follows ds after)
    (quiet : ∀ c ∈ ds, accessSigns.contains c = false) :
    Access (depth + 1) (methodChars cs) after (IsA .callExpression) :=
  access_name (isName_word rfl) (by decide) (tail_method answer follows quiet)

theorem expression_method_mock (answer : Expression depth cs) : Expression (depth + 4) (methodChars cs) := by
  refine Access.expression (fun after follows => ?_) (fun after follows => ?_) (opens_name (isName_word rfl))
  · exact fun d deep flow => (access_method answer follows (by decide) d deep flow).mono fun _ => And.left
  · exact (tail_method answer follows (by decide)).opening (isName_word rfl) (by decide)

/-- An object of an object of a method is no list of parameters. -/
theorem refuses_parameters_module {g g' : List Char} (gap : IsGap g) (gap' : IsGap g') (name : isName w = true)
    (answer : Expression depth cs) {d : Nat} (deep : depth + 4 ≤ d) (rest : List Char) :
    Refuses (parse .markup d .parameters) ('(' :: '\x7b' :: (g ++ ("default".toList ++ ':' :: ([' '] ++
      '\x7b' :: (g' ++ (w ++ ':' :: ([' '] ++ (methodChars cs ++ ',' :: rest)))))))) := by
  refine refuses_parameters_object gap isGap_blank (isName_word rfl) rfl fun e he => ?_
  obtain ⟨e, rfl⟩ := Nat.exists_eq_add_one_of_ne_zero (show e ≠ 0 by omega)
  have begins : begins (methodChars cs ++ ',' :: rest) = true := by
    rw [methodChars, List.append_assoc]
    exact begins_of_isName (isName_word rfl)
  refine fails_pattern_object gap' isGap_blank name begins ?_
  obtain ⟨e, rfl⟩ := Nat.exists_eq_add_one_of_ne_zero (show e ≠ 0 by omega)
  exact fails_pattern_call (isName_word rfl) (access_method answer
    (follows_stop (g := []) .nil (by decide)) (by decide) e (by omega) .inside)

/-- The client, with what one of its methods answers, in place of a module. -/
theorem step_module (gap : IsGap margin) (name : isName w = true) (answer : Expression depth cs) :
    Statement (depth + 26) ("vi.mock(\"axios\", () => (".toList ++
      (lineObject margin ("default: ".toList ++ lineObject (margin ++ "  ".toList)
        (w ++ (": ".toList ++ methodChars cs))) ++ "));".toList)) := by
  have inner : IsGap (margin ++ "  ".toList) := gap.append (.of_blanks (by decide))
  have methods := expression_lineObject inner (key_name name) (expression_method_mock answer)
  have client := expression_lineObject (k := "default".toList) gap (key_name (isName_word rfl)) methods
  have nothing : ∀ after, Follows stops after → Tail (depth + 12) [] after Whole := fun _ follows => .stop follows
  have module := expression_parenthesized client (fun d deep after => by
    have refused := refuses_parameters_module (gap_inner gap) (gap_inner inner) name answer
      (show depth + 4 ≤ d by omega)
      ('\n' :: (margin ++ "  ".toList) ++ '\x7d' :: ',' :: ('\n' :: margin ++ '\x7d' :: ')' :: after))
    simpa [lineObject] using refused) nothing
  have arrow := expression_arrow (module.body (by simp))
  have mock := expression_method (f := "vi".toList) (m := "mock".toList) (isName_word rfl) (by decide)
    (isName_word rfl) (two_arguments ((expression_string "axios".toList).mono (by omega)) arrow)
  have step := statement_call (isName_word rfl) (by decide) (.inr rfl) mock
  have quoted : Json.quoteChars ['a', 'x', 'i', 'o', 's'] = "\"axios\"".toList := by decide
  simpa [lineObject, quoted] using step

theorem expression_import (text : List Char) :
    Expression 9 ("await".toList ++ ([' '] ++ ("import".toList ++ '(' :: (Json.quoteChars text ++ [')'])))) := by
  have tail : ∀ after, Follows stops after → Tail 4 ('(' :: (Json.quoteChars text ++ [')'])) after Whole :=
    fun after follows => .call (one_argument (expression_string text)) .nil (.stop follows)
  have imported : ∀ after, Follows stops after → Access 5 ("import".toList ++ '(' :: (Json.quoteChars text ++ [')']))
      after Whole := fun after follows => operand_import.access (tail after follows).chain rfl
  refine Access.await imported (fun after _ => ?_) (opens_name (isName_word rfl))
  rw [List.append_assoc]
  exact opening_name (isName_word rfl) rfl (by decide)

/-- The client as it is mocked. -/
theorem step_client : Statement 14 "const axios = (await import(\"axios\")).default as any;".toList := by
  have access : ∀ after, Access 10 ('(' :: ("await".toList ++ ([' '] ++ ("import".toList ++
      '(' :: (Json.quoteChars "axios".toList ++ [')']))) ++ [')']) ++ ".default".toList)
        (" as ".toList ++ ("any".toList ++ after)) Whole := by
    intro after
    have tail : Tail 9 ".default".toList (" as ".toList ++ ("any".toList ++ after)) Whole :=
      .lastMember (w := "default".toList) (isName_word rfl) .cast
    refine ((operand_parenthesized (expression_import _) fun d _ => ?_).mono_result fun _ => And.left).access
      tail.chain rfl
    rw [List.append_assoc]
    exact refuses_parameters_reserved (isName_word rfl) rfl (by decide) (by decide)
  have client := Access.cast access (fun _ => opening_sign (by decide) rfl (by decide)) (opens_cons (by decide) (by decide))
    (isName_word rfl) (by decide)
  have step := step_bind (w := "axios".toList) (isName_word rfl) (by decide) client
  have quoted : Json.quoteChars ['a', 'x', 'i', 'o', 's'] = "\"axios\"".toList := by decide
  simpa [quoted] using step

/-! ## What is seen of it -/

theorem step_called (name : isName w = true) : Statement 9
    ("expect(axios.".toList ++ (w ++ ").toHaveBeenCalled();".toList)) := by
  have method : Expression 4 ("axios".toList ++ '.' :: (w ++ [])) := expression_name (isName_word rfl)
    (by decide) fun _ follows => .member name (.stop follows)
  have step := step_expect (m := "toHaveBeenCalled".toList) method (isName_word rfl) no_arguments
  simpa using step

theorem step_fetched : Statement 9 "expect(globalThis.fetch).toHaveBeenCalled();".toList := by
  have fetch : Expression 4 ("globalThis".toList ++ '.' :: ("fetch".toList ++ [])) :=
    expression_name (isName_word rfl) (by decide) fun _ follows =>
      .member (isName_word rfl) (.stop follows)
  have step := step_expect (m := "toHaveBeenCalled".toList) fetch (isName_word rfl) no_arguments
  simpa using step

end SuiteDraft
