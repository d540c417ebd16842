import SuiteDraft.Proofs.Grammar.Imports
import SuiteDraft.Proofs.Json.Expressions
import SuiteDraft.Proofs.Suite.Quotes

/-!
# The expressions of a test file

The queries, the checks, the mocked answers and the rendered element of a test file are expressions of
the grammar, each with what a component puts into it.
-/

namespace SuiteDraft

open Grammar

variable {depth : Nat} {inner inner' after : List Char}

/-! ## Calls -/

namespace Grammar

variable {f m : List Char}

theorem expression_call (name : isName f = true) (plain : String.ofList f ∉ reservedWords)
    (args : Listing value ')' depth inner) : Expression (depth + 4) (f ++ '(' :: (inner ++ [')'])) :=
  expression_name name plain fun _ follows => .call args .nil (.stop follows)

theorem expression_method (name : isName f = true) (plain : String.ofList f ∉ reservedWords)
    (name' : isName m = true) (args : Listing value ')' depth inner) :
    Expression (depth + 4) (f ++ '.' :: (m ++ '(' :: (inner ++ [')']))) :=
  expression_name name plain fun _ follows => .member name' (.call args .nil (.stop follows))

/-- A method of what a call gives. -/
theorem expression_chain (name : isName f = true) (plain : String.ofList f ∉ reservedWords)
    (args : Listing value ')' depth inner) (name' : isName m = true)
    (args' : Listing value ')' depth inner') :
    Expression (depth + 4) (f ++ '(' :: (inner ++ ')' :: '.' :: (m ++ '(' :: (inner' ++ [')'])))) :=
  expression_name name plain fun _ follows =>
    .call args .nil (.member name' (.call args' .nil (.stop follows)))

theorem expression_word (name : isName f = true) (plain : String.ofList f ∉ reservedWords) :
    Expression 4 f := by
  have word : Expression 4 (f ++ []) := expression_name name plain fun _ follows => .stop follows
  rwa [List.append_nil] at word

end Grammar

/-! ## Queries -/

/-- A text that a pattern can match as it stands. -/
structure OneLine (text : String) : Prop where
  nonempty : text.toList ≠ []
  line : '\n' ∉ text.toList
  clear : '\x00' ∉ text.toList

namespace Query

/-- The texts that a query matches are on one line each. -/
def Fits (query : Query) : Prop := ∀ text ∈ query.matched?, OneLine text

theorem expression_ofScreen {m : List Char} (name : isName m = true) (args : Listing value ')' depth inner) :
    Expression (depth + 4) ("screen".toList ++ '.' :: (m ++ '(' :: (inner ++ [')']))) :=
  expression_method (by decide) (by decide) name args

/-- A method of the screen that is given one argument. -/
theorem expression_asks (m : List Char) {opening arg : String}
    (opens : opening.toList = "screen".toList ++ '.' :: (m ++ ['('])) (name : isName m = true)
    (h : Expression 4 arg.toList) : Expression 12 (opening ++ arg ++ ")").toList := by
  have text_eq : (opening ++ arg ++ ")").toList =
      "screen".toList ++ '.' :: (m ++ '(' :: (arg.toList ++ [')'])) := by
    simp [opens]
  rw [text_eq]
  exact (expression_ofScreen name (one_argument h)).mono (by omega)

theorem expression_quote (text : String) : Expression 4 (Json.quote text).toList := by
  rw [Json.toList_quote]
  exact expression_string text.toList

theorem expression_byNamedRole {role name : String} (nonempty : name.toList ≠ [])
    (line : '\n' ∉ name.toList) : Expression 12 ("screen.getByRole(" ++ Json.quote role ++
      ", \x7b name: " ++ Pattern.literal name ++ " \x7d)").toList := by
  have key : Key "name".toList := key_name (by decide)
  have pattern := key.item isGap_blank isGap_blank (expression_pattern nonempty line)
  have options := expression_object (pattern.last (by decide) (by decide)) isGap_blank
  have text : Expression 8 (Json.quoteChars role.toList) := (expression_string _).mono (by omega)
  have byRole : isName "getByRole".toList = true := by decide
  have call := expression_ofScreen byRole (two_arguments text options)
  have text_eq : ("screen.getByRole(" ++ Json.quote role ++ ", \x7b name: " ++ Pattern.literal name ++
      " \x7d)").toList = "screen".toList ++
      '.' :: ("getByRole".toList ++ '(' :: (Json.quoteChars role.toList ++ ',' :: ' ' ::
        ('\x7b' :: ([' '] ++ ("name".toList ++ ':' :: ([' '] ++ (Pattern.literal name).toList)) ++
          ([' '] ++ ['\x7d']))) ++ [')'])) := by
    simp [Json.toList_quote]
  rw [text_eq]
  exact call

theorem expression_render {query : Query} (fits : query.Fits) : Expression 12 query.render.toList := by
  cases query with
  | byRole role name? =>
    cases name? with
    | none => exact expression_asks "getByRole".toList rfl (by decide) (expression_quote role)
    | some name =>
      obtain ⟨nonempty, line, -⟩ := fits name rfl
      exact expression_byNamedRole nonempty line
  | byTestId id => exact expression_asks "getByTestId".toList rfl (by decide) (expression_quote id)
  | byText text =>
    obtain ⟨nonempty, line, -⟩ := fits text rfl
    exact expression_asks "getByText".toList rfl (by decide) (expression_pattern nonempty line)

end Query

end SuiteDraft
