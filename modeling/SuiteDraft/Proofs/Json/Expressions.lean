import SuiteDraft.Proofs.Grammar.Operands

/-!
# JSON values as expressions

Arrays and objects without blanks are expressions of the grammar as they stand, if what stands in them
is.
-/

namespace SuiteDraft.Json

open Grammar

variable {depth : Nat}

theorem compactItems_eq_map (items : List Json) : compactItems items = items.map compact := by
  induction items with
  | nil => rfl
  | cons j items ih => rw [compactItems, ih, List.map_cons]

theorem compactMembers_eq_map (members : List (String × Json)) : compactMembers members =
    members.map fun m => quote m.1 ++ ":" ++ m.2.compact := by
  induction members with
  | nil => rfl
  | cons m members ih => rw [compactMembers, ih, List.map_cons]

theorem expression_text (text : String) : Expression 4 (string text).compact.toList := by
  rw [compact, toList_quote]
  exact expression_string _

theorem expression_unit : Expression 4 (number 1 0).compact.toList := expression_one

theorem expression_items {items : List Json} (h : ∀ j ∈ items, Expression depth j.compact.toList) :
    Expression (depth + 4) (array items).compact.toList := by
  have listing : Listing value ']' depth ([','].intercalate (items.map fun j => j.compact.toList)) := by
    refine .intercalate (by decide) (by decide) (.empty fun _ => noStop_value) _ fun cs mem => ?_
    obtain ⟨j, inside, rfl⟩ := List.mem_map.mp mem
    exact (h j inside).item .nil
  have text_eq : (array items).compact.toList =
      '[' :: ([','].intercalate (items.map fun j => j.compact.toList) ++ ([] ++ [']'])) := by
    simp [compact, compactItems_eq_map, String.toList_intercalate, Function.comp_def]
  rw [text_eq]
  exact expression_array listing .nil

theorem expression_members {members : List (String × Json)}
    (h : ∀ m ∈ members, Expression depth m.2.compact.toList) :
    Expression (depth + 4) (object members).compact.toList := by
  have listing : Listing member '\x7d' depth ([','].intercalate
      (members.map fun m => quoteChars m.1.toList ++ ':' :: m.2.compact.toList)) := by
    refine .intercalate (by decide) (by decide) (.empty fun _ => noStop_member) _ fun cs mem => ?_
    obtain ⟨m, inside, rfl⟩ := List.mem_map.mp mem
    exact (key_string m.1.toList).item .nil .nil (h m inside)
  have text_eq : (object members).compact.toList = '\x7b' :: ([','].intercalate
      (members.map fun m => quoteChars m.1.toList ++ ':' :: m.2.compact.toList) ++ ([] ++ ['\x7d'])) := by
    simp [compact, compactMembers_eq_map, String.toList_intercalate, Function.comp_def, toList_quote]
  rw [text_eq]
  exact expression_object listing .nil

/-! ## Texts without escapes -/

theorem quoteChars_plain {text : List Char} (plain : Unescaped text) :
    quoteChars text = '"' :: (text ++ ['"']) := by
  rw [quoteChars, plain.flatMap_eq, List.cons_append]

theorem escapeChar_of_part {c : Char} (part : isNameBreak c = false) : escapeChar c = [c] := by
  have other : ∀ d, isNameBreak d = true → (c == d) = false := fun d breaks =>
    beq_false_of_ne (ne_of_isNameBreak part breaks)
  have visible : ¬ c.toNat < 32 := by
    simp only [isNameBreak, Bool.or_eq_false_iff, decide_eq_false_iff_not] at part
    exact part.1.1
  rw [escapeChar]
  simp only [other '"' (by decide), other '\\' (by decide), other '\n' (by decide), other '\r' (by decide),
    other '\t' (by decide), other '\x08' (by decide), other '\x0c' (by decide), Bool.false_eq_true, if_false,
    if_neg visible]

theorem unescaped_name {w : List Char} (name : isName w = true) : Unescaped w := fun c mem =>
  escapeChar_of_part (part_of_isName name c mem)

theorem Unescaped.append {text text' : List Char} (h : Unescaped text) (h' : Unescaped text') :
    Unescaped (text ++ text') := List.forall_mem_append.mpr ⟨h, h'⟩

/-- A character that a title or the way to a file may hold besides those of a name. -/
def isTextMark (c : Char) : Bool := [' ', '#', '.', '/', '@', '-'].contains c

theorem unescaped_text {l : List Char} (h : l.all (fun c => isWordPart c || isTextMark c) = true) :
    Unescaped (String.ofList l).toList := by
  rw [String.toList_ofList]
  intro c mem
  have kind := List.all_eq_true.mp h c mem
  rcases Bool.or_eq_true_iff.mp kind with part | mark
  · exact escapeChar_of_part (isNameBreak_part part)
  · have marks : ∀ c ∈ [' ', '#', '.', '/', '@', '-'], escapeChar c = [c] := by decide
    exact marks c (List.contains_iff_mem.mp mark)

theorem quoteChars_text {l : List Char} (h : l.all (fun c => isWordPart c || isTextMark c) = true) :
    quoteChars (String.ofList l).toList = '"' :: ((String.ofList l).toList ++ ['"']) :=
  quoteChars_plain (unescaped_text h)

end SuiteDraft.Json
