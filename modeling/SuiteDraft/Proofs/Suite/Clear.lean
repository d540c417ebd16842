import SuiteDraft.Proofs.Suite.Scripts

/-!
# Texts without the null character

The grammar reads a source up to its first null character, so no line of a test file may hold one.
What is quoted never does; what is matched does only if the text itself does.
-/

namespace SuiteDraft

open Grammar

variable {text text' : String} {lines lines' : List String}

/-- No null character stands in a text. -/
def Clear (text : String) : Prop := '\x00' ∉ text.toList

/-- No null character stands in any of the lines. -/
abbrev AllClear (lines : List String) : Prop := ∀ line ∈ lines, Clear line

theorem Clear.append (h : Clear text) (h' : Clear text') : Clear (text ++ text') := by
  rw [Clear, String.toList_append]
  exact List.not_mem_append h h'

theorem clear_ofList {l : List Char} (h : l.contains '\x00' = false) : Clear (String.ofList l) := by
  rw [Clear, String.toList_ofList, ← List.contains_iff_mem, h]
  decide

theorem clear_quote (text : String) : Clear (Json.quote text) := fun mem =>
  absurd (Json.visible_quote text _ mem) (by decide)

theorem clear_name {w : String} (name : isName w.toList = true) : Clear w := fun mem =>
  absurd (part_of_isName name _ mem) (by decide)

theorem allClear_nil : AllClear [] := nofun

theorem AllClear.cons {line : String} (h : Clear line) (h' : AllClear lines) : AllClear (line :: lines) :=
  List.forall_mem_cons.mpr ⟨h, h'⟩

theorem AllClear.append (h : AllClear lines) (h' : AllClear lines') : AllClear (lines ++ lines') :=
  List.forall_mem_append.mpr ⟨h, h'⟩

theorem AllClear.join (h : AllClear lines) : Clear (String.join lines) := by
  rw [Clear, String.toList_join, List.mem_flatMap]
  rintro ⟨line, inside, mem⟩
  exact h line inside mem

theorem AllClear.intercalate {separator : String} (own : Clear separator) (h : AllClear lines) :
    Clear (separator.intercalate lines) := by
  induction lines with
  | nil => exact clear_ofList rfl
  | cons line lines ih =>
    obtain ⟨first, others⟩ := List.forall_mem_cons.mp h
    cases lines with
    | nil => simpa using first
    | cons next lines =>
      rw [String.intercalate_cons_of_ne_nil (by simp)]
      exact (first.append own).append (ih others)

namespace Pattern

theorem clear_literal (fits : OneLine text) : Clear (literal text) := by
  have escaped : Clear (source text) := by
    rw [Clear, source, String.toList_ofList, escape, List.mem_flatMap]
    rintro ⟨c, inside, mem⟩
    rw [escapeChar] at mem
    split at mem
    · rename_i special
      simp only [List.mem_cons, List.not_mem_nil, or_false] at mem
      rcases mem with eq | rfl
      · exact absurd eq (by decide)
      · exact fits.clear inside
    · exact fits.clear (List.mem_singleton.mp mem ▸ inside)
  exact ((clear_ofList rfl).append escaped).append (clear_ofList rfl)

end Pattern

theorem Query.clear_render {query : Query} (fits : query.Fits) : Clear query.render := by
  cases query with
  | byRole role name? =>
    cases name? with
    | none => exact ((clear_ofList rfl).append (clear_quote role)).append (clear_ofList rfl)
    | some name => exact ((((clear_ofList rfl).append (clear_quote role)).append (clear_ofList rfl)).append
        (Pattern.clear_literal (fits name rfl))).append (clear_ofList rfl)
  | byTestId id => exact ((clear_ofList rfl).append (clear_quote id)).append (clear_ofList rfl)
  | byText text => exact ((clear_ofList rfl).append (Pattern.clear_literal (fits text rfl))).append (clear_ofList rfl)

theorem Row.Fits.clear {row : Keyed Json} (fits : Row.Fits row) : Clear (Json.object row).compact := by
  have members : AllClear (Json.compactMembers row) := by
    rw [Json.compactMembers_eq_map]
    intro line mem
    obtain ⟨m, inside, rfl⟩ := List.mem_map.mp mem
    refine ((clear_quote m.1).append (clear_ofList rfl)).append ?_
    rcases fits m inside with ⟨text, value⟩ | value
    · rw [value, Json.compact]
      exact clear_quote text
    · rw [value]
      exact clear_ofList rfl
  rw [Json.compact]
  exact ((clear_ofList rfl).append (members.intercalate (clear_ofList rfl))).append (clear_ofList rfl)

theorem Row.Fits.clear_rows {row : Keyed Json} (fits : Row.Fits row) :
    Clear (Json.array [.object row]).compact := by
  have items : AllClear (Json.compactItems [.object row]) := .cons fits.clear allClear_nil
  rw [Json.compact]
  exact ((clear_ofList rfl).append (items.intercalate (clear_ofList rfl))).append (clear_ofList rfl)

theorem Row.Fits.clear_data {row : Keyed Json} (fits : Row.Fits row) :
    Clear (Json.object [("data", .array [.object row])]).compact := by
  have members : AllClear (Json.compactMembers [("data", .array [.object row])]) :=
    .cons (((clear_quote "data").append (clear_ofList rfl)).append fits.clear_rows) allClear_nil
  rw [Json.compact]
  exact ((clear_ofList rfl).append (members.intercalate (clear_ofList rfl))).append (clear_ofList rfl)

namespace TestCase

theorem clear_typingLines : AllClear typingLines :=
  .cons (clear_ofList rfl) (.cons (clear_ofList rfl) allClear_nil)

theorem clear_found {opening : String} {query : Query} (own : Clear opening) (fits : query.Fits) :
    Clear (opening ++ query.render ++ ";") := (own.append (Query.clear_render fits)).append (clear_ofList rfl)

theorem clear_body {test : TestCase} {call : String} (fits : test.Fits) (h : Clear call) :
    AllClear (test.body call) := by
  cases test with
  | smoke => exact .cons h (.cons (clear_ofList rfl) allClear_nil)
  | element number query text? =>
    refine .cons h (.cons (clear_found (clear_ofList rfl) fits.1) (.cons ?_ allClear_nil))
    cases text? with
    | none => exact clear_ofList rfl
    | some text =>
      have start : Clear "expect(el).toHaveTextContent(" := clear_ofList rfl
      exact (start.append (Pattern.clear_literal (fits.2 text rfl))).append (clear_ofList rfl)
  | typing input =>
    have found := clear_found (clear_ofList rfl : Clear "const input = ") fits
    exact AllClear.append (.append (.cons (clear_ofList rfl) (.cons h (.cons found allClear_nil))) clear_typingLines)
      (.cons (clear_ofList rfl) allClear_nil)
  | adding input button =>
    have found := clear_found (clear_ofList rfl : Clear "const input = ") fits.1
    have found' := clear_found (clear_ofList rfl : Clear "const button = ") fits.2
    refine AllClear.append (.append (.cons (clear_ofList rfl) (.cons h (.cons found (.cons found' allClear_nil))))
      clear_typingLines) ?_
    repeat refine .cons (clear_ofList rfl) ?_
    exact allClear_nil
  | fetching row =>
    have start : Clear "  json: async () => " := clear_ofList rfl
    have answer := (start.append (Row.Fits.clear_rows fits)).append (clear_ofList rfl : Clear ",")
    exact .cons (clear_ofList rfl) (.cons (clear_ofList rfl) (.cons answer (.cons (clear_ofList rfl)
      (.cons h (.cons (clear_ofList rfl) allClear_nil)))))
  | requesting method row =>
    obtain ⟨name, fits⟩ := fits
    have start : Clear "    " := clear_ofList rfl
    have answer := (((start.append (clear_name name)).append
      (clear_ofList rfl : Clear ": vi.fn().mockResolvedValue(")).append (Row.Fits.clear_data fits)).append
        (clear_ofList rfl : Clear "),")
    have called := ((clear_ofList rfl : Clear "expect(axios.").append (clear_name name)).append
      (clear_ofList rfl : Clear ").toHaveBeenCalled();")
    exact .cons (clear_ofList rfl) (.cons (clear_ofList rfl) (.cons answer (.cons (clear_ofList rfl)
      (.cons (clear_ofList rfl) (.cons (clear_ofList rfl) (.cons h (.cons called allClear_nil)))))))

theorem clear_title (test : TestCase) : Clear test.title := by
  intro mem
  have own := unescaped_title test _ mem
  exact absurd own (by decide)

theorem clear_lines {test : TestCase} {call : String} (fits : test.Fits) (h : Clear call) :
    AllClear (test.lines call) := by
  have async : Clear (if test.isAsync then "async " else "") := by
    split <;> exact clear_ofList rfl
  have opening := ((((clear_ofList rfl : Clear "  test(\"").append (clear_title test)).append
    (clear_ofList rfl : Clear "\", ")).append async).append (clear_ofList rfl : Clear "() => \x7b")
  have body : AllClear ((test.body call).map ("    " ++ ·)) := by
    intro line mem
    obtain ⟨own, inside, rfl⟩ := List.mem_map.mp mem
    exact (clear_ofList rfl : Clear "    ").append (clear_body fits h own inside)
  exact AllClear.append (.append (.cons opening allClear_nil) body)
    (.cons (clear_ofList rfl) (.cons (clear_ofList rfl) allClear_nil))

end TestCase

namespace Suite

/-- What stands in the name of an attribute stands in names, but for the hyphen. -/
theorem part_of_attributeName {w : List Char} (name : isAttributeName w = true) :
    ∀ c ∈ w, isNameBreak c = false ∨ c = '-' := by
  intro c mem
  rw [isAttributeName, Bool.or_eq_true, Bool.and_eq_true] at name
  rcases name with name | ⟨name, -⟩
  · exact .inl (part_of_isName name c mem)
  · cases w with
    | nil => cases mem
    | cons first rest =>
      rw [isHyphenated, Bool.and_eq_true, Bool.and_eq_true, List.all_eq_true] at name
      obtain ⟨⟨start, -⟩, parts⟩ := name
      rcases List.mem_cons.mp mem with rfl | mem
      · exact .inl (isNameBreak_part (by rw [isWordPart, start, Bool.true_or]))
      · rcases Bool.or_eq_true_iff.mp (parts c mem) with part | hyphen
        · exact .inl (isNameBreak_part part)
        · exact .inr (beq_iff_eq.mp hyphen)

theorem clear_renderCall {s : Suite} (name : isName s.subject.toList = true) (writable : Writable s.attributeParts) :
    Clear s.renderCall := by
  have attributes : AllClear (s.attributes.map fun a => " " ++ a.1 ++ "=" ++ Json.quote a.2) := by
    intro line mem
    obtain ⟨a, inside, rfl⟩ := List.mem_map.mp mem
    obtain ⟨own, -, -⟩ := writable _ (List.mem_map_of_mem inside)
    have clear : Clear a.1 := fun mem => by
      have part := part_of_attributeName own _ mem
      exact absurd part (by decide)
    exact (((clear_ofList rfl : Clear " ").append clear).append
      (clear_ofList rfl : Clear "=")).append (clear_quote a.2)
  exact (((clear_ofList rfl : Clear "render(<").append (clear_name name)).append attributes.join).append
    (clear_ofList rfl)

theorem clear_preamble {s : Suite} (name : isName s.subject.toList = true) : AllClear s.preamble := by
  have own := clear_name name
  have main := ((((clear_ofList rfl : Clear "import ").append own).append
    (clear_ofList rfl : Clear " from \"../")).append own).append (clear_ofList rfl : Clear "\";")
  have imports : AllClear (importLines s.subject) :=
    .cons (clear_ofList rfl) (.cons (clear_ofList rfl) (.cons (clear_ofList rfl) (.cons (clear_ofList rfl)
      (.cons main (.cons (clear_ofList rfl) allClear_nil)))))
  have network : AllClear (if s.mocksNetwork then networkLines else []) := by
    split
    · unfold networkLines
      repeat refine .cons (clear_ofList rfl) ?_
      exact allClear_nil
    · exact allClear_nil
  have restore : AllClear restoreLines := by
    unfold restoreLines
    repeat refine .cons (clear_ofList rfl) ?_
    exact allClear_nil
  exact (imports.append network).append restore

theorem clear_lines {s : Suite} (name : isName s.subject.toList = true) (writable : Writable s.attributeParts)
    (fits : ∀ test ∈ s.cases, test.Fits) : AllClear s.lines := by
  have block := ((clear_ofList rfl : Clear "describe(\"").append (clear_name name)).append
    (clear_ofList rfl : Clear " component\", () => \x7b")
  have tests : AllClear (s.cases.flatMap (TestCase.lines s.renderCall)) := by
    intro line mem
    obtain ⟨test, inside, own⟩ := List.mem_flatMap.mp mem
    exact TestCase.clear_lines (fits test inside) (clear_renderCall name writable) line own
  exact (((clear_preamble name).append (.cons block allClear_nil)).append tests).append
    (.cons (clear_ofList rfl) (.cons (clear_ofList rfl) allClear_nil))

theorem clear_render {s : Suite} (name : isName s.subject.toList = true) (writable : Writable s.attributeParts)
    (fits : ∀ test ∈ s.cases, test.Fits) : Clear s.render :=
  (clear_lines name writable fits).intercalate (clear_ofList rfl)

end Suite

end SuiteDraft
