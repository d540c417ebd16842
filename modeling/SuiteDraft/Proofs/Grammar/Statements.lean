import Mathlib.Data.List.TakeWhile
import SuiteDraft.Proofs.Grammar.Constructs
import SuiteDraft.Proofs.Grammar.Markup

/-!
# Statements

Expressions, declarations and choices, one after the other with gaps between, are the statements of a
block or of a whole source.
-/

namespace SuiteDraft.Grammar

open Input (Spells)
open SuiteDraft.Grammar.Parser

variable {r : Reader} {flow : Flow} {depth : Nat} {g w cs cs' inner after : List Char} {c : Char}

/-- The text of a statement, which ends by itself whatever follows. -/
structure Statement (depth : Nat) (cs : List Char) : Prop where
  nonempty : cs ≠ []
  reads : ∀ d, depth ≤ d → ∀ after, Reads (parse .markup d .statement) cs after Whole

theorem Statement.mono {depth' : Nat} (h : Statement depth cs) (le : depth ≤ depth') :
    Statement depth' cs := ⟨h.nonempty, fun d deep => h.reads d (le.trans deep)⟩

/-- Statements and gaps, in any order. -/
inductive Script (depth : Nat) : List Char → Prop
  | nil : Script depth []
  | gap {g cs : List Char} (gap : IsGap g) (rest : Script depth cs) : Script depth (g ++ cs)
  | statement {cs cs' : List Char} (first : Statement depth cs) (rest : Script depth cs') :
      Script depth (cs ++ cs')

theorem Script.append (h : Script depth cs) (h' : Script depth cs') : Script depth (cs ++ cs') := by
  induction h with
  | nil => exact h'
  | gap gap _ ih =>
    rw [List.append_assoc]
    exact .gap gap ih
  | statement first _ ih =>
    rw [List.append_assoc]
    exact .statement first ih

/-- Statements with the gaps before them. -/
inductive Statements (depth : Nat) : List Char → Prop
  | nil : Statements depth []
  | cons {g cs cs' : List Char} (gap : IsGap g) (first : Statement depth cs)
      (rest : Statements depth cs') : Statements depth (g ++ (cs ++ cs'))

theorem Statements.pieces (h : Statements depth cs) {d : Nat} (deep : depth ≤ d)
    (ends : Refuses (parse .markup d .statement) after) :
    Pieces (parse .markup d .statement) Whole cs after := by
  induction h with
  | nil => exact .nil ends
  | cons gap first _ ih =>
    rw [← List.append_assoc]
    exact .cons (List.append_ne_nil_of_right_ne_nil _ first.nonempty) (first.reads d deep _ _ gap) ih

/-- Each gap of a script belongs to the statement that follows it, and the last one to none. -/
theorem Script.split (h : Script depth cs) :
    ∃ statements g, cs = statements ++ g ∧ IsGap g ∧ Statements depth statements := by
  induction h with
  | nil => exact ⟨[], [], rfl, .nil, .nil⟩
  | @gap g cs gap _ ih =>
    obtain ⟨statements, g', rfl, gap', rest⟩ := ih
    cases rest with
    | nil => exact ⟨[], g ++ g', rfl, gap.append gap', .nil⟩
    | @cons g₀ first others gap₀ hfirst hothers =>
      refine ⟨(g ++ g₀) ++ (first ++ others), g', ?_, gap', .cons (gap.append gap₀) hfirst hothers⟩
      simp only [List.append_assoc]
  | @statement cs cs' first _ ih =>
    obtain ⟨statements, g, rfl, gap, rest⟩ := ih
    exact ⟨cs ++ statements, g, (List.append_assoc _ _ _).symm, gap, .cons .nil first rest⟩

theorem Script.many (h : Script depth cs) {d : Nat} (deep : depth ≤ d)
    (ends : Fails (parse .markup d .statement) after) :
    ∃ statements g, cs = statements ++ g ∧ IsGap g ∧
      Takes (many (parse .markup d .statement)) statements (g ++ after) AllWhole := by
  obtain ⟨statements, g, cs_eq, gap, rest⟩ := h.split
  exact ⟨statements, g, cs_eq, gap, (rest.pieces deep (ends g gap)).many⟩

/-! ## No statement -/

theorem fails_statement_closing {d : Nat} : Fails (parse .markup d .statement) ('\x7d' :: cs) := by
  cases d with
  | zero => exact fun _ _ => refuses_failure
  | succ d =>
    refine Fails.skipMarks ((keeps_peek rfl).fails fun first hfirst => ?_) rfl (by simp [isUnmarked, List.isPrefixOf])
    obtain rfl : first = some '\x7d' := hfirst
    refine (keeps_peekWord_none (by decide) rfl).fails fun word hword => ?_
    obtain rfl : word = "" := hword
    have noLabel : Fails (labelledStatement (reader d)) ('\x7d' :: cs) := by
      refine Refuses.node (Fails.here (Fails.bind (Fails.field ?_ _))) rfl
      exact first_nameNode '\x7d' _ (by decide) rfl
    have noExpression : Fails (expressionStatement (reader d)) ('\x7d' :: cs) := by
      refine Refuses.node (Fails.here (Fails.bind ((keeps_next rfl).fails fun _ _ => Fails.bind ?_))) rfl
      exact noStop_expression '\x7d' _ (by decide) rfl
    exact Fails.orElse (fun _ _ => refuses_failure) (noLabel.orElse noExpression)

theorem fails_statement_end {d : Nat} : Fails (parse .markup d .statement) [] := by
  cases d with
  | zero => exact fun _ _ => refuses_failure
  | succ d =>
    refine Fails.skipMarks ((keeps_peek rfl).fails fun first hfirst => ?_) rfl rfl
    obtain rfl : first = none := hfirst
    exact fun _ _ => refuses_failure

/-! ## Blocks -/

/-- Statements in braces. -/
def blockChars (cs : List Char) : List Char := '\x7b' :: (cs ++ ['\x7d'])

theorem reads_block (h : Script depth cs) {d : Nat} (deep : depth + 1 ≤ d) :
    Reads (parse .markup d .block) (blockChars cs) after Whole := by
  obtain ⟨d, rfl⟩ := Nat.exists_eq_add_one_of_ne_zero (show d ≠ 0 by omega)
  obtain ⟨statements, g, rfl, gap, many⟩ := h.many (show _ ≤ d by omega)
    (fails_statement_closing : Fails _ ("\x7d".toList ++ after))
  have shape : blockChars (statements ++ g) = "\x7b".toList ++ (statements ++ (g ++ "\x7d".toList)) := by
    simp [blockChars]
  rw [shape]
  have within : Reads (within "\x7b" "\x7d" (Parser.many (parse .markup d .statement)))
      ("\x7b".toList ++ (statements ++ (g ++ "\x7d".toList))) after AllWhole := many.within gap rfl rfl
  exact (within.here.node (by decide) rfl).mono fun _ => And.left

theorem Script.body (h : Script depth cs) : Body (depth + 1) (blockChars cs) :=
  fun _ deep _ _ _ => (reads_block h deep).orElse

theorem Script.block (h : Script depth cs) : Statement (depth + 2) (blockChars cs) := by
  refine ⟨List.cons_ne_nil _ _, fun d deep after => ?_⟩
  obtain ⟨d, rfl⟩ := Nat.exists_eq_add_one_of_ne_zero (show d ≠ 0 by omega)
  refine Reads.skipMarks ?_ rfl (by simp [blockChars, isUnmarked, List.isPrefixOf])
  refine Keeps.bind (keeps_peek rfl) fun first hfirst => ?_
  obtain rfl : first = some '\x7b' := hfirst
  exact (reads_block h (by omega)).orElse

/-! ## Expressions as statements -/

theorem reads_expressionStatement (h : Expression depth cs) {d : Nat} (deep : depth ≤ d) :
    Reads (expressionStatement (reader d)) (cs ++ [';']) after Whole := by
  have follows : Follows [';'] (';' :: after) := ⟨[], ';', after, .nil, by simp, rfl, rfl⟩
  have hb : begins (cs ++ [';'] ++ after) = true := by
    rw [List.append_assoc]
    exact h.opens.begins _
  have value : Reads (expressions (reader d) .outside) cs (';' :: after) Whole :=
    takes_expressions h deep follows (by decide) (by decide)
  refine (Takes.node (by decide) (Takes.bind value.here fun e he => ?_) hb).mono fun _ => And.left
  exact reads_ending.here.bind_end fun _ _ => takes_pure (allWhole_singleton he)

/-- The words that begin a statement of their own. -/
def statementWords : List String := [
  "if", "for", "while", "with", "do", "switch", "try", "return", "throw", "break", "continue",
  "debugger", "var", "let", "const", "interface", "enum", "abstract", "function", "class", "import",
  "export", "async", "declare", "type", "namespace", "module"]

theorem wordStatement_plain {word : String} (plain : word ∉ statementWords) :
    wordStatement r word = (failure <|> wordStatement.plain r) := by
  have noDeclaration : plainDeclaration r word = failure := by
    unfold plainDeclaration
    split <;> first | rfl | exact absurd (by decide) plain
  unfold wordStatement
  split
  case h_24 => rw [noDeclaration]
  all_goals exact absurd (by decide) plain

/-- A statement is what the word says that it begins with. -/
theorem reads_statement_word {d : Nat} {rest : List Char} (text_eq : cs ++ after = w ++ rest)
    (name : isName w = true) (ends : endsName rest = true)
    (h : Reads (wordStatement (reader d) (String.ofList w)) cs after Whole) :
    Reads (parse .markup (d + 1) .statement) cs after Whole := by
  obtain ⟨c, w', w_eq, part, -⟩ := head_of_isName name
  have hb : begins (cs ++ after) = true := by
    rw [text_eq]
    exact begins_of_isName name
  have unmarked : isUnmarked (cs ++ after) = true := by
    have opens : Opens (w ++ []) := opens_name name
    rw [text_eq]
    simpa using opens.unmarked rest
  refine Reads.skipMarks ((keeps_peek hb).bind fun first hfirst => ?_) hb unmarked
  obtain rfl : first = some c := by rw [hfirst, text_eq, w_eq]; rfl
  have worded : Reads (do wordStatement (reader d) (← peekWord)) cs after Whole := by
    refine Keeps.bind (by rw [text_eq]; exact keeps_peekWord name ends) fun word hword => ?_
    obtain rfl : word = String.ofList w := hword
    exact h
  split
  case h_1 none => cases none
  case h_5 => exact worded
  all_goals
    exact absurd (Option.some.inj ‹some c = some _›) (ne_of_isNameBreak part (by decide))

/-- An expression that begins with a word, and is no label, is a statement. -/
theorem statement_word {c : Char} {rest : List Char} (name : isName w = true)
    (plain : String.ofList w ∉ statementWords) (ends : endsName (c :: rest) = true)
    (noLabel : ∀ after, Refuses (symbol ":") (c :: (rest ++ after))) (h : Expression depth (w ++ c :: rest)) :
    Statement (depth + 1) (w ++ c :: rest ++ [';']) := by
  refine ⟨by simp, fun d deep after => ?_⟩
  obtain ⟨d, rfl⟩ := Nat.exists_eq_add_one_of_ne_zero (show d ≠ 0 by omega)
  have text_eq : w ++ c :: rest ++ [';'] ++ after = w ++ c :: (rest ++ (';' :: after)) := by simp
  refine reads_statement_word text_eq name ends ?_
  rw [wordStatement_plain plain]
  have noLabelled : Fails (labelledStatement (reader d)) (w ++ c :: (rest ++ (';' :: after))) := by
    have label : Reads (nameNode (other "statement_identifier")) w (c :: (rest ++ (';' :: after)))
        (IsA (other "statement_identifier")) := reads_nameNode (by decide) name ends
    refine Refuses.node (Fails.here ?_) (begins_of_isName name)
    exact ((label.mono fun _ => And.left).field _).fails fun _ _ => (noLabel _).bind
  refine Reads.of_failed (Reads.of_failed (reads_expressionStatement h (by omega)) ?_)
    fun _ _ => refuses_failure
  rw [text_eq]
  exact noLabelled

/-- A call or a method of a name is a statement. -/
theorem statement_call {c : Char} {rest : List Char} (name : isName w = true)
    (plain : String.ofList w ∉ statementWords) (sign : c = '(' ∨ c = '.')
    (h : Expression depth (w ++ c :: rest)) : Statement (depth + 1) (w ++ c :: rest ++ [';']) := by
  have colon : First (symbol ":") (· == ':') := first_symbol rfl
  rcases sign with rfl | rfl
  · exact statement_word name plain rfl (fun after => colon '(' _ rfl rfl [] .nil) h
  · exact statement_word name plain rfl (fun after => colon '.' _ rfl rfl [] .nil) h

/-- What is waited for is a statement. -/
theorem statement_await {rest : List Char} (name : isName w = true)
    (h : Expression depth ("await".toList ++ ([' '] ++ (w ++ rest)))) :
    Statement (depth + 1) ("await".toList ++ ([' '] ++ (w ++ rest)) ++ [';']) := by
  have colon : First (symbol ":") (· == ':') := first_symbol rfl
  refine statement_word (by decide) (by decide) rfl (fun after => ?_) h
  obtain ⟨c, w, rfl, part, -⟩ := head_of_isName name
  exact colon c _ (beq_false_of_ne (ne_of_isNameBreak part (by decide))) (begins_of_part part) [' ']
    (.of_blanks (by decide))

/-- An expression that begins with a bracket is a statement. -/
theorem statement_bracket (h : Expression depth ('(' :: cs)) : Statement (depth + 1) ('(' :: cs ++ [';']) := by
  refine ⟨by simp, fun d deep after => ?_⟩
  obtain ⟨d, rfl⟩ := Nat.exists_eq_add_one_of_ne_zero (show d ≠ 0 by omega)
  refine Reads.skipMarks ?_ rfl (by simp [isUnmarked, List.isPrefixOf])
  refine Keeps.bind (keeps_peek rfl) fun first hfirst => ?_
  obtain rfl : first = some '(' := hfirst
  refine Keeps.bind (keeps_peekWord_none (by decide) rfl) fun word hword => ?_
  obtain rfl : word = "" := hword
  have noLabel : Fails (labelledStatement (reader d)) ('(' :: cs ++ [';'] ++ after) := by
    refine Refuses.node (Fails.here (Fails.bind (Fails.field ?_ _))) rfl
    exact first_nameNode '(' _ (by decide) rfl
  have noDeclaration : Fails (plainDeclaration (reader d) "") ('(' :: cs ++ [';'] ++ after) :=
    fun _ _ => refuses_failure
  exact ((reads_expressionStatement h (by omega)).of_failed noLabel).of_failed noDeclaration

/-! ## Declarations -/

theorem reads_declarator (name : isName w = true) (h : Expression depth cs) {d : Nat} (deep : depth ≤ d) :
    Reads (declarator (reader d)) (w ++ (" = ".toList ++ cs)) (';' :: after) Whole := by
  have hb : begins (w ++ (" = ".toList ++ cs) ++ ';' :: after) = true := by
    rw [List.append_assoc]
    exact begins_of_isName name
  have follows : Follows stops (';' :: after) := follows_stop (g := []) .nil (by decide)
  let rest := " = ".toList ++ cs ++ ';' :: after
  have named : Reads (destructuring (reader d) <|> nameNode .identifier) w rest Whole := by
    refine ((reads_nameNode (by decide) name rfl).mono fun _ => And.left).of_failed ?_
    refine first_destructuring.fails_name (fun c part => ?_) name
    simp [ne_of_isNameBreak part (show isNameBreak '\x7b' = true by decide),
      ne_of_isNameBreak part (show isNameBreak '[' = true by decide)]
  have bang : First (symbol "!") (· == '!') := first_symbol rfl
  have refuses : ∀ {β : Type} {p : Parser β} {e : Char}, First p (· == e) → e ≠ '=' → Refuses p rest :=
    fun first other => first '=' _ (beq_false_of_ne other.symm) rfl [' '] isGap_blank
  have sign : Takes assignSign " =".toList (' ' :: (cs ++ ';' :: after)) fun _ => True :=
    Takes.bind_end (f := fun _ => notFollowedBy ['=', '>']) (reads_symbol "=" rfl [' '] isGap_blank)
      fun _ _ => takes_notFollowedBy fun c hc => Option.some.inj hc ▸ by decide
  have value : Takes (orNone (one (assignSign *> field .value ((reader d).expression .outside))))
      (" =".toList ++ (' ' :: cs)) (';' :: after) AllWhole := by
    refine (Takes.one (Takes.seqRight sign ?_)).orNone
    exact (h.reads d deep .outside _ follows).field .value [' '] isGap_blank
  refine (Takes.node (by decide) (Takes.bind (named.here.field .name) fun t ht => ?_) hb).mono
    fun _ => And.left
  refine Takes.bind_here (refuses bang (by decide)).optional fun _ _ => ?_
  refine Takes.bind_here (refuses first_typeAfterColon.one (by decide)).orNone fun types htypes => ?_
  refine value.bind_end fun ts hts => takes_pure ?_
  rw [htypes]
  exact .cons ht hts

/-- A word that is no `enum` stands behind `const`. -/
theorem fails_enumDeclaration_const {rest : List Char} (name : isName w = true)
    (plain : String.ofList w ≠ "enum") (ends : endsName rest = true) :
    Fails (enumDeclaration r) ("const".toList ++ (' ' :: (w ++ rest))) := by
  have isConst : isName "const".toList = true := by decide
  have marked : Reads (optional (keyword "const")) "const".toList (' ' :: (w ++ rest)) fun _ => True :=
    fun g gap => (reads_keyword "const" isConst rfl g gap).optional.mono fun _ _ => trivial
  have noWord : Fails (keyword "enum") (w ++ rest) := fails_keyword name ends plain
  exact Refuses.node (Fails.here (marked.fails fun _ _ => (noWord [' '] isGap_blank).bind)) rfl

theorem fails_variablesAfter {kind u : String} {rest : List Char} (name : isName w = true)
    (ends : endsName rest = true) (other : String.ofList w ≠ u) :
    Fails (variablesAfter r kind u) (w ++ rest) :=
  (keeps_next (begins_of_isName name)).fails fun _ _ => (fails_keyword name ends other).bind

theorem reads_declarators (name : isName w = true) (h : Expression depth cs) {d : Nat} (deep : depth ≤ d) :
    Reads (sepBy1 (declarator (reader d)) (symbol ",")) (w ++ (" = ".toList ++ cs)) (';' :: after)
      AllWhole := by
  intro g gap
  refine (Takes.sepBy1_single (reads_declarator name h deep g gap) ?_).mono fun ts hts => ?_
  · exact (first_comma ';' after rfl rfl).here
  · obtain ⟨t, ht, rfl⟩ := hts
    exact allWhole_singleton ht

/-- A name that is bound to a value. -/
theorem statement_const (name : isName w = true) (plain : String.ofList w ≠ "enum")
    (h : Expression depth cs) :
    Statement (depth + 1) ("const".toList ++ (' ' :: (w ++ (" = ".toList ++ cs)) ++ [';'])) := by
  refine ⟨by simp, fun d deep after => ?_⟩
  obtain ⟨d, rfl⟩ := Nat.exists_eq_add_one_of_ne_zero (show d ≠ 0 by omega)
  have isConst : isName "const".toList = true := by decide
  have text_eq : "const".toList ++ (' ' :: (w ++ (" = ".toList ++ cs)) ++ [';']) ++ after =
      "const".toList ++ (' ' :: (w ++ (" = ".toList ++ cs ++ [';'] ++ after))) := by simp
  have noOther : ∀ kind u, u ≠ "const" → Fails (variablesAfter (reader d) kind u)
      ("const".toList ++ (' ' :: (w ++ (" = ".toList ++ cs ++ [';'] ++ after)))) := fun kind u other =>
    fails_variablesAfter isConst rfl fun eq => other (eq ▸ String.ofList_toList)
  have constant : Reads (variablesAfter (reader d) "lexical_declaration" "const")
      ("const".toList ++ (' ' :: (w ++ (" = ".toList ++ cs)) ++ [';'])) after Whole := by
    refine Keeps.bind (keeps_next rfl) fun start _ => ?_
    refine Reads.bind (reads_keyword "const" isConst rfl) fun _ _ => ?_
    refine Takes.bind (reads_declarators name h (by omega) [' '] isGap_blank) fun ts hts => ?_
    exact reads_ending.here.bind_end fun _ _ => (takes_close (by decide) start hts).mono fun _ => And.left
  refine reads_statement_word text_eq (by decide) rfl ?_
  refine Reads.of_failed ?_ (by rw [text_eq]; exact fails_enumDeclaration_const name plain rfl)
  refine Reads.of_failed ?_ (by rw [text_eq]; exact noOther _ _ (by decide))
  exact Reads.of_failed constant (by rw [text_eq]; exact noOther _ _ (by decide))

/-! ## Choices -/

/-- One block or the other. -/
def choiceChars (cs yes no : List Char) : List Char :=
  "if".toList ++ (" (".toList ++ cs ++ [')'] ++ (' ' :: yes ++ (" else".toList ++ (' ' :: no))))

theorem takes_condition (h : Expression depth cs) {d : Nat} (deep : depth ≤ d) :
    Takes (condition (reader d)) (" (".toList ++ cs ++ [')']) after Whole := by
  have inside : Takes (condition (reader d)) ([' '] ++ '(' :: (cs ++ [')'])) after Whole :=
    (((reads_parenthesized h deep).mono fun _ => And.left).field _) [' '] isGap_blank
  simpa using inside

theorem takes_elseClause {no : List Char} (h : Statement depth no) {d : Nat} (deep : depth ≤ d) :
    Takes (whenWord "else" (field (.other "alternative")
      (worded "else_clause" "else" (one (reader d).statement)))) (" else".toList ++ (' ' :: no)) after
      AllWhole := by
  have word : Keeps peekWord ("else".toList ++ (' ' :: no ++ after)) (· = "else") :=
    keeps_peekWord (by decide) rfl
  have clause : Reads (worded "else_clause" "else" (one (reader d).statement))
      ("else".toList ++ (' ' :: no)) after Whole := by
    refine (Takes.node (by decide) (Takes.seqRight (reads_keyword "else" (by decide) rfl).here ?_)
      rfl).mono fun _ => And.left
    exact (h.reads d deep after).one [' '] isGap_blank
  refine Takes.bind_here (word [' '] isGap_blank) fun found hfound => ?_
  obtain rfl : found = "else" := hfound
  exact ((clause.field _) [' '] isGap_blank).one

theorem statement_if {yes no : List Char} (h : Expression depth cs) (hyes : Statement depth yes)
    (hno : Statement depth no) : Statement (depth + 1) (choiceChars cs yes no) := by
  refine ⟨by simp [choiceChars], fun d deep after => ?_⟩
  obtain ⟨d, rfl⟩ := Nat.exists_eq_add_one_of_ne_zero (show d ≠ 0 by omega)
  have text_eq : choiceChars cs yes no ++ after = "if".toList ++ (" (".toList ++ cs ++ [')'] ++
      (' ' :: yes ++ (" else".toList ++ (' ' :: no))) ++ after) := by simp [choiceChars]
  have deep' : depth ≤ d := by omega
  have chosen : Reads (ifStatement (reader d)) (choiceChars cs yes no) after Whole := by
    refine (Takes.node (by decide) ?_ (by rw [text_eq]; rfl)).mono fun _ => And.left
    refine Takes.seqRight (reads_keyword "if" (by decide) rfl).here ?_
    refine Takes.bind (takes_condition h deep') fun t ht => ?_
    refine Takes.bind (((hyes.reads d deep' _).field _) [' '] isGap_blank) fun t' ht' => ?_
    exact (takes_elseClause hno deep').bind_end fun ts hts => takes_pure (.cons ht (.cons ht' hts))
  exact reads_statement_word text_eq (by decide) rfl chosen

/-! ## Whole sources -/

theorem takes_scriptLine (hb : begins cs = true) (noMark : cs.head? ≠ some '#') :
    Takes scriptLine [] cs (· = []) := by
  refine Refuses.orNone (Fails.here (Fails.one (fails_leaf (fun s hs => ?_) hb)))
  have no : exactly "#!" s = none := by
    refine exactly_eq_none hs ?_
    cases cs with
    | nil => rfl
    | cons c cs =>
      have other : ('#' == c) = false := beq_false_of_ne fun eq => noMark (congrArg some eq.symm)
      simp [List.isPrefixOf, other]
  rw [no]
  rfl

theorem takes_program (h : Script depth cs) (hb : begins cs = true) (noMark : cs.head? ≠ some '#')
    (deep : depth ≤ 20 * (cs.length + 1)) : Takes (program .markup) cs [] AllWhole := by
  have starts : Takes rest [] (cs ++ []) fun s => Spells s cs := fun s hs => ⟨s, rfl, by simpa using hs⟩
  refine starts.bind_here fun start hstart => ?_
  have enough : depth ≤ depthFor start := by rwa [depthFor, hstart.left_eq]
  obtain ⟨statements, g, rfl, gap, many⟩ := h.many enough fails_statement_end
  have noLine : Takes scriptLine [] (statements ++ g ++ []) (· = []) := by
    rw [List.append_nil]
    exact takes_scriptLine hb noMark
  refine noLine.bind_here fun script hscript => Takes.bind many fun ts hts => ?_
  have marks : Takes skipMarks g [] fun _ => True := by
    have taken : Takes skipMarks g ([] ++ []) fun _ => True := takes_skipMarks gap rfl rfl
    exact taken
  have ended : Takes next [] [] (· = []) := fun s hs => by
    cases hs
    exact ⟨[], rfl, rfl⟩
  refine marks.bind_end fun _ _ => ended.bind_end fun s hs => ?_
  obtain rfl : s = [] := hs
  refine takes_pure ?_
  rw [hscript]
  exact hts

/-- A source that is a script has a tree without a fault. -/
theorem whole_treeOf (h : Script depth cs) (hb : begins cs = true) (noMark : cs.head? ≠ some '#')
    (deep : depth ≤ 20 * (cs.length + 1)) (noNul : '\x00' ∉ cs) {s : Input} (hs : Spells s cs) :
    Whole (treeOf .markup s) := by
  have clear : s.dropWhile (·.char != '\x00') = [] := by
    rw [List.dropWhile_eq_nil_iff]
    intro m mem
    rw [bne_iff_ne]
    intro nul
    have inside : m.char ∈ s.chars := List.mem_map_of_mem mem
    rw [nul, hs.chars_eq] at inside
    exact noNul inside
  obtain ⟨ts, found, whole⟩ := takes_program h hb noMark deep s (by simpa using hs)
  rw [treeOf, clear]
  simp only [found, Option.map_some, Option.getD_some]
  exact whole_build (by decide) whole

end SuiteDraft.Grammar
