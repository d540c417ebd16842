import SuiteDraft.Proofs.Grammar.Statements

/-!
# Imports

A module is imported for its main value, for some of its names, or for itself.
-/

namespace SuiteDraft.Grammar

open Input (Spells)
open SuiteDraft.Grammar.Parser

variable {r : Reader} {depth : Nat} {g w cs cs' after : List Char} {c : Char}

/-- The two words that may stand before what is imported. -/
def typeMark : Parser Unit := keyword "type" <|> keyword "typeof"

theorem first_typeMark : First typeMark isNameStart := by
  refine (first_keyword.orElse first_keyword).mono fun c hc => ?_
  rwa [Bool.or_self] at hc

/-- What is imported, and whence. -/
structure Import (cs : List Char) : Prop where
  reads : ∀ after, Reads importStatement.body cs (';' :: after) AllWhole
  noType : ∀ after, Fails (typeMark *> importStatement.body) (cs ++ ';' :: after)

theorem Import.statement (h : Import cs) : Statement 1 ("import ".toList ++ cs ++ [';']) := by
  refine ⟨by simp, fun d deep after => ?_⟩
  obtain ⟨d, rfl⟩ := Nat.exists_eq_add_one_of_ne_zero (show d ≠ 0 by omega)
  have text_eq : "import ".toList ++ cs ++ [';'] ++ after = "import".toList ++ ' ' :: (cs ++ ';' :: after) := by
    simp
  have noAttribute : Refuses (do
      Parser.goesOn .other
      one (node (other "import_attribute") (keyword "with" *> one (objectLiteral (reader d)))))
      (';' :: after) := by
    refine still_goesOn.bind_refuses fun _ => ?_
    exact ((first_keyword ';' after (by decide) rfl).seqRight.here.node rfl).one.here
  have parts : Takes (typeMark *> importStatement.body <|> importStatement.body) (' ' :: cs) (';' :: after)
      AllWhole := ((h.reads after).of_failed (h.noType after)) [' '] isGap_blank
  have imported : Reads (importStatement (reader d)) ("import".toList ++ (' ' :: cs ++ [';'])) after Whole := by
    refine (Takes.node (by decide) ?_ rfl).mono fun _ => And.left
    refine Takes.bind (reads_keyword "import" (by decide) rfl).here fun _ _ => ?_
    refine Takes.bind parts fun ts hts => ?_
    refine noAttribute.orNone.bind_here fun ts' hts' => ?_
    refine reads_ending.here.bind_end fun _ _ => takes_pure ?_
    rw [hts', List.append_nil]
    exact hts
  have taken : Reads (wordStatement (reader d) "import") ("import ".toList ++ cs ++ [';']) after Whole := by
    have shape : "import ".toList ++ cs ++ [';'] = "import".toList ++ (' ' :: cs ++ [';']) := by simp
    rw [shape]
    exact imported.orElse
  exact reads_statement_word text_eq (by decide) rfl taken

theorem reads_fromClause {text : List Char} :
    Reads fromClause ("from ".toList ++ Json.quoteChars text) after Whole := by
  have shape : "from ".toList ++ Json.quoteChars text = "from".toList ++ (' ' :: Json.quoteChars text) := by
    simp
  rw [shape]
  exact Reads.bind (f := fun _ => field .source stringLiteral) (reads_keyword "from" (by decide) rfl)
    fun _ _ => ((reads_stringLiteral text).field _) [' '] (.of_blanks (by decide))

/-! ## A module for itself -/

theorem first_namespaceImport : First namespaceImport (· == '*') :=
  ((first_symbol rfl : First (symbol "*") (· == '*')).seqRight.seqRight).node

theorem first_namedImports : First namedImports (· == '\x7b') := ((first_symbol rfl).within).node

theorem first_importClause : First importClause fun c => c == '*' || (c == '\x7b' || isNameStart c) :=
  (first_namespaceImport.one.orElse (first_namedImports.one.orElse first_nameNode.bind)).node

theorem first_requireClause : First requireClause isNameStart := (First.bind first_nameNode).node

theorem import_itself (text : List Char) : Import (Json.quoteChars text) where
  reads after := by
    refine Reads.of_failed (Reads.of_failed ((reads_stringLiteral text).field _).one ?_) ?_
    · exact first_requireClause.one '"' _ (by decide) rfl
    · exact first_importClause.bind '"' _ (by decide) rfl
  noType after := first_typeMark.seqRight '"' _ (by decide) rfl

/-! ## The main value of a module -/

theorem reads_mainClause (name : isName w = true) (other : c ≠ ',') (hb : begins (c :: cs) = true) :
    Reads importClause w (' ' :: c :: cs) Whole := by
  have noNamespace : Fails (one namespaceImport) (w ++ ' ' :: c :: cs) :=
    first_namespaceImport.one.fails_name_mark (by decide) name
  have noNames : Fails (one namedImports) (w ++ ' ' :: c :: cs) :=
    first_namedImports.one.fails_name_mark (by decide) name
  have noMore : Refuses (symbol "," *> one (namespaceImport <|> namedImports)) (' ' :: c :: cs) :=
    first_comma.seqRight c cs (beq_false_of_ne other) hb [' '] (.of_blanks (by decide))
  have main : Reads (do
      let main ← nameNode .identifier
      return main :: (← orNone (symbol "," *> one (namespaceImport <|> namedImports)))) w
      (' ' :: c :: cs) AllWhole := by
    refine ((reads_nameNode (by decide) name rfl).mono fun _ => And.left).bind_end fun t ht => ?_
    refine noMore.orNone.bind_here fun ts hts => takes_pure ?_
    rw [hts]
    exact allWhole_singleton ht
  exact (((main.of_failed noNames).of_failed noNamespace).here.node (by decide)
    (begins_of_isName name)).mono fun _ => And.left

theorem reads_typeMark (name : isName w = true) (ends : endsName after = true)
    (word : String.ofList w = "type" ∨ String.ofList w = "typeof") :
    Reads typeMark w after fun _ => True := by
  have reads : ∀ u, String.ofList w = u → Reads (keyword u) w after fun _ => True := fun u eq =>
    (reads_word name ends).bind_end fun a ha => takes_guard (by simp [ha, eq])
  rcases word with word | word
  · exact (reads _ word).orElse
  · exact (reads _ word).of_failed (fails_keyword name ends (by rw [word]; decide))

/-- The word before what is imported may be its name. -/
theorem fails_typeMark_main {text : List Char} (name : isName w = true) :
    Fails (typeMark *> importStatement.body) (w ++ (" from ".toList ++ Json.quoteChars text) ++ ';' :: after) := by
  let rest := " from ".toList ++ (Json.quoteChars text ++ ';' :: after)
  have text_eq : w ++ (" from ".toList ++ Json.quoteChars text) ++ ';' :: after = w ++ rest := by simp [rest]
  have ends : endsName rest = true := rfl
  have isFrom : isName "from".toList = true := by decide
  -- what would be imported is the word `from`, and nothing says whence
  have noBody : Refuses importStatement.body rest := by
    let behind := Json.quoteChars text ++ ';' :: after
    have noClause : Fails (do return [← importClause, ← fromClause]) ("from".toList ++ ' ' :: behind) := by
      refine (reads_mainClause isFrom (by decide) rfl).fails fun _ _ => Refuses.bind (Refuses.seqRight ?_)
      exact first_keyword '"' _ (by decide) rfl [' '] isGap_blank
    have noRequire : Fails requireClause ("from".toList ++ ' ' :: behind) := by
      have equals : First (symbol "=") (· == '=') := first_symbol rfl
      refine Refuses.node (Fails.here ((reads_nameNode (by decide) isFrom rfl).fails fun _ _ => ?_)) rfl
      exact (equals '"' _ rfl rfl [' '] isGap_blank).bind
    have noSource : Fails (one (field .source stringLiteral)) ("from".toList ++ ' ' :: behind) :=
      (first_stringLiteral.field _).one 'f' _ (by decide) rfl
    exact (noClause.orElse (noRequire.one.orElse noSource)) [' '] isGap_blank
  rw [text_eq]
  by_cases word : String.ofList w = "type" ∨ String.ofList w = "typeof"
  · exact (reads_typeMark name ends word).fails (f := fun _ => importStatement.body) fun _ _ => noBody
  · rw [not_or] at word
    exact ((fails_keyword name ends word.1).orElse (fails_keyword name ends word.2)).seqRight

theorem import_main (name : isName w = true) (text : List Char) :
    Import (w ++ (" from ".toList ++ Json.quoteChars text)) where
  reads after := by
    refine Reads.orElse (Reads.bind (reads_mainClause name (by decide) rfl) fun t ht => ?_)
    refine (reads_fromClause [' '] (.of_blanks (by decide))).bind_end fun t' ht' => takes_pure ?_
    exact .cons ht (allWhole_singleton ht')
  noType after := fails_typeMark_main name

/-! ## Some names of a module -/

/-- The name can be imported as it is. -/
def Importable (w : List Char) : Prop :=
  isName w = true ∧ String.ofList w ≠ "type" ∧ String.ofList w ≠ "typeof"

theorem reads_specifier {kind : String} (h : Importable w) (follows : Follows [',', '\x7d'] after) :
    Reads (specifier kind) w after Whole := by
  obtain ⟨name, noType, noTypeof⟩ := h
  have ends : endsName after = true := follows.endsName (by decide)
  have hb : begins (w ++ after) = true := begins_of_isName name
  have sort : other kind ≠ .fault := nofun
  have noMark : Fails typeMark (w ++ after) :=
    (fails_keyword name ends noType).orElse (fails_keyword name ends noTypeof)
  have noOther : Refuses (one (keyword "as" *> field .exportedName portalName)) after :=
    first_keyword.seqRight.one.refuses (by decide) follows
  have peeks : Takes peek [] after fun found => found = some ',' ∨ found = some '\x7d' := by
    obtain ⟨g, c, cs, gap, mem, here, rfl⟩ := follows
    refine (keeps_peek here g gap).mono fun found eq => ?_
    simpa [eq] using mem
  have names : Reads specifier.names w after AllWhole := by
    have named : Reads portalName w after Whole :=
      ((reads_nameNode (by decide) name ends).mono fun _ => And.left).orElse
    refine (named.field .name).bind_end fun t ht => noOther.orNone.bind_here fun ts hts => ?_
    refine peeks.bind_here fun found hfound => (takes_guard ?_).bind_here fun _ _ => takes_pure ?_
    · rcases hfound with rfl | rfl <;> rfl
    · rw [hts]
      exact allWhole_singleton ht
  exact ((names.of_failed noMark.seqRight).here.node sort hb).mono fun _ => And.left

/-- More names, each behind a comma. -/
def moreChars (names : List (List Char)) : List Char := names.flatMap fun w => ',' :: ' ' :: w

theorem follows_names (names : List (List Char)) (h : ∀ w ∈ names, Importable w) :
    Follows [',', '\x7d'] (moreChars names ++ (" \x7d".toList ++ after)) := by
  cases names with
  | nil => exact ⟨[' '], '\x7d', after, .of_blanks (by decide), by decide, rfl, rfl⟩
  | cons w names => exact ⟨[], ',', _, .nil, by decide, rfl, rfl⟩

theorem pieces_names {kind : String} : ∀ (names : List (List Char)), (∀ w ∈ names, Importable w) →
    Pieces (symbol "," *> one (specifier kind)) AllWhole (moreChars names) (" \x7d".toList ++ after)
  | [], _ => .nil (first_comma.seqRight '\x7d' after rfl rfl [' '] (.of_blanks (by decide)))
  | w :: names, h => by
    obtain ⟨own, others⟩ := List.forall_mem_cons.mp h
    refine .cons (List.cons_ne_nil _ _) ?_ (pieces_names names others)
    refine Takes.seqRight (reads_symbol "," rfl).here ?_
    exact ((reads_specifier own (follows_names names others)) [' '] (.of_blanks (by decide))).one

/-- Names in braces. -/
def namesChars (w : List Char) (names : List (List Char)) : List Char :=
  '\x7b' :: (' ' :: (w ++ moreChars names) ++ " \x7d".toList)

theorem reads_namedImports {names : List (List Char)} (own : Importable w) (h : ∀ w ∈ names, Importable w) :
    Reads namedImports (namesChars w names) after Whole := by
  have noComma : Refuses (symbol ",") (" \x7d".toList ++ after) :=
    first_comma '\x7d' after rfl rfl [' '] isGap_blank
  have items : Takes (sepBy1 (one (specifier "import_specifier")) (symbol ",")) (' ' :: w ++ moreChars names)
      (" \x7d".toList ++ after) (∀ ts ∈ ·, AllWhole ts) := by
    refine Takes.bind ((reads_specifier own (follows_names names h)) [' '] isGap_blank).one fun ts hts => ?_
    exact (pieces_names names h).many.bind_end fun lists hlists =>
      takes_pure (List.forall_mem_cons.mpr ⟨hts, hlists⟩)
  have list : Takes (orNone (commaList (one (specifier "import_specifier")))) (' ' :: w ++ moreChars names)
      (" \x7d".toList ++ after) AllWhole := by
    refine Takes.orElse (items.bind_end fun lists hlists => ?_)
    refine noComma.optional.bind_end fun _ _ => takes_pure fun t mem => ?_
    obtain ⟨ts, hts, mem⟩ := List.mem_flatten.mp mem
    exact hlists ts hts t mem
  have inside : Takes (do
      let items ← orNone (commaList (one (specifier "import_specifier")))
      let _ ← optional (symbol ",")
      return items) (' ' :: w ++ moreChars names) ([' '] ++ ("\x7d".toList ++ after)) AllWhole :=
    list.bind_end fun ts hts => noComma.optional.bind_end fun _ _ => takes_pure hts
  have within : Reads (within "\x7b" "\x7d" _) ("\x7b".toList ++ (' ' :: w ++ moreChars names ++
      ([' '] ++ "\x7d".toList))) after AllWhole := inside.within isGap_blank rfl rfl
  exact (within.here.node (by decide) rfl).mono fun _ => And.left

theorem import_names {names : List (List Char)} (own : Importable w) (h : ∀ w ∈ names, Importable w)
    (text : List Char) : Import (namesChars w names ++ (" from ".toList ++ Json.quoteChars text)) where
  reads after := by
    have named : Reads importClause (namesChars w names)
        (" from ".toList ++ Json.quoteChars text ++ ';' :: after) Whole := by
      have noNamespace : Fails (one namespaceImport) (namesChars w names ++
          (" from ".toList ++ Json.quoteChars text ++ ';' :: after)) :=
        first_namespaceImport.one '\x7b' _ rfl rfl
      refine (Takes.node (by decide) (Reads.here (Reads.of_failed ?_ noNamespace)) rfl).mono fun _ => And.left
      exact (reads_namedImports own h).one.orElse
    refine Reads.orElse (named.bind fun t ht => ?_)
    refine (reads_fromClause [' '] (.of_blanks (by decide))).bind_end fun t' ht' => takes_pure ?_
    exact .cons ht (allWhole_singleton ht')
  noType after := first_typeMark.seqRight '\x7b' _ (by decide) rfl

end SuiteDraft.Grammar
