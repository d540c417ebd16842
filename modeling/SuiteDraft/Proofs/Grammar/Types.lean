import SuiteDraft.Proofs.Grammar.Operands

/-!
# Names of types

A name is a type, if it is none of the words that begin another one.
-/

namespace SuiteDraft.Grammar

open Input (Spells)
open SuiteDraft.Grammar.Parser

variable {r : Reader} {flow : TypeFlow} {depth : Nat} {g w cs cs' inner after : List Char} {c : Char}
  {α : Type} {p : Parser α} {ok : Char → Bool}

/-- The words that begin a type of their own, or that stand in the place of a name for something else. -/
def typeStarts : List String := typeWords ++ ["true", "false", "null", "undefined", "this", "import"]

/-- What begins with a mark is no name. -/
theorem Parser.First.fails_name (h : First p ok) (marks : ∀ c, isNameBreak c = false → ok c = false)
    (name : isName w = true) : Fails p (w ++ after) := by
  obtain ⟨c, w, rfl, part, -⟩ := head_of_isName name
  exact h c _ (marks c part) (begins_of_part part)

theorem Parser.First.fails_name_mark {d : Char} (h : First p (· == d)) (mark : isNameBreak d = true)
    (name : isName w = true) : Fails p (w ++ after) :=
  h.fails_name (fun _ part => beq_false_of_ne (ne_of_isNameBreak part mark)) name

theorem fails_wordLiteral (name : isName w = true) (ends : endsName after = true)
    (plain : String.ofList w ∉ typeStarts) : Fails wordLiteral (w ++ after) := by
  have other : ∀ u ∈ typeStarts, Fails (keyword u) (w ++ after) := fun u mem =>
    fails_keyword name ends fun eq => plain (eq ▸ mem)
  exact (other _ (by decide)).wordNode.orElse
    ((other _ (by decide)).wordNode.orElse (other _ (by decide)).wordNode)

theorem fails_literalType (name : isName w = true) (ends : endsName after = true)
    (plain : String.ofList w ∉ typeStarts) : Fails literalType (w ++ after) := by
  have hb : begins (w ++ after) = true := begins_of_isName name
  have minus : First (symbol "-") (· == '-') := first_symbol rfl
  have plus : First (symbol "+") (· == '+') := first_symbol rfl
  have strings : Fails stringLiteral (w ++ after) :=
    (first_stringIn.fails_name_mark (by decide) name).orElse
      (first_stringIn.fails_name_mark (by decide) name)
  have numbers : Fails numberLiteral (w ++ after) := by
    obtain ⟨c, w, rfl, part, digit⟩ := head_of_isName name
    exact fails_number digit (ne_of_isNameBreak part (by decide)) hb
  have undefined : Fails (wordNode (other "undefined") "undefined") (w ++ after) :=
    (fails_keyword name ends fun eq => plain (eq ▸ by decide)).wordNode
  have signed : Fails (symbol "-" <|> symbol "+") (w ++ after) :=
    (minus.fails_name_mark (by decide) name).orElse (plus.fails_name_mark (by decide) name)
  refine Refuses.node (Fails.here (Fails.one ?_)) hb
  exact strings.orElse (numbers.orElse ((fails_wordLiteral name ends plain).orElse
    (undefined.orElse (signed.seqRight.here.node hb))))

theorem refuses_moreNames {link : Kind} {property : Parser Tree} {start : Input} {t : Tree}
    {Q : Tree → Prop} (h : Refuses (symbol ".") after) (whole : Q t) :
    ∀ n, Takes (moreNames link property start n t) [] after Q
  | 0 => takes_pure whole
  | _ + 1 => (takes_pure whole).of_refused h.bind

theorem reads_typeName (name : isName w = true) (follows : Follows stops after) :
    Reads typeName w after Whole := by
  have ends : endsName after = true := follows.endsName (by decide)
  have hb : begins (w ++ after) = true := begins_of_isName name
  have point : First (symbol ".") (· == '.') := first_symbol rfl
  have noPoint : Refuses (symbol ".") after := point.refuses (by decide) follows
  refine ((reads_nameNode (by decide) name ends).mono fun _ => And.left).of_failed ?_
  refine Refuses.node (Fails.here ((keeps_next hb).fails fun start _ => ?_)) hb
  refine (reads_nameNode (by decide) name ends).fails fun t ht => ?_
  exact @Takes.refuses _ _ _ _ [] _ _ (refuses_moreNames noPoint trivial _ : Takes _ _ _ fun _ => True)
    fun _ _ => noPoint.seqRight.bind

theorem still_type_goesOn : Still flow.goesOn := by
  unfold TypeFlow.goesOn
  split
  · exact still_goesOn
  · exact still_pure

theorem reads_namedType (name : isName w = true) (plain : String.ofList w ∉ typeStarts)
    (follows : Follows stops after) : Reads (namedType r flow) w after Whole := by
  have ends : endsName after = true := follows.endsName (by decide)
  have hb : begins (w ++ after) = true := begins_of_isName name
  have noWord : String.ofList w ∉ typeWords := fun mem => plain (List.mem_append_left _ mem)
  refine (keeps_next hb).bind fun start _ => (keeps_peekWord name ends).bind fun word hword => ?_
  obtain rfl : word = String.ofList w := hword
  refine Keeps.bind (fun _ _ => takes_guard (by simpa using noWord)) fun _ _ => ?_
  refine (reads_typeName name follows).bind_end fun t ht => ?_
  have noArguments : Refuses (flow.goesOn *> typeArguments r) after := by
    exact still_type_goesOn.bind_refuses (f := fun _ => typeArguments r) fun _ =>
      first_typeArguments.refuses (by decide) follows
  refine noArguments.optional.bind_here fun args hargs => ?_
  obtain rfl : args = none := hargs
  split
  · split
    · exact (takes_close (by decide) start allWhole_nil).mono fun _ => And.left
    · exact takes_pure ht
  · next some => cases some

theorem fails_wordedType {kind u : String} {p : Parser Tree} (hb : begins cs = true)
    (h : Fails (keyword u) cs) : Fails (wordedType kind u p) cs := h.seqRight.here.node hb

theorem reads_atomicType (name : isName w = true) (plain : String.ofList w ∉ typeStarts)
    (follows : Follows stops after) : Reads (atomicType (reader depth) flow) w after Whole := by
  have ends : endsName after = true := follows.endsName (by decide)
  have hb : begins (w ++ after) = true := begins_of_isName name
  have other : ∀ u ∈ typeStarts, Fails (keyword u) (w ++ after) := fun u mem =>
    fails_keyword name ends fun eq => plain (eq ▸ mem)
  have question : First (symbol "?") (· == '?') := first_symbol rfl
  have star : First (symbol "*") (· == '*') := first_symbol rfl
  have round : First (within "(" ")" ((reader depth).type .inside)) (· == '(') := (first_symbol rfl).within
  have square : First (within "[" "]" (places (one (tupleMember (reader depth))))) (· == '[') :=
    (first_symbol rfl).within
  have template : First (templateType (reader depth)) (· == '`') :=
    (First.bind (first_symbol rfl)).node
  have noTypes : Keeps (orNone (one (typeParameters (reader depth)))) (w ++ after) (· = []) :=
    (first_typeParameters.one.fails_name_mark (by decide) name).orNone
  have noFunction : Fails (functionType (reader depth) flow) (w ++ after) := by
    refine Refuses.node (Fails.here (noTypes.fails fun _ _ => Fails.bind ?_)) hb
    exact (first_parameters.field _).fails_name_mark (by decide) name
  have noConstructor : Fails (constructorType (reader depth) flow) (w ++ after) := by
    refine Refuses.node (Fails.here ((other "abstract" (by decide)).optional.fails fun _ _ => ?_)) hb
    exact (other "new" (by decide)).bind
  have noImport : Fails (importType (reader depth)) (w ++ after) :=
    (keeps_next hb).fails fun _ _ => Fails.bind (Fails.field (other "import" (by decide)).wordNode _)
  refine Reads.of_failed ?_ noFunction
  refine Reads.of_failed ?_ noConstructor
  refine Reads.of_failed ?_ ((round.fails_name_mark (by decide) name).one.here.node hb)
  refine Reads.of_failed ?_ ((square.fails_name_mark (by decide) name).here.node hb)
  refine Reads.of_failed ?_ (first_objectType.fails_name_mark (by decide) name)
  refine Reads.of_failed ?_ (template.fails_name_mark (by decide) name)
  refine Reads.of_failed ?_ (fails_literalType name ends plain)
  refine Reads.of_failed ?_ (fails_wordedType hb (other _ (by decide)))
  refine Reads.of_failed ?_ (fails_wordedType hb (other _ (by decide)))
  refine Reads.of_failed ?_ ((other "infer" (by decide)).bind.here.node hb)
  refine Reads.of_failed ?_ (fails_wordedType hb (other _ (by decide)))
  refine Reads.of_failed ?_ ((other "unique" (by decide)).seqRight.seqRight.here.node hb)
  refine Reads.of_failed ?_ (other "this" (by decide)).wordNode
  refine Reads.of_failed ?_ noImport
  refine Reads.of_failed ?_ ((question.fails_name_mark (by decide) name).seqRight.here.node hb)
  refine Reads.of_failed ?_ ((star.fails_name_mark (by decide) name).seqRight.here.node hb)
  exact reads_namedType name plain follows

theorem reads_simpleType {d : Nat} (deep : 1 ≤ d) (name : isName w = true)
    (plain : String.ofList w ∉ typeStarts) (follows : Follows stops after) :
    Reads (parse .markup d (.simpleType flow)) w after Whole := by
  obtain ⟨d, rfl⟩ := Nat.exists_eq_add_one_of_ne_zero (show d ≠ 0 by omega)
  refine (keeps_next (begins_of_isName name)).bind fun start _ => ?_
  refine (reads_atomicType name plain follows).bind_end fun t ht => ?_
  have bracket : First (within "[" "]" (orNone (one ((reader d).type .inside)))) (· == '[') :=
    (first_symbol rfl).within
  have noBracket : Refuses (within "[" "]" (orNone (one ((reader d).type .inside)))) after :=
    bracket.refuses (by decide) follows
  generalize start.left = n
  cases n with
  | zero => exact takes_pure ht
  | succ n =>
    exact (takes_pure ht).of_refused (still_type_goesOn.bind_refuses fun _ => noBracket.bind)

theorem reads_joinedTypes {kind sign : String} {p : Parser Tree} {d : Char} {ds : List Char}
    (sign_eq : sign.toList = d :: ds) (mark : isNameBreak d = true) (quiet : d ∉ stops)
    (name : isName w = true) (follows : Follows stops after) (h : Reads p w after Whole) :
    Reads (joinedTypes kind sign flow p) w after Whole := by
  have signed : First (symbolNot sign sign.toList) (· == d) := first_symbolNot sign_eq
  refine (keeps_next (begins_of_isName name)).bind fun start _ => ?_
  refine Keeps.bind (signed.fails_name_mark mark name).optional fun lead hlead => ?_
  refine h.bind_end fun first hfirst => ?_
  have noMore : Refuses (flow.goesOn *> symbolNot sign sign.toList *> p) after := by
    refine Refuses.seqRight (still_type_goesOn.bind_refuses (f := fun _ => _) fun _ => ?_)
    exact signed.refuses (fun c mem => beq_false_of_ne fun eq => quiet (eq ▸ mem)) follows
  refine noMore.many.bind_here fun others hothers => ?_
  rw [hlead, hothers]
  exact takes_pure hfirst

theorem typing_name (name : isName w = true) (plain : String.ofList w ∉ typeStarts)
    (follows : Follows stops after) : Typing 2 w after := by
  intro d deep flow
  obtain ⟨d, rfl⟩ := Nat.exists_eq_add_one_of_ne_zero (show d ≠ 0 by omega)
  refine (keeps_next (begins_of_isName name)).bind fun start _ => ?_
  refine Reads.bind_end (reads_joinedTypes rfl (by decide) (by decide) name follows
    (reads_joinedTypes rfl (by decide) (by decide) name follows
      (reads_simpleType (by omega) name plain follows))) fun t ht => ?_
  refine (takes_pure ht).of_refused (still_type_goesOn.bind_refuses fun _ => Refuses.bind ?_)
  exact first_keyword.refuses (by decide) follows

/-! ## Values of a type -/

theorem Typing.mono {depth' : Nat} (h : Typing depth cs after) (le : depth ≤ depth') :
    Typing depth' cs after := fun d deep => h d (le.trans deep)

/-- An operand that is taken for a value of a type. -/
theorem Access.cast {v : List Char}
    (h : ∀ after, Access (depth + 1) cs (" as ".toList ++ (v ++ after)) Whole)
    (opening : ∀ after, Opening (cs ++ (" as ".toList ++ (v ++ after)))) (opens : Opens cs)
    (name : isName v = true) (plain : String.ofList v ∉ typeStarts) :
    Expression (depth + 4) (cs ++ (" as ".toList ++ v)) := by
  refine Operation.expression (fun after follows => ?_) (opens.append _)
  have access : Access (depth + 1) cs ([' '] ++ ("as".toList ++ ([' '] ++ (v ++ after)))) Whole :=
    h after
  have unary := access.unary isGap_blank (opening after) opens rfl
  exact unary.cast (by decide) isGap_blank ((typing_name name plain follows).mono (by omega)) rfl
    (opens.begins _) follows

theorem Tail.cast : Tail depth [] (" as ".toList ++ after) Whole := by
  have follows : Follows ['a'] (" as ".toList ++ after) :=
    ⟨[' '], 'a', _, .of_blanks (by decide), by simp, rfl, rfl⟩
  exact .nil follows (by decide) rfl

theorem expression_name_cast {v : List Char} (name : isName w = true)
    (plain : String.ofList w ∉ reservedWords)
    (tail : ∀ after, Tail depth cs (" as ".toList ++ (v ++ after)) Whole)
    (name' : isName v = true) (plain' : String.ofList v ∉ typeStarts) :
    Expression (depth + 4) (w ++ cs ++ (" as ".toList ++ v)) :=
  Access.cast (fun after => access_name name plain (tail after))
    (fun after => (tail after).opening name plain) (opens_name name) name' plain'

theorem expression_object_cast {g v : List Char} (h : Listing member '\x7d' depth inner)
    (gap : IsGap g) (name : isName v = true) (plain : String.ofList v ∉ typeStarts) :
    Expression (depth + 4) ('\x7b' :: (inner ++ (g ++ ['\x7d'])) ++ (" as ".toList ++ v)) := by
  have object : ∀ after, Access (depth + 1) ('\x7b' :: (inner ++ (g ++ ['\x7d'])))
      (" as ".toList ++ (v ++ after)) Whole := by
    intro after
    have follows : Follows ['a'] (" as ".toList ++ (v ++ after)) :=
      ⟨[' '], 'a', _, .of_blanks (by decide), by decide, rfl, rfl⟩
    exact (operand_object h gap (fails_assignSign_first follows (by decide))).alone follows (by decide) rfl
  exact Access.cast object (fun _ => opening_sign (by decide) rfl (by decide))
    (opens_cons (by decide) (by decide)) name plain

/-! ## What begins no type -/

theorem fails_atomicType_equals : Fails (atomicType (reader depth) flow) ('=' :: cs) := by
  have hb : begins ('=' :: cs) = true := rfl
  have noWord : ∀ u, Fails (keyword u) ('=' :: cs) := fun _ => first_keyword '=' cs (by decide) rfl
  have noSign : ∀ {sign : String} {d : Char} {ds : List Char}, sign.toList = d :: ds → d ≠ '=' →
      Fails (symbol sign) ('=' :: cs) := fun sign_eq other =>
    first_symbol sign_eq '=' cs (beq_false_of_ne other.symm) rfl
  have noTypes : Keeps (orNone (one (typeParameters (reader depth)))) ('=' :: cs) (· = []) :=
    (first_typeParameters.one '=' cs rfl rfl).orNone
  have noName : ∀ kind, Fails (nameNode kind) ('=' :: cs) := fun _ =>
    first_nameNode '=' cs (by decide) rfl
  have noFunction : Fails (functionType (reader depth) flow) ('=' :: cs) :=
    (noTypes.fails fun _ _ => ((first_parameters.field _).bind) '=' cs rfl rfl).here.node hb
  have noConstructor : Fails (constructorType (reader depth) flow) ('=' :: cs) :=
    ((noWord _).optional.fails fun _ _ => (noWord _).bind).here.node hb
  have noLiteral : Fails literalType ('=' :: cs) := by
    refine (Fails.one (Fails.orElse ?_ (Fails.orElse ?_ (Fails.orElse ?_ (Fails.orElse ?_ ?_))))).here.node hb
    · exact first_stringLiteral '=' cs rfl rfl
    · exact fails_number (by decide) (by decide) rfl
    · exact (noWord _).wordNode.orElse ((noWord _).wordNode.orElse (noWord _).wordNode)
    · exact (noWord _).wordNode
    · exact ((noSign rfl (by decide)).orElse (noSign rfl (by decide))).seqRight.here.node hb
  have noQuery : Fails (typeQuery (reader depth)) ('=' :: cs) := fails_wordedType hb (noWord _)
  have noNamed : Fails (namedType (reader depth) flow) ('=' :: cs) := by
    refine still_next.fails fun _ => still_peekWord.fails fun _ => still_guard.fails fun _ => ?_
    refine Fails.bind (Fails.orElse ?_ (noName _))
    exact (still_next.fails fun _ => (noName _).bind).here.node hb
  refine noFunction.orElse (noConstructor.orElse (Fails.orElse ?_ (Fails.orElse ?_ (Fails.orElse ?_
    (Fails.orElse ?_ (noLiteral.orElse ?_))))))
  · exact (Fails.bind (noSign rfl (by decide))).one.here.node hb
  · exact (Fails.bind (noSign rfl (by decide))).here.node hb
  · exact first_objectType '=' cs rfl rfl
  · exact (Fails.bind (noSign rfl (by decide))).here.node hb
  refine (fails_wordedType hb (noWord _)).orElse ((fails_wordedType hb (noWord _)).orElse
    ((noWord _).bind.here.node hb |>.orElse (noQuery.orElse (Fails.orElse ?_ (Fails.orElse ?_
      (Fails.orElse ?_ (Fails.orElse ?_ (Fails.orElse ?_ noNamed))))))))
  · exact (noWord _).seqRight.seqRight.here.node hb
  · exact (noWord _).wordNode
  · exact still_next.fails fun _ => Fails.bind (Fails.field (noWord _).wordNode _)
  · exact (noSign rfl (by decide)).seqRight.here.node hb
  · exact (noSign rfl (by decide)).seqRight.here.node hb

theorem fails_joinedTypes_equals {kind sign : String} {p : Parser Tree} {d : Char} {ds : List Char}
    (sign_eq : sign.toList = d :: ds) (other : d ≠ '=') (h : Fails p ('=' :: cs)) :
    Fails (joinedTypes kind sign flow p) ('=' :: cs) := by
  have noSign : Fails (symbolNot sign sign.toList) ('=' :: cs) :=
    first_symbolNot sign_eq '=' cs (beq_false_of_ne other.symm) rfl
  exact still_next.fails fun _ => noSign.optional.fails fun _ _ => h.bind

/-- The sign that comes before a value begins no type. -/
theorem fails_type_equals : Fails (parse .markup depth (.type flow)) ('=' :: cs) := by
  cases depth with
  | zero => exact fun _ _ => refuses_failure
  | succ depth =>
    have simple : Fails (parse .markup depth (.simpleType flow)) ('=' :: cs) := by
      cases depth with
      | zero => exact fun _ _ => refuses_failure
      | succ depth => exact still_next.fails fun _ => fails_atomicType_equals.bind
    exact still_next.fails fun _ => Fails.bind (fails_joinedTypes_equals rfl (by decide)
      (fails_joinedTypes_equals rfl (by decide) simple))

end SuiteDraft.Grammar
