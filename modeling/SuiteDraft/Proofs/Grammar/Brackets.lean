import SuiteDraft.Proofs.Grammar.Operands

/-!
# Round brackets

Round brackets may hold the parameters of a function or an expression. They are read as the former
first; so for an expression in brackets it must be seen that it is no list of parameters.
-/

namespace SuiteDraft.Grammar

open Input (Spells)
open SuiteDraft.Grammar.Parser

variable {r : Reader} {flow : Flow} {depth : Nat} {g w cs cs' inner after : List Char} {c : Char}
  {P Q : Tree → Prop}

/-! ## Expressions in brackets -/

theorem reads_parenthesized (h : Expression depth cs) {d : Nat} (deep : depth ≤ d) :
    Reads (parenthesized (reader d)) ('(' :: (cs ++ [')'])) after
      (IsA (other "parenthesized_expression")) := by
  have follows : Follows [')'] (')' :: after) := ⟨[], ')', after, .nil, by simp, rfl, rfl⟩
  have inside : Takes (do
      let e ← expressions (reader d) .inside
      let type ← orNone (one (typeAfterColon (reader d) .inside))
      return e :: type) cs (')' :: after) AllWhole := by
    refine (takes_expressions h deep follows (by decide) (by decide)).here.bind_end fun e he => ?_
    have noType := ((@first_typeAfterColon (reader d) .inside).one ')' after rfl rfl).orNone
    refine noType.here.bind_end fun type htype => takes_pure ?_
    obtain rfl : type = [] := htype
    exact allWhole_singleton he
  exact (Takes.within (g := []) inside .nil rfl rfl).here.node (by decide) rfl

/-- What could be the parameters of a function is not read as such. -/
theorem fails_arrowFunction_bracket {d : Nat} (h : Refuses (parse .markup d .parameters) ('(' :: cs)) :
    Fails (arrowFunction (reader d) flow) ('(' :: cs) := by
  have noName : Fails (one (field .parameter (nameNode .identifier))) ('(' :: cs) :=
    (first_nameNode.field _).one '(' cs (by decide) rfl
  have noTypes : Keeps (orNone (one (typeParameters (reader d)))) ('(' :: cs) (· = []) :=
    (first_typeParameters.one '(' cs rfl rfl).orNone
  have head : Refuses (arrowHead (reader d) flow) ('(' :: cs) := by
    refine noName.here.orElse ?_
    split <;> exact Takes.refuses noTypes.here fun _ _ => (h.field _).bind
  refine Refuses.node (Refuses.bind (Refuses.orElse ?_ head.seqLeft)) rfl
  exact (first_asyncMark '(' cs (by decide) rfl).here.seqRight.seqLeft

theorem operand_parenthesized (h : Expression depth cs)
    (noArrow : ∀ d, depth ≤ d → Refuses (parse .markup d .parameters) ('(' :: (cs ++ ')' :: after))) :
    Operand depth ('(' :: (cs ++ [')'])) after (IsA (other "parenthesized_expression")) := by
  intro d deep flow
  refine Keeps.bind (keeps_peek rfl) fun first hfirst => ?_
  obtain rfl : first = some '(' := hfirst
  refine (reads_parenthesized h deep).of_failed ?_
  have fails : Fails (arrowFunction (reader d) flow) _ := fails_arrowFunction_bracket (noArrow d deep)
  simpa using fails

theorem Operand.mono_result {P Q : Tree → Prop} (h : Operand depth cs after P) (weaker : ∀ t, P t → Q t) :
    Operand depth cs after Q := fun d deep flow => (h d deep flow).mono weaker

/-- What is asked of an expression in brackets. -/
theorem expression_parenthesized (h : Expression depth cs)
    (noArrow : ∀ d, depth ≤ d → ∀ after, Refuses (parse .markup d .parameters) ('(' :: (cs ++ ')' :: after)))
    (tail : ∀ after, Follows stops after → Tail depth cs' after Whole) :
    Expression (depth + 4) ('(' :: (cs ++ [')']) ++ cs') := by
  refine Access.expression (fun after follows => ?_)
    (fun _ _ => opening_sign (by decide) rfl (by decide)) (opens_cons (by decide) (by decide))
  have operand : Operand depth _ (cs' ++ after) _ := operand_parenthesized h fun d deep => noArrow d deep _
  exact (operand.mono_result fun _ => And.left).access (tail after follows).chain rfl

/-! ## What is no list of parameters -/

def modifierWords : List String := "override" :: "readonly" :: accessWords

theorem keeps_parameterModifiers (hb : begins cs = true)
    (plain : ∀ w ∈ modifierWords, Fails (keyword w) cs) : Keeps parameterModifiers cs (· = []) := by
  have access : Fails (accessWords.foldr (fun w p => modifier w <|> p) failure) cs := by
    simp only [accessWords, List.foldr_cons, List.foldr_nil]
    refine Fails.orElse (Fails.bind (plain _ (by decide))) (Fails.orElse (Fails.bind (plain _ (by decide)))
      (Fails.orElse (Fails.bind (plain _ (by decide))) fun _ _ => refuses_failure))
  have override : Fails (modifier "override") cs := (plain _ (by decide)).bind
  have readonly : Fails (modifier "readonly") cs := (plain _ (by decide)).bind
  refine Keeps.keeps ((access.here.bind.node hb).one).orNone fun ts hts => ?_
  refine Keeps.keeps ((override.here.bind.node hb).one).orNone fun ts' hts' => ?_
  refine Keeps.keeps readonly.optional fun _ _ => keeps_pure ?_
  rw [hts, hts']
  rfl

/-- The target of a parameter. -/
def target (r : Reader) : Parser Tree :=
  destructuring r <|> restPattern (destructuring r <|> operandName) <|> wordNode (other "this") "this"
    <|> operandName

theorem keeps_decorators (hb : begins (c :: cs) = true) (other : c ≠ '@') :
    Keeps (decorators r) (c :: cs) (· = []) := by
  have first : First (decorator r) (· == '@') := (First.bind (first_symbol rfl)).node
  exact ((first.field _) c cs (beq_false_of_ne other) hb).many

theorem fails_parameter (hb : begins (c :: cs) = true) (decorated : c ≠ '@')
    (plain : ∀ w ∈ modifierWords, Fails (keyword w) (c :: cs)) (h : Fails (target r) (c :: cs)) :
    Fails (parameter r) (c :: cs) := by
  refine (keeps_next hb).fails fun _ _ => (keeps_decorators hb decorated).fails fun _ _ => ?_
  refine (keeps_parameterModifiers hb plain).fails fun _ _ => ?_
  exact Fails.bind (Fails.field h _)

theorem refuses_parameters_of_fails {d : Nat} (h : ∀ e, d = e + 1 → Refuses (parameter (reader e)) cs)
    (hb : begins cs = true) (closing : cs.head? ≠ some ')') :
    Refuses (parse .markup d .parameters) ('(' :: cs) := by
  cases d with
  | zero => exact refuses_failure
  | succ d =>
    have empty : Takes (orNone (commaList (one (parameter (reader d))))) [] cs (· = []) :=
      (h d rfl).one.bind.bind.orNone
    have unclosed : Refuses (symbol ")") cs := by
      refine (fails_symbol ?_ hb).here
      cases cs with
      | nil => rfl
      | cons c cs =>
        have other : (')' == c) = false := beq_false_of_ne fun eq => closing (congrArg some eq.symm)
        simp [List.isPrefixOf, other]
    refine (Refuses.node ?_ rfl).here
    exact Takes.refuses (reads_symbol "(" rfl).here fun _ _ =>
      Takes.refuses empty fun _ _ => unclosed.bind

theorem fails_target_name (name : isName w = true) (ends : endsName after = true)
    (word : String.ofList w ∈ operandWords) (other : String.ofList w ≠ "this") :
    Fails (target r) (w ++ after) := by
  have hb : begins (w ++ after) = true := begins_of_isName name
  have reserved : Fails operandName (w ++ after) :=
    (keeps_next hb).fails fun _ _ => (reads_word name ends).fails fun a ha =>
      Refuses.bind (refuses_guard (by simpa [ha] using word))
  refine Fails.orElse ?_ (Fails.orElse ?_ (Fails.orElse (fails_keyword name ends other).wordNode reserved))
  all_goals obtain ⟨c, w', rfl, part, -⟩ := head_of_isName name
  · exact first_destructuring c _ (by
      simp [ne_of_isNameBreak part (show isNameBreak '\x7b' = true by decide),
        ne_of_isNameBreak part (show isNameBreak '[' = true by decide)]) hb
  · exact first_restPattern c _ (beq_false_of_ne (ne_of_isNameBreak part (by decide))) hb

theorem reads_target_name (name : isName w = true) (ends : endsName after = true)
    (plain : String.ofList w ∉ operandWords) : Reads (target r) w after Whole := by
  have hb : begins (w ++ after) = true := begins_of_isName name
  have this : String.ofList w ≠ "this" := fun eq => plain (eq ▸ by decide)
  refine (((reads_operandName name ends plain).of_failed (fails_keyword name ends this).wordNode).of_failed
    ?_).of_failed ?_
  all_goals obtain ⟨c, w', rfl, part, -⟩ := head_of_isName name
  · exact first_restPattern c _ (beq_false_of_ne (ne_of_isNameBreak part (by decide))) hb
  · exact first_destructuring c _ (by
      simp [ne_of_isNameBreak part (show isNameBreak '\x7b' = true by decide),
        ne_of_isNameBreak part (show isNameBreak '[' = true by decide)]) hb

/-- What may follow the name of a parameter. -/
def parameterSigns : List Char := ['?', ':', '=', ',', ')']

/-- A name that nothing of a parameter follows is a parameter by itself. -/
theorem takes_parameter_of_name {d : Nat} (name : isName w = true)
    (plain : String.ofList w ∉ operandWords) (noModifier : String.ofList w ∉ modifierWords)
    (ends : endsName after = true) (noQuestion : Refuses (symbol "?") after)
    (noType : Refuses (typeAfterColon (reader d) .inside) after)
    (noValue : Refuses (defaultValue (reader d) .value) after) :
    Takes (one (parameter (reader d))) w after fun _ => True := by
  have hb : begins (w ++ after) = true := begins_of_isName name
  have words : ∀ u ∈ modifierWords, Fails (keyword u) (w ++ after) := fun u mem =>
    fails_keyword name ends fun eq => noModifier (eq ▸ mem)
  have decorated : Keeps (decorators (reader d)) (w ++ after) (· = []) := by
    obtain ⟨c, w', rfl, part, -⟩ := head_of_isName name
    exact keeps_decorators hb (ne_of_isNameBreak part (by decide))
  have takes : Takes (parameter (reader d)) w after fun _ => True := by
    refine (keeps_next hb).here.bind_here fun start _ => decorated.here.bind_here fun _ _ => ?_
    refine (keeps_parameterModifiers hb words).here.bind_here fun _ _ => ?_
    refine ((reads_target_name name ends plain).field _).here.bind_end fun _ _ => ?_
    refine noQuestion.optional.bind_here fun _ _ => noType.one.orNone.bind_here fun _ _ => ?_
    exact noValue.one.orNone.bind_here fun _ _ _ _ => ⟨_, rfl, trivial⟩
  exact takes.bind_end fun _ _ => takes_pure trivial

/-- Round brackets hold no parameters, if something else follows a name in them. -/
theorem refuses_parameters_of_name {ds : List Char} (name : isName w = true)
    (plain : String.ofList w ∉ operandWords) (noModifier : String.ofList w ∉ modifierWords)
    (follows : Follows ds after) (ends : endsName after = true) (others : ∀ c ∈ ds, c ∉ parameterSigns)
    (d : Nat) : Refuses (parse .markup d .parameters) ('(' :: (w ++ after)) := by
  cases d with
  | zero => exact refuses_failure
  | succ d =>
    have refuses : ∀ {β : Type} {p : Parser β} {e : Char}, First p (· == e) → e ∈ parameterSigns →
        Refuses p after := fun first mem =>
      first.refuses (fun c hc => beq_false_of_ne fun eq => others c hc (eq ▸ mem)) follows
    have question : First (symbol "?") (· == '?') := first_symbol rfl
    have closing : First (symbol ")") (· == ')') := first_symbol rfl
    have value : First (defaultValue (reader d) .value) (· == '=') := (first_symbolNot rfl).bind
    have parameter := takes_parameter_of_name name plain noModifier ends (refuses question (by decide))
      (refuses first_typeAfterColon (by decide)) (refuses value (by decide))
    have list := (parameter.commaList_single (refuses first_comma (by decide))).orNone
    refine (Refuses.node ?_ rfl).here
    exact Takes.refuses (reads_symbol "(" rfl).here fun _ _ =>
      Takes.refuses list fun _ _ => (refuses closing (by decide)).bind

/-! ## What is no pattern -/

theorem reads_shorthand {rest : List Char} (name : isName w = true) :
    Reads (propertyPattern.shorthand r) w (':' :: rest) fun _ => True := by
  have value : First (defaultValue r (.other "right")) (· == '=') := (first_symbolNot rfl).bind
  refine (keeps_next (begins_of_isName name)).bind fun _ _ => ?_
  refine ((reads_nameNode (by decide) name (by rfl)).orElse).bind_end fun t ht => ?_
  refine (value ':' _ rfl rfl).here.optional.bind_here fun found hfound => ?_
  obtain rfl : found = none := hfound
  exact (takes_guard (by rw [ht.2]; rfl)).bind_here fun _ _ => takes_pure trivial

/-- An object is no pattern if the value of its first member is none. -/
theorem fails_objectPattern {g' key rest : List Char} (gap : IsGap g) (gap' : IsGap g')
    (name : isName key = true) (h : Fails (patternOrDefault r r.pattern) rest) :
    Fails (objectPattern r) ('\x7b' :: (g ++ (key ++ ':' :: (g' ++ rest)))) := by
  have hb : begins (key ++ ':' :: (g' ++ rest)) = true := begins_of_isName name
  have noRest : Fails (restPattern r.pattern) (key ++ ':' :: (g' ++ rest)) := by
    obtain ⟨c, key, rfl, part, -⟩ := head_of_isName name
    exact first_restPattern c _ (beq_false_of_ne (ne_of_isNameBreak part (by decide))) hb
  have noPair : Fails (propertyPattern.pair r) (key ++ ':' :: (g' ++ rest)) := by
    refine Refuses.node (Fails.here (Reads.fails (Q := Whole) ?_ fun _ _ => ?_)) hb
    · exact Reads.field (Reads.orElse (reads_propertyNode name (by rfl))) _
    · refine @Takes.refuses _ _ _ _ [':'] _ _ (reads_symbol ":" rfl).here fun _ _ => ?_
      exact (h.field _).bind g' gap'
  have first : Takes (orNone (one (propertyPattern r))) (g ++ key) (':' :: (g' ++ rest)) fun _ => True :=
    Takes.orElse (((((reads_shorthand name).of_failed noPair).of_failed noRest) g gap).bind_end fun _ _ =>
      takes_pure trivial)
  have listed : Takes (places (one (propertyPattern r))) (g ++ key) (':' :: (g' ++ rest)) fun _ => True := by
    have noMore : Refuses (symbol ",") (':' :: (g' ++ rest)) := (first_comma ':' _ rfl rfl).here
    exact (first.sepBy1_single noMore).bind_end fun _ _ => takes_pure trivial
  refine Refuses.node (Fails.here ?_) rfl
  refine @Reads.fails ['\x7b'] _ _ _ _ _ _ (reads_symbol "\x7b" rfl) fun _ _ => ?_
  have closing : First (symbol "\x7d") (· == '\x7d') := first_symbol rfl
  have unclosed : Refuses (do
      let ts ← places (one (propertyPattern r))
      symbol "\x7d"
      return ts) (g ++ key ++ ':' :: (g' ++ rest)) :=
    listed.refuses fun _ _ => (closing ':' _ rfl rfl).here.bind
  rwa [List.append_assoc] at unclosed

theorem patternOrDefault_fails {p : Parser Tree} (hb : begins cs = true) (h : Fails p cs) :
    Fails (patternOrDefault r p) cs := (keeps_next hb).fails fun _ _ => h.bind

/-- What is called gives no place to put something in. -/
theorem fails_pattern_call {d : Nat} (name : isName w = true)
    (h : Reads (parse .markup d (.access .inside)) (w ++ cs) after (IsA .callExpression)) :
    Fails (parse .markup (d + 1) .pattern) (w ++ cs ++ after) := by
  refine Fails.orElse ?_ (still_next.fails fun _ => still_guard.fails fun _ => h.fails fun t ht => ?_)
  · obtain ⟨c, w', rfl, part, -⟩ := head_of_isName name
    refine first_destructuring c _ ?_ (by simpa using begins_of_isName name)
    simp [ne_of_isNameBreak part (show isNameBreak '\x7b' = true by decide),
      ne_of_isNameBreak part (show isNameBreak '[' = true by decide)]
  · exact (refuses_guard (by rw [isAssignable, ht.2])).bind

theorem fails_destructuring_object {g' key rest : List Char} (gap : IsGap g) (gap' : IsGap g')
    (name : isName key = true) (hb : begins rest = true) (h : Fails r.pattern rest) :
    Fails (destructuring r) ('\x7b' :: (g ++ (key ++ ':' :: (g' ++ rest)))) :=
  (fails_objectPattern gap gap' name (patternOrDefault_fails hb h)).orElse
    (first_arrayPattern '\x7b' _ rfl rfl)

theorem fails_pattern_object {d : Nat} {g' key rest : List Char} (gap : IsGap g) (gap' : IsGap g')
    (name : isName key = true) (hb : begins rest = true) (h : Fails (parse .markup d .pattern) rest) :
    Fails (parse .markup (d + 1) .pattern) ('\x7b' :: (g ++ (key ++ ':' :: (g' ++ rest)))) := by
  refine (fails_destructuring_object (r := reader d) gap gap' name hb h).orElse ?_
  refine (keeps_next rfl).fails fun s hs => fun _ _ => Refuses.bind (refuses_guard ?_)
  rw [name_none (by decide) hs]
  rfl

/-- What begins as an object but is no pattern stands in brackets as an expression. -/
theorem refuses_parameters_object {d : Nat} {g' key rest : List Char} (gap : IsGap g) (gap' : IsGap g')
    (name : isName key = true) (hb : begins rest = true)
    (h : ∀ e, d = e + 1 → Fails (parse .markup e .pattern) rest) :
    Refuses (parse .markup d .parameters) ('(' :: '\x7b' :: (g ++ (key ++ ':' :: (g' ++ rest)))) := by
  refine refuses_parameters_of_fails (fun e he => Fails.here ?_) rfl (by simp)
  refine fails_parameter rfl (by decide) (fun u mem => first_keyword '\x7b' _ (by decide) rfl) ?_
  refine Fails.orElse (fails_destructuring_object (r := reader e) gap gap' name hb (h e he)) ?_
  refine Fails.orElse (first_restPattern '\x7b' _ rfl rfl) (Fails.orElse ?_ ?_)
  · exact first_wordNode '\x7b' _ (by decide) rfl
  · exact first_operandName '\x7b' _ (by decide) rfl

theorem refuses_parameters_reserved {d : Nat} (name : isName w = true) (ends : endsName after = true)
    (word : String.ofList w ∈ operandWords) (other : String.ofList w ≠ "this") :
    Refuses (parse .markup d .parameters) ('(' :: (w ++ after)) := by
  have hb : begins (w ++ after) = true := begins_of_isName name
  have words : ∀ u ∈ modifierWords, Fails (keyword u) (w ++ after) := fun u mem =>
    fails_keyword name ends fun eq => by
      have apart : ∀ u ∈ modifierWords, u ∉ operandWords := by decide
      exact apart u mem (eq ▸ word)
  refine refuses_parameters_of_fails (fun e _ => Fails.here ?_) hb ?_
  all_goals obtain ⟨c, w', rfl, part, -⟩ := head_of_isName name
  · exact fails_parameter hb (ne_of_isNameBreak part (by decide)) words
      (fails_target_name name ends word other)
  · exact fun eq => ne_of_isNameBreak part (by decide) (Option.some.inj eq)

end SuiteDraft.Grammar
