import SuiteDraft.Proofs.Grammar.Brackets

/-!
# Functions without parameters

A function that takes nothing is written as an empty pair of brackets, an arrow and a body, with or
without a word in front that makes it wait.
-/

namespace SuiteDraft.Grammar

open Input (Spells)
open SuiteDraft.Grammar.Parser

variable {r : Reader} {flow : Flow} {depth : Nat} {g w cs cs' inner after : List Char} {c : Char}
  {P Q : Tree → Prop}

/-- What a function does: statements in braces, or an expression. -/
def Body (depth : Nat) (cs : List Char) : Prop :=
  ∀ d, depth ≤ d → ∀ flow after, Follows stops after →
    Reads (parse .markup d .block <|> parse .markup d (.expression flow)) cs after Whole

theorem Expression.body (h : Expression depth cs) (noBlock : cs.head? ≠ some '\x7b') :
    Body depth cs := by
  intro d deep flow after follows
  refine (h.reads d deep flow after follows).of_failed ?_
  cases cs with
  | nil => exact absurd rfl h.opens.nonempty
  | cons c cs =>
    have other : (c == '\x7b') = false := beq_false_of_ne fun eq => noBlock (congrArg some eq)
    exact first_block c _ other (h.opens.begins after)

theorem fails_parameter_closing : Fails (parameter (reader depth)) (')' :: after) := by
  refine fails_parameter rfl (by decide) (fun w _ => first_keyword ')' _ (by decide) rfl) ?_
  refine (first_destructuring ')' _ rfl rfl).orElse ?_
  refine (first_restPattern ')' _ rfl rfl).orElse ?_
  exact (first_wordNode ')' _ (by decide) rfl).orElse (first_operandName ')' _ (by decide) rfl)

theorem reads_parameters {d : Nat} (deep : 1 ≤ d) :
    Reads (parse .markup d .parameters) "()".toList after Whole := by
  obtain ⟨d, rfl⟩ := Nat.exists_eq_add_one_of_ne_zero (show d ≠ 0 by omega)
  have empty : Takes (orNone (commaList (one (parameter (reader d))))) [] (')' :: after) AllWhole :=
    (fails_parameter_closing.one.bind.bind.orNone.here).mono fun ts hts => hts ▸ allWhole_nil
  have within : Reads (within "(" ")" (orNone (commaList (one (parameter (reader d))))))
      ("(".toList ++ ([] ++ ([] ++ ")".toList))) after AllWhole := Takes.within empty .nil rfl rfl
  exact (within.here.node (by decide) rfl).mono fun _ => And.left

/-- An empty pair of brackets is the head of a function, before an arrow. -/
theorem reads_arrowHead {d : Nat} (deep : 1 ≤ d) :
    Reads (arrowHead (reader d) flow) "()".toList (' ' :: '=' :: after) AllWhole := by
  have noName : Fails (one (field .parameter (nameNode .identifier))) ('(' :: ')' :: ' ' :: '=' :: after) :=
    (first_nameNode.field _).one '(' _ (by decide) rfl
  have noTypes : Keeps (orNone (one (typeParameters (reader d)))) ('(' :: ')' :: ' ' :: '=' :: after)
      (· = []) := (first_typeParameters.one '(' _ rfl rfl).orNone
  have result : Refuses (one (resultAfterColon (reader d) .inside)) (' ' :: '=' :: after) := by
    have colon : First (resultAfterColon (reader d) .inside) (· == ':') :=
      (((first_symbol rfl).seqRight).node).field _
    exact colon.one '=' after rfl rfl [' '] (.of_blanks (by decide))
  refine Reads.of_failed ?_ noName
  split
  · refine Keeps.bind noTypes fun types htypes => ?_
    refine ((reads_parameters deep).field _).bind_end fun params hparams => takes_pure ?_
    rw [htypes]
    exact allWhole_singleton hparams
  · refine Keeps.bind noTypes fun types htypes => ?_
    refine ((reads_parameters deep).field _).bind_end fun params hparams => ?_
    refine result.orNone.bind_here fun res hres => takes_pure ?_
    rw [htypes, hres]
    exact allWhole_singleton hparams

theorem reads_arrowFunction {d : Nat} (deep : 1 ≤ d) (body : Body depth cs) (deep' : depth ≤ d)
    (follows : Follows stops after) :
    Reads (arrowFunction (reader d) flow) ("() => ".toList ++ cs) after Whole := by
  have head : Takes (arrowHead (reader d) flow <* symbol "=>") "() =>".toList (' ' :: (cs ++ after))
      AllWhole :=
    Takes.seqLeft (reads_arrowHead deep).here
      (reads_symbol "=>" rfl [' '] (.of_blanks (by decide)))
  have noAsync : Fails (asyncMark flow *> arrowHead (reader d) flow <* symbol "=>")
      ("() =>".toList ++ ' ' :: (cs ++ after)) :=
    (first_asyncMark '(' _ (by decide) rfl).seqRight.seqLeft
  refine (Takes.node (by decide) ?_ rfl).mono fun _ => And.left
  refine @Takes.bind _ _ _ _ "() =>".toList (' ' :: cs) _ _ _ (head.of_refused noAsync.here)
    fun ts hts => ?_
  refine ((body d deep' flow after follows).field _ [' '] (.of_blanks (by decide))).bind_end fun t ht =>
    takes_pure ?_
  exact hts.append (allWhole_singleton ht)

theorem operand_arrow (body : Body depth cs) (follows : Follows stops after) :
    Operand (depth + 1) ("() => ".toList ++ cs) after Whole := by
  intro d deep flow
  refine Keeps.bind (keeps_peek rfl) fun first hfirst => ?_
  obtain rfl : first = some '(' := hfirst
  exact (reads_arrowFunction (by omega) body (by omega) follows).orElse

theorem reads_asyncArrow {d : Nat} (deep : 1 ≤ d) (body : Body depth cs) (deep' : depth ≤ d)
    (follows : Follows stops after) :
    Reads (arrowFunction (reader d) flow) ("async () => ".toList ++ cs) after Whole := by
  have goes : Takes flow.goesOn [] (" ()".toList ++ (" =>".toList ++ ' ' :: (cs ++ after))) fun _ => True :=
    takes_flow_goesOn (g := [' ']) (by decide) (by decide) rfl
  have mark : Takes (asyncMark flow) "async".toList (" ()".toList ++ (" =>".toList ++ ' ' :: (cs ++ after)))
      fun _ => True := (reads_keyword "async" (by decide) rfl).here.bind_end fun _ _ => goes
  have waiting : Takes (asyncMark flow *> arrowHead (reader d) flow) ("async".toList ++ " ()".toList)
      (" =>".toList ++ ' ' :: (cs ++ after)) AllWhole :=
    mark.seqRight (reads_arrowHead deep [' '] (.of_blanks (by decide)))
  have head : Takes (asyncMark flow *> arrowHead (reader d) flow <* symbol "=>")
      ("async".toList ++ " ()".toList ++ " =>".toList) (' ' :: (cs ++ after)) AllWhole :=
    waiting.seqLeft (reads_symbol "=>" rfl [' '] (.of_blanks (by decide)))
  refine (Takes.node (by decide) ?_ rfl).mono fun _ => And.left
  refine @Takes.bind _ _ _ _ "async () =>".toList (' ' :: cs) _ _ _ head.orElse fun ts hts => ?_
  refine ((body d deep' flow after follows).field _ [' '] (.of_blanks (by decide))).bind_end fun t ht =>
    takes_pure ?_
  exact hts.append (allWhole_singleton ht)

theorem operand_asyncArrow (body : Body depth cs) (follows : Follows stops after) :
    Operand (depth + 1) ("async () => ".toList ++ cs) after Whole := by
  intro d deep flow
  have noFunction : Fails (functionExpression (reader d) flow) ("async".toList ++ (" () => ".toList ++
      (cs ++ after))) := by
    refine (keeps_next rfl).fails fun _ _ => ?_
    have goes : Takes flow.goesOn [] (" () => ".toList ++ (cs ++ after)) fun _ => True :=
      takes_flow_goesOn (g := [' ']) (by decide) (by decide) rfl
    have mark : Reads (asyncMark flow) "async".toList (" () => ".toList ++ (cs ++ after)) fun _ => True :=
      (reads_keyword "async" (by decide) rfl).bind_end fun _ _ => goes
    have marked : Reads (optional (asyncMark flow)) "async".toList (" () => ".toList ++ (cs ++ after))
        fun _ => True := fun g gap => (mark g gap).optional.mono fun _ _ => trivial
    refine marked.fails fun _ _ => Refuses.bind ?_
    exact first_keyword '(' _ (by decide) rfl [' '] (.of_blanks (by decide))
  have text_eq : "async () => ".toList ++ cs ++ after = "async".toList ++ (" () => ".toList ++ (cs ++ after)) := by
    simp
  refine reads_operand_word text_eq (by decide) rfl ?_
  exact ((reads_asyncArrow (by omega) body (by omega) follows).orElse).of_failed noFunction

theorem expression_arrow (body : Body depth cs) : Expression (depth + 5) ("() => ".toList ++ cs) :=
  Operand.expression (fun _ follows => operand_arrow body follows)
    (fun _ _ => opening_sign (by decide) rfl (by decide)) (opens_cons (by decide) (by decide))

theorem expression_asyncArrow (body : Body depth cs) :
    Expression (depth + 5) ("async () => ".toList ++ cs) :=
  Operand.expression (fun _ follows => operand_asyncArrow body follows)
    (fun after _ => by
      have opening : Opening ("async".toList ++ (" () => ".toList ++ (cs ++ after))) :=
        opening_name (by decide) rfl (by decide)
      simpa using opening)
    (opens_cons (by decide) (by decide))

end SuiteDraft.Grammar
