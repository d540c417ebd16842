import SuiteDraft.Proofs.Grammar.Functions

/-!
# What begins with a word or a mark of its own

Objects that are made, modules that are imported on the way, and templates with a value in them.
-/

namespace SuiteDraft.Grammar

open Input (Spells)
open SuiteDraft.Grammar.Parser

variable {r : Reader} {flow : Flow} {depth : Nat} {g w cs cs' inner after : List Char} {c : Char}
  {P Q : Tree → Prop}

/-! ## Objects that are made -/

/-- Of what makes an object, nothing is called. -/
theorem refuses_accessStep_call {d : Nat} {start : Input} {t : Tree} :
    Refuses (accessStep (reader d) flow false start t) ('(' :: cs) := by
  refine still_flow_goesOn.bind_refuses fun _ => ?_
  refine Takes.refuses (keeps_peek rfl).here fun first hfirst => ?_
  obtain rfl : first = some '(' := hfirst
  exact Refuses.bind (refuses_guard rfl)

theorem reads_maker {d : Nat} (name : isName w = true) (plain : String.ofList w ∉ reservedWords)
    (deep : 1 ≤ d) : Reads (parse .markup d (.maker flow)) w ('(' :: after) Whole := by
  obtain ⟨d, rfl⟩ := Nat.exists_eq_add_one_of_ne_zero (show d ≠ 0 by omega)
  have hb : begins (w ++ '(' :: after) = true := begins_of_isName name
  refine (keeps_next hb).bind fun start _ => ?_
  refine (operand_name name plain rfl (noArrow_sign (by decide) rfl) d (Nat.zero_le d) flow).bind_end ?_
  exact fun t ht => refuses_moreAccess refuses_accessStep_call ht _

theorem goes_name {rest : List Char} (name : isName w = true) :
    Takes flow.goesOn [] (' ' :: w ++ rest) fun _ => True := by
  obtain ⟨c, w, rfl, part, -⟩ := head_of_isName name
  exact takes_flow_goesOn (g := [' ']) (by decide) (ne_of_isNameBreak part (by decide))
    (begins_of_part part)

/-- No point comes after `new`. -/
theorem refuses_newTarget {rest : List Char} (name : isName w = true) :
    Refuses (keyword "new" *> symbol "." *> keyword "target" *> pure ([] : List Tree))
      ("new".toList ++ (' ' :: w ++ rest)) := by
  have noPoint : Refuses (symbol ".") (' ' :: w ++ rest) := by
    have first : First (symbol ".") (· == '.') := first_symbol rfl
    obtain ⟨c, w, rfl, part, -⟩ := head_of_isName name
    exact first c _ (beq_false_of_ne (ne_of_isNameBreak part (by decide))) (begins_of_part part) _ isGap_blank
  refine Refuses.seqRight (Refuses.seqRight ?_)
  exact Takes.refuses (f := fun _ => symbol ".") (reads_keyword "new" (by decide) rfl).here fun _ _ => noPoint

theorem operand_new (name : isName w = true) (plain : String.ofList w ∉ reservedWords)
    (h : Listing value ')' depth inner) (gap : IsGap g) :
    Operand (depth + 1) ("new".toList ++ (' ' :: w ++ '(' :: (inner ++ (g ++ [')'])))) after Whole := by
  intro d deep flow
  have made : Takes (do
      keyword "new"
      flow.goesOn
      let made ← field (.other "constructor") ((reader d).read (.maker flow))
      let types ← orNone (one (field typeArgumentsField (typeArguments (reader d))))
      let args ← orNone (one (field .arguments (arguments (reader d))))
      return made :: types ++ args) ("new".toList ++ (' ' :: w ++ '(' :: (inner ++ (g ++ [')'])))) after
      AllWhole := by
    refine Takes.bind (reads_keyword "new" (by decide) rfl).here fun _ _ => ?_
    refine Takes.bind_here (by rw [List.append_assoc]; exact goes_name name) fun _ _ => ?_
    refine Takes.bind (((reads_maker name plain (by omega)).field _) [' '] isGap_blank) fun t ht => ?_
    have noTypes := ((first_typeArguments (r := reader d)).field typeArgumentsField).one '('
      (inner ++ (g ++ [')']) ++ after) rfl rfl
    refine noTypes.orNone.here.bind_here fun types htypes => ?_
    refine Takes.bind_end ((reads_arguments h gap (by omega)).field _).one.here.orNone fun args hargs => ?_
    rw [htypes]
    exact takes_pure (.cons ht hargs)
  have text_eq : "new".toList ++ (' ' :: w ++ '(' :: (inner ++ (g ++ [')']))) ++ after =
      "new".toList ++ (' ' :: w ++ ('(' :: (inner ++ (g ++ [')'])) ++ after)) := by
    simp only [List.append_assoc]
  refine reads_operand_word text_eq (by decide) rfl (Reads.orElse (Reads.of_failed ?_ ?_))
  · exact (made.node (by decide) rfl).mono fun _ => And.left
  · rw [text_eq]
    exact (refuses_newTarget name).node rfl

theorem expression_new (name : isName w = true) (plain : String.ofList w ∉ reservedWords)
    (h : Listing value ')' depth inner) (gap : IsGap g) :
    Expression (depth + 5) ("new".toList ++ (' ' :: w ++ '(' :: (inner ++ (g ++ [')'])))) := by
  refine Operand.expression (fun _ _ => operand_new name plain h gap) (fun after _ => ?_)
    (opens_name (by decide))
  rw [List.append_assoc]
  exact opening_name (by decide) rfl (by decide)

/-! ## Modules that are imported on the way -/

theorem operand_import : Operand depth "import".toList ('(' :: after) Whole := by
  intro d _ flow
  have noMeta : Fails (keyword "import" *> symbol "." *> keyword "meta" *> pure ([] : List Tree))
      ("import".toList ++ '(' :: after) := by
    have point : First (symbol ".") (· == '.') := first_symbol rfl
    refine Fails.seqRight (Fails.seqRight ?_)
    exact Reads.fails (f := fun _ => symbol ".") (reads_keyword "import" (by decide) rfl) fun _ _ =>
      (point '(' after rfl rfl).here
  refine reads_operand_word rfl (by decide) rfl (Reads.of_failed ?_ (noMeta.here.node rfl))
  refine (reads_wordNode (by decide) "import" (by decide) rfl).bind_end fun t ht => ?_
  refine (keeps_peek rfl).here.bind_here fun first hfirst => ?_
  obtain rfl : first = some '(' := hfirst
  exact (takes_guard rfl).bind_here fun _ _ => takes_pure ht.1

/-! ## Templates -/

/-- A character that stands for itself in a template, whatever follows it. -/
def isTemplateText (c : Char) : Bool := c != '`' && c != '\\' && c != '$'

theorem templateRest_text {text : List Char} (plain : text.all isTemplateText = true) {s : Input}
    (hs : Spells s (text ++ '$' :: '\x7b' :: cs)) : templateRest s = s.drop text.length := by
  induction text generalizing s with
  | nil =>
    obtain _ | ⟨char, -, -, _ | ⟨char', -, -, -⟩⟩ := hs
    simp [templateRest, char, char', Input.startsWith]
  | cons c text ih =>
    obtain _ | ⟨char, -, -, rest⟩ := hs
    simp only [List.all_cons, isTemplateText, Bool.and_eq_true, bne_iff_ne] at plain
    obtain ⟨⟨⟨quote, escape⟩, dollar⟩, plain⟩ := plain
    simp only [templateRest, char, quote, escape, dollar, beq_iff_eq, Bool.or_eq_true, or_self,
      if_false, Bool.and_eq_true, false_and, List.length_cons, List.drop_succ_cons]
    exact ih plain rest

/-- No text of a template begins here. -/
theorem refuses_templateText {kind : Kind} (h : cs.head? = some '`' ∨ ['$', '\x7b'] <+: cs) :
    Refuses (leafHere kind templateText) cs := by
  refine refuses_leafHere fun s hs => ?_
  have here : templateRest s = s := by
    rcases h with mark | ⟨rest, rfl⟩
    · obtain _ | ⟨char, -, -, -⟩ := hs
      · cases mark
      · obtain rfl := Option.some.inj mark
        simp [templateRest, char]
    · have none : ([] : List Char).all isTemplateText = true := rfl
      exact templateRest_text none hs
  rw [templateText, here]
  simp

theorem refuses_escape {kind : Kind} (h : c ≠ '\\') : Refuses (leafHere kind escape) (c :: cs) :=
  refuses_leafHere fun _ hs =>
    (Finds.andThen_none (Finds.exactly_not rfl h.symm)).eq _ hs.numbered hs.chars_eq

theorem takes_templateText {text rest : List Char} (nonempty : text ≠ [])
    (plain : text.all isTemplateText = true) :
    Takes (leafHere .stringFragment templateText) text ('$' :: '\x7b' :: rest) (IsA .stringFragment) := by
  refine takes_leafHere (by decide) fun s hs => ?_
  have here : templateRest s = s.drop text.length := templateRest_text plain hs
  have positive : 0 < text.length := List.length_pos_of_ne_nil nonempty
  have shorter : Input.left (s.drop text.length) < s.left := by
    rw [(hs.drop _).left_eq, hs.left_eq, List.length_drop, List.length_append]
    omega
  simp only [templateText, here, shorter, if_true]

/-- A value in a template. -/
def templateValue (r : Reader) : Parser Tree := nodeHere .templateSubstitution do
  adjacent "$\x7b"
  let e ← expressions r .inside
  symbol "\x7d"
  return [e]

theorem takes_templateValue (h : Expression depth cs) {d : Nat} (deep : depth ≤ d) {rest : List Char} :
    Takes (templateValue (reader d)) ('$' :: '\x7b' :: (cs ++ ['\x7d'])) ('`' :: rest)
      (IsA .templateSubstitution) := by
  have closing : Follows ['\x7d'] ('\x7d' :: '`' :: rest) := ⟨[], _, _, .nil, by simp, rfl, rfl⟩
  refine Takes.nodeHere (by decide) (Takes.bind (takes_adjacent "$\x7b") fun _ _ => ?_)
  refine Takes.bind (takes_expressions h deep closing (by decide) (by decide)).here fun e he => ?_
  exact (reads_symbol "\x7d" rfl).here.bind_end fun _ _ => takes_pure (allWhole_singleton he)

/-- What a template is made of. -/
def templatePiece (r : Reader) : Parser Tree :=
  leafHere .stringFragment templateText <|> leafHere .escapeSequence escape <|> templateValue r

theorem refuses_templatePiece : Refuses (templatePiece r) ('`' :: cs) := by
  have noText : Refuses (leafHere .stringFragment templateText) ('`' :: cs) :=
    refuses_templateText (.inl rfl)
  have noValue : Refuses (templateValue r) ('`' :: cs) := Refuses.nodeHere (refuses_adjacent rfl).bind
  exact noText.orElse ((refuses_escape (by decide)).orElse noValue)

/-- A template that ends with a value. -/
theorem operand_template {text : List Char} (nonempty : text ≠ [])
    (plain : text.all isTemplateText = true) (h : Expression depth cs) :
    Operand depth ('`' :: (text ++ ('$' :: '\x7b' :: (cs ++ ['\x7d'])) ++ ['`'])) after Whole := by
  intro d deep flow
  refine Keeps.bind (keeps_peek rfl) fun first hfirst => ?_
  obtain rfl : first = some '`' := hfirst
  have noText : Refuses (leafHere .stringFragment templateText)
      ('$' :: '\x7b' :: (cs ++ ['\x7d']) ++ '`' :: after) := refuses_templateText (.inr ⟨_, rfl⟩)
  have value : Takes (templateValue (reader d)) ('$' :: '\x7b' :: (cs ++ ['\x7d'])) ('`' :: after) Whole :=
    (takes_templateValue h deep).mono fun _ => And.left
  have pieces : Pieces (templatePiece (reader d)) Whole
      (text ++ ('$' :: '\x7b' :: (cs ++ ['\x7d']) ++ [])) ('`' :: after) := by
    refine .cons nonempty ?_ (.cons (List.cons_ne_nil _ _) ?_ (.nil refuses_templatePiece))
    · rw [List.append_nil]
      exact ((takes_templateText nonempty plain).mono fun _ => And.left).orElse
    · exact (value.of_refused (refuses_escape (by decide))).of_refused noText
  rw [List.append_nil] at pieces
  refine (Takes.node (by decide) (@Takes.bind _ _ _ _ ['`'] _ _ _ _ (reads_symbol "`" rfl).here
    fun _ _ => ?_)
    rfl).mono fun _ => And.left
  refine Takes.bind pieces.many fun ts hts => ?_
  exact (takes_adjacent "`").bind_end fun _ _ => takes_pure hts

theorem expression_template {v : List Char} (nonempty : v ≠ [])
    (plain : v.all isTemplateText = true) (h : Expression depth cs) :
    Expression (depth + 4) ('`' :: (v ++ ('$' :: '\x7b' :: (cs ++ ['\x7d'])) ++ ['`'])) :=
  Operand.expression (fun _ _ => operand_template nonempty plain h)
    (fun _ _ => opening_sign (by decide) rfl (by decide)) (opens_cons (by decide) (by decide))

end SuiteDraft.Grammar
