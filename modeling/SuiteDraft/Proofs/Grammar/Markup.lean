import SuiteDraft.Proofs.Grammar.Types

/-!
# Markup elements with attributes

An element with any attributes that have names and plain texts for values. An angle bracket may also
begin the type parameters of a function, so it is seen first that this one does not.
-/

namespace SuiteDraft.Grammar

open Input (Spells)
open SuiteDraft.Grammar.Parser

variable {r : Reader} {flow : Flow} {depth : Nat} {g w cs cs' inner after : List Char} {c : Char}
  {s : Input}

/-! ## Names in markup -/

theorem hyphenated_eq (s : Input) : hyphenated s = (charIf isWordStart s).bind fun s =>
    (exactly "-" (s.skipWhile isWordPart)).map (·.skipWhile fun c => isWordPart c || c == '-') :=
  rfl

theorem spells_skipWhile (hs : Spells s cs) (p : Char → Bool) :
    Spells (s.skipWhile p) (cs.dropWhile p) := by
  induction hs with
  | nil => exact .nil
  | cons char sound left rest ih =>
    rw [Input.skipWhile, char, List.dropWhile]
    split
    · next pass => rw [pass]; exact ih
    · next stop =>
      rw [Bool.not_eq_true] at stop
      rw [stop]
      exact .cons char sound left rest

theorem exactly_eq_none {word : String} (hs : Spells s cs) (h : word.toList.isPrefixOf cs = false) :
    exactly word s = none := by
  rw [exactly, hs.startsWith_eq, h]
  rfl

/-- A name without a hyphen is not read as one with a hyphen. -/
theorem hyphenated_none (noHyphen : '-' ∉ w) (other : c ≠ '-') (stop : isWordPart c = false)
    (hs : Spells s (w ++ c :: cs)) : hyphenated s = none := by
  have head : ∀ w : List Char, '-' ∉ w →
      "-".toList.isPrefixOf ((w ++ c :: cs).dropWhile isWordPart) = false := by
    intro w noHyphen
    induction w with
    | nil => simp [stop, List.isPrefixOf, other.symm]
    | cons d w ih =>
      rw [List.mem_cons, not_or] at noHyphen
      rw [List.cons_append, List.dropWhile]
      split
      · exact ih noHyphen.2
      · simp [List.isPrefixOf, noHyphen.1]
  rw [hyphenated_eq]
  cases w with
  | nil =>
    obtain _ | ⟨char, -, -, rest⟩ := hs
    have start : isWordStart c = false := by
      rw [isWordPart, Bool.or_eq_false_iff] at stop
      exact stop.1
    simp [charIf, char, start]
  | cons d w =>
    obtain _ | ⟨char, -, -, rest⟩ := hs
    rw [List.mem_cons, not_or] at noHyphen
    rw [charIf]
    split
    · rw [Option.bind_some, exactly_eq_none (spells_skipWhile rest _) (head w noHyphen.2)]
      rfl
    · rfl

theorem noHyphen_of_isName (name : isName w = true) : '-' ∉ w := by
  cases w with
  | nil => cases name
  | cons c w =>
    rw [isName, Bool.and_eq_true, List.all_eq_true] at name
    intro mem
    exact absurd (name.2 _ mem) (by decide)

/-- What may follow a name in markup. -/
def isMarkupBreak (c : Char) : Bool := isNameBreak c && c != '\\' && c != '-' && !isWordPart c

theorem scan_markupName (name : isName w = true) (stop : isMarkupBreak c = true)
    (hs : Spells s (w ++ c :: cs)) : longest [hyphenated, Grammar.name] s = some (s.drop w.length) := by
  simp only [isMarkupBreak, Bool.and_eq_true, Bool.not_eq_true', bne_iff_ne] at stop
  obtain ⟨⟨⟨breaks, escape⟩, hyphen⟩, part⟩ := stop
  have noHyphen := hyphenated_none (noHyphen_of_isName name) hyphen part hs
  have found : Grammar.name s = some (s.drop w.length) :=
    name_some name (by simp [endsName, breaks, escape]) hs
  simp [longest, noHyphen, found]

/-- A name in which hyphens stand between its parts or behind them. -/
def isHyphenated (w : List Char) : Bool :=
  match w with
  | [] => false
  | c :: w => isWordStart c && w.contains '-' && w.all fun c => isWordPart c || c == '-'

theorem skipWhile_run {run after : List Char} {p : Char → Bool} (passes : ∀ c ∈ run, p c = true)
    (stop : ∀ c ∈ after.head?, p c = false) (hs : Spells s (run ++ after)) :
    s.skipWhile p = s.drop run.length := by
  rw [Input.skipWhile_eq_drop, hs.chars_eq, Finds.takeWhile_append_stop passes stop]

/-- The parts of a name with a hyphen: what stands before the first one, and what behind it. -/
theorem exists_hyphen (h : isHyphenated w = true) : ∃ c front back, w = c :: (front ++ '-' :: back) ∧
    isWordStart c = true ∧ (∀ d ∈ front, isWordPart d = true) ∧
      ∀ d ∈ back, (isWordPart d || d == '-') = true := by
  cases w with
  | nil => cases h
  | cons c w =>
    simp only [isHyphenated, Bool.and_eq_true, List.all_eq_true, List.contains_iff_mem] at h
    obtain ⟨⟨start, hyphen⟩, parts⟩ := h
    obtain ⟨front, back, rfl, first⟩ := List.eq_append_cons_of_mem hyphen
    refine ⟨c, front, back, rfl, start, fun d mem => ?_, fun d mem => ?_⟩
    · have other : d ≠ '-' := fun eq => first (eq ▸ mem)
      simpa [other] using parts d (List.mem_append_left _ mem)
    · exact parts d (List.mem_append_right _ (List.mem_cons_of_mem _ mem))

/-- What stands before the first hyphen is a name. -/
theorem isName_front {front : List Char} (start : isWordStart c = true)
    (hfront : ∀ d ∈ front, isWordPart d = true) : isName (c :: front) = true :=
  isName_of_isWord (by rwa [isWord, start, Bool.true_and, List.all_eq_true])

theorem hyphenated_some (h : isHyphenated w = true) (stop : isMarkupBreak c = true)
    (hs : Spells s (w ++ c :: cs)) : hyphenated s = some (s.drop w.length) := by
  simp only [isMarkupBreak, Bool.and_eq_true, Bool.not_eq_true', bne_iff_ne] at stop
  obtain ⟨⟨-, other⟩, part⟩ := stop
  obtain ⟨d, front, back, rfl, start, hfront, hback⟩ := exists_hyphen h
  obtain _ | @⟨m, tail, _, _, char, -, -, rest⟩ := hs
  have rest' : Spells tail (front ++ '-' :: (back ++ c :: cs)) := by simpa using rest
  have behind : Spells (tail.drop front.length) ('-' :: (back ++ c :: cs)) := by simpa using rest'.drop front.length
  have hyphen : exactly "-" (tail.drop front.length) = some ((tail.drop front.length).drop 1) :=
    behind.exactly_eq "-" ⟨_, rfl⟩
  have further : Spells ((tail.drop front.length).drop 1) (back ++ c :: cs) := behind.drop 1
  have stops : (isWordPart c || c == '-') = false := by simp [part, other]
  have first : tail.skipWhile isWordPart = tail.drop front.length := by
    refine skipWhile_run hfront (fun d hd => ?_) rest'
    rw [← Option.some.inj hd]
    rfl
  have last : Input.skipWhile (fun c => isWordPart c || c == '-') ((tail.drop front.length).drop 1) =
      ((tail.drop front.length).drop 1).drop back.length := by
    refine skipWhile_run hback (fun d hd => ?_) further
    rw [← Option.some.inj hd]
    exact stops
  rw [hyphenated_eq, charIf, char, if_pos start, Option.bind_some, first, hyphen, Option.map_some, last]
  simp only [List.drop_drop, List.length_cons, List.length_append, List.drop_succ_cons]
  congr 2
  omega

/-- The name of an attribute: a name, or one with hyphens that does not begin like the bound of a
type parameter. -/
def isAttributeName (w : List Char) : Bool := isName w || (isHyphenated w && !"extends-".toList.isPrefixOf w)

theorem scan_attributeName (name : isAttributeName w = true) (stop : isMarkupBreak c = true)
    (hs : Spells s (w ++ c :: cs)) : longest [hyphenated, Grammar.name] s = some (s.drop w.length) := by
  rw [isAttributeName, Bool.or_eq_true, Bool.and_eq_true] at name
  rcases name with name | ⟨name, -⟩
  · exact scan_markupName name stop hs
  · have found := hyphenated_some name stop hs
    obtain ⟨d, front, back, rfl, start, hfront, -⟩ := exists_hyphen name
    have spelt : Spells s (d :: front ++ '-' :: (back ++ c :: cs)) := by simpa using hs
    have shorter : Grammar.name s = some (s.drop (d :: front).length) :=
      name_some (isName_front start hfront) rfl spelt
    have enough : ¬ Input.left (s.drop (d :: front).length) <
        Input.left (s.drop (d :: (front ++ '-' :: back)).length) := by
      rw [(hs.drop _).left_eq, (hs.drop _).left_eq, List.length_drop, List.length_drop]
      simp only [List.length_cons, List.length_append]
      omega
    simp only [longest, List.filterMap_cons, List.filterMap_nil, found, shorter, List.foldl_cons,
      List.foldl_nil, if_neg enough]

theorem isNameBreak_head (name : isAttributeName w = true) :
    ∃ c cs, w = c :: cs ∧ isNameBreak c = false := by
  rw [isAttributeName, Bool.or_eq_true, Bool.and_eq_true] at name
  rcases name with name | ⟨name, -⟩
  · obtain ⟨c, cs, rfl, part, -⟩ := head_of_isName name
    exact ⟨c, cs, rfl, part⟩
  · obtain ⟨d, front, back, rfl, start, -, -⟩ := exists_hyphen name
    exact ⟨d, _, rfl, isNameBreak_part (by simp [isWordPart, start])⟩

theorem begins_attributeName (name : isAttributeName w = true) : begins (w ++ after) = true := by
  obtain ⟨c, cs, rfl, part⟩ := isNameBreak_head name
  exact begins_of_part part

theorem reads_markupName {kind : Kind} (sort : kind ≠ .fault) (name : isAttributeName w = true)
    (stop : isMarkupBreak c = true) : Reads (markupName kind) w (c :: cs) (IsA kind) :=
  reads_leaf sort (fun _ hs => scan_attributeName name stop hs) (begins_attributeName name)

theorem fails_namespacedName (name : isAttributeName w = true) (stop : isMarkupBreak c = true)
    (noColon : Refuses (symbol ":") (c :: cs)) : Fails namespacedName (w ++ c :: cs) :=
  Refuses.node (Fails.here ((reads_markupName (by decide) name stop).fails fun _ _ => noColon.bind))
    (begins_attributeName name)

/-! ## Attributes -/

theorem quote_of_mem_escapeChar (h : '"' ∈ Json.escapeChar c) : c = '"' := by
  unfold Json.escapeChar at h
  split at h
  · next quote => exact beq_iff_eq.mp quote
  iterate 6 (split at h; · simp at h)
  split at h
  · have digit : '"' ∈ Text.hexDigits 4 c.toNat := by simpa using h
    exact absurd (Text.isHexDigit_of_mem_hexDigits digit) (by decide)
  · exact (List.mem_singleton.mp h).symm

/-- A text in double quotes that holds neither a quote nor a reference is the value of an attribute. -/
theorem reads_attributeString {text : List Char} (noQuote : '"' ∉ text) (noReference : '&' ∉ text) :
    Reads (attributeString '"') (Json.quoteChars text) after Whole := by
  intro g gap s hs
  rw [List.append_assoc] at hs
  have hs' : Spells (s.drop g.length) (Json.quoteChars text ++ after) := by
    simpa using hs.drop g.length
  have plain : ∀ c ∈ text.flatMap Json.escapeChar, c ≠ '"' ∧ c ≠ '&' := by
    intro c hc
    obtain ⟨d, inside, hd⟩ := List.mem_flatMap.mp hc
    refine ⟨?_, ?_⟩ <;> rintro rfl
    · exact noQuote (quote_of_mem_escapeChar hd ▸ inside)
    · exact noReference (Json.ampersand_of_mem_escapeChar hd ▸ inside)
  have parts : Input.chars (s.drop g.length) = '"' :: (text.flatMap Json.escapeChar ++ '"' :: after) := by
    rw [hs'.chars_eq, Json.quoteChars]
    simp
  obtain ⟨t, found, -⟩ := Json.attributeString_readsAs plain hs'.numbered parts
  have length_eq : (text.flatMap Json.escapeChar).length + 2 = (Json.quoteChars text).length := by
    simp [Json.quoteChars]
  have here : attributeString '"' s = attributeString '"' (s.drop g.length) := by
    have hb : begins (Json.quoteChars text ++ after) = true := rfl
    simp only [attributeString, node_afterGap gap hb hs]
  refine ⟨t, ?_, sound_attributeString _ _ _ found⟩
  rw [here, found, length_eq, List.drop_drop, List.length_append]

theorem reads_attribute {text : List Char} (name : isAttributeName w = true) (noQuote : '"' ∉ text)
    (noReference : '&' ∉ text) :
    Reads (markupAttribute r) (w ++ '=' :: Json.quoteChars text) after Whole := by
  have colon : First (symbol ":") (· == ':') := first_symbol rfl
  have noSpace : Fails namespacedName (w ++ '=' :: (Json.quoteChars text ++ after)) :=
    fails_namespacedName name rfl (colon '=' _ rfl rfl).here
  have hb : begins (w ++ '=' :: Json.quoteChars text ++ after) = true := by
    rw [List.append_assoc]
    exact begins_attributeName name
  have named : Reads (namespacedName <|> markupName .propertyIdentifier) w
      ('=' :: Json.quoteChars text ++ after) Whole :=
    ((reads_markupName (by decide) name rfl).mono fun _ => And.left).of_failed noSpace
  refine (Takes.node (by decide) (Takes.bind named.here fun t ht => ?_) hb).mono fun _ => And.left
  have value : Takes (orNone (one (symbol "=" *> (attributeString '"' <|> attributeString '\'' <|>
      markupExpression r <|> r.markup)))) ("=".toList ++ Json.quoteChars text) after AllWhole := by
    refine (Takes.one (Takes.seqRight (reads_symbol "=" rfl).here ?_)).orNone
    exact (reads_attributeString noQuote noReference).here.orElse
  exact value.bind_end fun ts hts => takes_pure (.cons ht hts)

/-- The attributes of an element as they are written. -/
def attributeChars (attributes : List (List Char × List Char)) : List Char :=
  attributes.flatMap fun a => ' ' :: (a.1 ++ '=' :: Json.quoteChars a.2)

/-- The attributes can be written as they are. -/
def Writable (attributes : List (List Char × List Char)) : Prop :=
  ∀ a ∈ attributes, isAttributeName a.1 = true ∧ '"' ∉ a.2 ∧ '&' ∉ a.2

theorem fails_markupName_slash {kind : Kind} (hb : begins ('/' :: cs) = true) :
    Fails (markupName kind) ('/' :: cs) := by
  refine fails_leaf (fun s hs => ?_) hb
  have noName : Grammar.name s = none := name_none (by decide) hs
  have noHyphen : hyphenated s = none := by
    obtain _ | ⟨char, -, -, -⟩ := hs
    have start : isWordStart '/' = false := by decide
    simp [hyphenated_eq, charIf, char, start]
  simp [longest, noHyphen, noName]

theorem first_markupExpression : First (markupExpression r) (· == '\x7b') :=
  ((first_symbol rfl).within).node

theorem pieces_attributes {attributes : List (List Char × List Char)} (writable : Writable attributes)
    {f : Field} : Pieces (field f (markupExpression r <|> markupAttribute r)) Whole
      (attributeChars attributes) (" />".toList ++ after) := by
  induction attributes with
  | nil =>
    have hb : begins ('/' :: '>' :: after) = true := rfl
    have noName : Fails (markupAttribute r) ('/' :: '>' :: after) := by
      refine Refuses.node (Fails.here (Fails.bind (Fails.orElse ?_ (fails_markupName_slash hb)))) hb
      exact (fails_markupName_slash hb).bind.here.node hb
    have noAttribute : Fails (markupExpression r <|> markupAttribute r) ('/' :: '>' :: after) :=
      (first_markupExpression '/' _ rfl hb).orElse noName
    exact .nil ((noAttribute.field f) [' '] (.of_blanks (by decide)))
  | cons a attributes ih =>
    obtain ⟨⟨name, noQuote, noReference⟩, writable⟩ := List.forall_mem_cons.mp writable
    refine .cons (List.cons_ne_nil _ _) ?_ (ih writable)
    have noBrace : Fails (markupExpression r) (a.1 ++ '=' :: Json.quoteChars a.2 ++
        (attributeChars attributes ++ (" />".toList ++ after))) := by
      obtain ⟨c, cs, name_eq, part⟩ := isNameBreak_head name
      rw [name_eq]
      exact first_markupExpression c _ (beq_false_of_ne (ne_of_isNameBreak part (by decide)))
        (begins_of_part part)
    exact (((reads_attribute name noQuote noReference).of_failed noBrace).field f) [' ']
      (.of_blanks (by decide))

/-! ## Elements -/

/-- What follows the name of an element: attributes, or the end of the tag. -/
theorem attributes_follow {attributes : List (List Char × List Char)} (writable : Writable attributes)
    (after : List Char) : ∃ c rest, attributeChars attributes ++ (" />".toList ++ after) = ' ' :: c :: rest ∧
      (isNameBreak c = false ∨ c = '/') ∧ begins (c :: rest) = true := by
  cases attributes with
  | nil => exact ⟨'/', _, rfl, .inr rfl, rfl⟩
  | cons a attributes =>
    obtain ⟨⟨name, -, -⟩, -⟩ := List.forall_mem_cons.mp writable
    obtain ⟨c, cs, name_eq, part⟩ := isNameBreak_head name
    refine ⟨c, cs ++ '=' :: Json.quoteChars a.2 ++ (attributeChars attributes ++ (" />".toList ++ after)),
      ?_, .inl part, begins_of_part part⟩
    rw [attributeChars, List.flatMap_cons, name_eq, attributeChars]
    simp only [List.cons_append, List.append_assoc]

theorem refuses_sign {α : Type} {p : Parser α} {d : Char} (after : List Char) (first : First p (· == d))
    (mark : isNameBreak d = true) (other : d ≠ '/') {attributes : List (List Char × List Char)}
    (writable : Writable attributes) :
    Refuses p (attributeChars attributes ++ (" />".toList ++ after)) := by
  obtain ⟨c, rest, text_eq, start, hb⟩ := attributes_follow writable after
  rw [text_eq]
  refine first c rest (beq_false_of_ne ?_) hb [' '] (.of_blanks (by decide))
  rcases start with part | rfl
  · exact ne_of_isNameBreak part mark
  · exact other.symm

theorem reads_elementName {attributes : List (List Char × List Char)} (writable : Writable attributes)
    (name : isName w = true) :
    Reads elementName w (attributeChars attributes ++ (" />".toList ++ after)) Whole := by
  have colon : First (symbol ":") (· == ':') := first_symbol rfl
  have point : First (symbol ".") (· == '.') := first_symbol rfl
  have noColon := refuses_sign after colon (by decide) (by decide) writable
  have noPoint := refuses_sign after point (by decide) (by decide) writable
  obtain ⟨c, rest, text_eq, -, -⟩ := attributes_follow writable after
  rw [text_eq] at noColon noPoint ⊢
  have plain : isAttributeName w = true := by rw [isAttributeName, name, Bool.true_or]
  have noSpace : Fails namespacedName (w ++ ' ' :: c :: rest) :=
    fails_namespacedName plain rfl noColon
  refine (keeps_next (begins_of_isName name)).bind fun start _ => ?_
  refine noSpace.optional.bind fun found hfound => ?_
  obtain rfl : found = none := hfound
  refine (reads_markupName (by decide) plain rfl).bind_end fun head hhead => ?_
  exact refuses_moreNames noPoint hhead.1 _

/-- An element without children. -/
def elementChars (w : List Char) (attributes : List (List Char × List Char)) : List Char :=
  '<' :: (w ++ attributeChars attributes ++ " />".toList)

theorem reads_markup {attributes : List (List Char × List Char)} (writable : Writable attributes)
    (name : isName w = true) {d : Nat} (deep : 1 ≤ d) :
    Reads (parse .markup d .markup) (elementChars w attributes) after Whole := by
  obtain ⟨d, rfl⟩ := Nat.exists_eq_add_one_of_ne_zero (show d ≠ 0 by omega)
  have hb : begins (elementChars w attributes ++ after) = true := rfl
  have content : Takes (tagContent (reader d)) (w ++ attributeChars attributes) (" />".toList ++ after)
      AllWhole := by
    refine Takes.orElse (Takes.bind ((reads_elementName writable name).here.field _) fun t ht => ?_)
    have noTypes : Refuses (one (field typeArgumentsField (typeArguments (reader d))))
        (attributeChars attributes ++ (" />".toList ++ after)) :=
      (refuses_sign after first_typeArguments (by decide) (by decide) writable).field _ |>.one
    refine noTypes.orNone.bind_here fun types htypes => ?_
    refine (pieces_attributes writable).many.bind_end fun ts hts => takes_pure ?_
    rw [htypes]
    exact .cons ht hts
  refine (keeps_next hb).bind fun start _ => ?_
  refine @Reads.bind ['<'] _ _ _ _ _ _ _ _ (reads_symbol "<" rfl) fun _ _ => ?_
  refine Takes.bind content fun ts hts => Takes.orElse ?_
  refine Takes.bind_end (reads_symbol "/>" rfl [' '] (.of_blanks (by decide))) fun _ _ => ?_
  exact (takes_close (by decide) start hts).mono fun _ => And.left

/-! ## No type parameters -/

/-- The bound of a type parameter. -/
def bound (r : Reader) : Parser Tree := node (other "constraint") do
  keyword "extends" <|> symbol ":"
  one (r.type .inside)

theorem fails_bound_word {d : Nat} (name : isName w = true) (ends : endsName after = true)
    (h : String.ofList w = "extends" → ∃ rest, after = '=' :: rest) :
    Fails (bound (reader d)) (w ++ after) := by
  have colon : First (symbol ":") (· == ':') := first_symbol rfl
  refine Refuses.node (Fails.here ?_) (begins_of_isName name)
  by_cases word : String.ofList w = "extends"
  · obtain ⟨rest, rfl⟩ := h word
    have extends_ : Reads (keyword "extends") w ('=' :: rest) fun _ => True :=
      (reads_word name rfl).bind_end fun a ha => takes_guard (by simp [ha, word])
    exact extends_.orElse.fails fun _ _ => (fails_type_equals.one).here
  · exact ((fails_keyword name ends word).orElse (colon.fails_name_mark (by decide) name)).bind

/-- An attribute is no bound of a type parameter. -/
theorem fails_bound_attribute {d : Nat} {text : List Char} (name : isAttributeName w = true) :
    Fails (bound (reader d)) (w ++ '=' :: text) := by
  rw [isAttributeName, Bool.or_eq_true, Bool.and_eq_true] at name
  rcases name with name | ⟨name, other⟩
  · exact fails_bound_word name rfl fun _ => ⟨text, rfl⟩
  · obtain ⟨c, front, back, rfl, start, hfront, -⟩ := exists_hyphen name
    have fails : Fails (bound (reader d)) (c :: front ++ '-' :: (back ++ '=' :: text)) :=
      fails_bound_word (isName_front start hfront) rfl fun word => by
        have front_eq : c :: front = "extends".toList := by rw [← word, String.toList_ofList]
        have taken : "extends-".toList.isPrefixOf (c :: (front ++ '-' :: back)) = true := by
          rw [← List.cons_append, front_eq]
          rfl
        rw [taken] at other
        cases other
    simpa using fails

theorem refuses_bound {d : Nat} {attributes : List (List Char × List Char)} (writable : Writable attributes) :
    Refuses (bound (reader d)) (attributeChars attributes ++ (" />".toList ++ after)) := by
  cases attributes with
  | nil =>
    have colon : First (symbol ":") (· == ':') := first_symbol rfl
    have noWord : Fails (keyword "extends" <|> symbol ":") ('/' :: '>' :: after) :=
      (first_keyword '/' _ (by decide) rfl).orElse (colon '/' _ rfl rfl)
    exact noWord.bind.here.node rfl [' '] isGap_blank
  | cons a attributes =>
    obtain ⟨⟨name, -, -⟩, -⟩ := List.forall_mem_cons.mp writable
    have fails : Fails (bound (reader d)) (a.1 ++ '=' :: (Json.quoteChars a.2 ++
        (attributeChars attributes ++ (" />".toList ++ after)))) := fails_bound_attribute name
    simpa [attributeChars] using fails [' '] isGap_blank

theorem takes_typeParameter {d : Nat} {attributes : List (List Char × List Char)}
    (writable : Writable attributes) (name : isName w = true) (plain : String.ofList w ≠ "const") :
    Takes (typeParameter (reader d)) w (attributeChars attributes ++ (" />".toList ++ after))
      fun _ => True := by
  have value : First (one (field .value (node (other "default_type") do
      symbol "="
      one ((reader d).type .inside)))) (· == '=') :=
    ((First.bind (first_symbol rfl)).node.field _).one
  have noBound : Refuses (one (field (.other "constraint") (bound (reader d))))
      (attributeChars attributes ++ (" />".toList ++ after)) := ((refuses_bound writable).field _).one
  have noValue := refuses_sign after value (by decide) (by decide) writable
  have ends : endsName (attributeChars attributes ++ (" />".toList ++ after)) = true := by
    obtain ⟨c, rest, text_eq, -, -⟩ := attributes_follow writable after
    rw [text_eq]
    rfl
  have noModifier : Fails (modifier "const") (w ++ (attributeChars attributes ++ (" />".toList ++ after))) :=
    (fails_keyword name ends plain).bind
  have parts : Takes (do
      let _ ← optional (modifier "const")
      let name ← field .name (nameNode (other "type_identifier"))
      let bound ← orNone (one (field (.other "constraint") (bound (reader d))))
      let value ← orNone (one (field .value (node (other "default_type") do
        symbol "="
        one ((reader d).type .inside))))
      return name :: bound ++ value) w (attributeChars attributes ++ (" />".toList ++ after)) AllWhole := by
    refine noModifier.optional.here.bind_here fun _ _ => ?_
    have named : Reads (nameNode (other "type_identifier")) w
        (attributeChars attributes ++ (" />".toList ++ after)) (IsA (other "type_identifier")) :=
      reads_nameNode (by decide) name ends
    refine ((named.mono fun _ => And.left).field .name).here.bind_end fun t ht => noBound.orNone.bind_end fun ts hts => ?_
    refine noValue.orNone.bind_end fun ts' hts' => takes_pure ?_
    rw [hts, hts']
    exact allWhole_singleton ht
  have sort : other "type_parameter" ≠ .fault := by decide
  exact (parts.node sort (begins_of_isName name)).here.mono fun _ _ => trivial

/-- The name of an element and its attributes are no type parameters. -/
theorem fails_typeParameters_markup {d : Nat} {attributes : List (List Char × List Char)}
    (writable : Writable attributes) (name : isName w = true) (plain : String.ofList w ≠ "const") :
    Fails (typeParameters (reader d)) (elementChars w attributes ++ after) := by
  have text_eq : elementChars w attributes ++ after =
      '<' :: (w ++ (attributeChars attributes ++ (" />".toList ++ after))) := by
    simp [elementChars]
  have closing : First (symbol ">") (· == '>') := first_symbol rfl
  have unclosed := refuses_sign after closing (by decide) (by decide) writable
  have noMore := refuses_sign after first_comma (by decide) (by decide) writable
  have listed : Takes (commaList (one (typeParameter (reader d)))) w
      (attributeChars attributes ++ (" />".toList ++ after)) fun _ => True := by
    have single : Takes (one (typeParameter (reader d))) w
        (attributeChars attributes ++ (" />".toList ++ after)) fun _ => True :=
      (takes_typeParameter writable name plain).bind_end fun _ _ => takes_pure trivial
    exact single.commaList_single noMore
  rw [text_eq]
  refine Fails.field (Refuses.node (Fails.here ?_) rfl) _
  exact @Reads.fails ['<'] _ _ _ _ _ _ (reads_symbol "<" rfl) fun _ _ =>
    listed.refuses fun _ _ => unclosed.bind

theorem operand_markup {attributes : List (List Char × List Char)} (writable : Writable attributes)
    (name : isName w = true) (plain : String.ofList w ≠ "const") :
    Operand 1 (elementChars w attributes) after Whole := by
  intro d deep flow
  refine Keeps.bind (keeps_peek rfl) fun first hfirst => ?_
  obtain rfl : first = some '<' := hfirst
  have hb : begins (elementChars w attributes ++ after) = true := rfl
  have noTypes : Keeps (orNone (one (typeParameters (reader d)))) (elementChars w attributes ++ after)
      (· = []) := (fails_typeParameters_markup writable name plain).one.orNone
  have head : Fails (arrowHead (reader d) flow) (elementChars w attributes ++ after) := by
    refine Fails.orElse ((first_nameNode.field _).one '<' _ (by decide) rfl) ?_
    split <;> exact noTypes.fails fun _ _ => ((first_parameters.field _).bind) '<' _ rfl rfl
  have noArrow : Fails (arrowFunction (reader d) flow) (elementChars w attributes ++ after) := by
    refine Refuses.node (Fails.here (Fails.bind (Fails.orElse ?_ head.seqLeft))) hb
    exact (first_asyncMark '<' _ (by decide) rfl).seqRight.seqLeft
  exact (reads_markup writable name deep).of_failed noArrow

theorem expression_markup {attributes : List (List Char × List Char)} (writable : Writable attributes)
    (name : isName w = true) (plain : String.ofList w ≠ "const") :
    Expression 5 (elementChars w attributes) := by
  have start : ∃ c cs, w = c :: cs ∧ c ≠ '!' := by
    obtain ⟨c, cs, rfl, part, -⟩ := head_of_isName name
    exact ⟨c, cs, rfl, ne_of_isNameBreak part (by decide)⟩
  obtain ⟨c, cs, rfl, other⟩ := start
  refine Operand.expression (fun _ _ => operand_markup writable name plain)
    (fun _ _ => opening_sign (by decide) rfl (by decide)) ⟨List.cons_ne_nil _ _, fun _ => rfl, fun _ => ?_, ?_⟩
  · simp [elementChars, isUnmarked, List.isPrefixOf, other.symm]
  · simp [elementChars]

end SuiteDraft.Grammar
