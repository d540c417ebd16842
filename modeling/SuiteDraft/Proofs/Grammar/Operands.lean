import SuiteDraft.Proofs.Grammar.Expressions
import SuiteDraft.Proofs.Grammar.Numbers
import SuiteDraft.Proofs.Json.Quotes
import SuiteDraft.Proofs.Suite.Patterns

/-!
# Operands

Names, literals and what stands in brackets, and the calls that are made of them. Each is a text by
itself: the pieces of which it is put together, with the gaps between them.
-/

namespace SuiteDraft.Grammar

open Input (Spells)
open SuiteDraft.Grammar.Parser

variable {r : Reader} {flow : Flow} {depth : Nat} {g w cs cs' inner after : List Char} {c : Char}
  {P Q : Tree → Prop}

/-! ## Lists in brackets -/

/-- Places with commas between, of which the parser fills each, or leaves it empty. -/
inductive Items (p : Parser (List Tree)) : List Char → List Char → Prop
  | last {cs after : List Char} (item : Takes (orNone p) cs after AllWhole)
      (ends : Refuses (symbol ",") after) : Items p cs after
  | more {cs cs' after : List Char} (item : Takes (orNone p) cs (',' :: (cs' ++ after)) AllWhole)
      (rest : Items p cs' after) : Items p (cs ++ ',' :: cs') after

theorem Items.split {p : Parser (List Tree)} (h : Items p cs after) :
    ∃ first rest, cs = first ++ rest ∧ Takes (orNone p) first (rest ++ after) AllWhole ∧
      Pieces (symbol "," *> orNone p) AllWhole rest after := by
  induction h with
  | @last cs after item ends => exact ⟨cs, [], (List.append_nil cs).symm, item, .nil ends.seqRight⟩
  | @more cs cs' after item _ ih =>
    obtain ⟨first, rest, rfl, takes, pieces⟩ := ih
    refine ⟨cs, ',' :: (first ++ rest), rfl, item, ?_⟩
    have place : Takes (symbol "," *> orNone p) (",".toList ++ first) (rest ++ after) AllWhole :=
      (reads_symbol "," rfl).here.seqRight takes
    exact .cons (List.cons_ne_nil _ _) place pieces

theorem Items.places {p : Parser (List Tree)} (h : Items p cs after) :
    Takes (places p) cs after AllWhole := by
  obtain ⟨first, rest, rfl, takes, pieces⟩ := h.split
  refine Takes.bind_end (Q := fun lists => ∀ ts ∈ lists, AllWhole ts) ?_ fun lists whole => takes_pure ?_
  · exact takes.bind fun ts hts => pieces.many.bind_end fun lists hlists =>
      takes_pure (List.forall_mem_cons.mpr ⟨hts, hlists⟩)
  · intro t mem
    obtain ⟨ts, hts, mem⟩ := List.mem_flatten.mp mem
    exact whole ts hts t mem

/-- What fills a place of a list. -/
def Item (p : Reader → Parser (List Tree)) (depth : Nat) (cs : List Char) : Prop :=
  ∀ d, depth ≤ d → ∀ after, Follows stops after → Takes (orNone (p (reader d))) cs after AllWhole

/-- What stands between brackets, the last of which is `closing`. -/
def Listing (p : Reader → Parser (List Tree)) (closing : Char) (depth : Nat) (cs : List Char) : Prop :=
  ∀ d, depth ≤ d → ∀ after, Follows [closing] after → Items (p (reader d)) cs after

section

variable {p : Reader → Parser (List Tree)} {closing : Char}

theorem Item.last (item : Item p depth cs) (stop : closing ∈ stops) (other : closing ≠ ',') :
    Listing p closing depth cs := fun d deep after follows =>
  .last (item d deep after (follows.mono (List.cons_subset.mpr ⟨stop, List.nil_subset _⟩)))
    (first_comma.refuses (by simpa using other) follows)

theorem Item.more (item : Item p depth cs) (rest : Listing p closing depth cs') :
    Listing p closing depth (cs ++ ',' :: cs') := fun d deep after follows =>
  .more (item d deep _ (follows_stop (g := []) .nil (by decide))) (rest d deep after follows)

/-- An empty place. -/
theorem Item.empty (first : ∀ d, First (p (reader d)) isNoStop) : Item p depth [] := by
  intro d _ after follows
  have refused : Refuses (p (reader d)) after :=
    (first d).refuses (fun c mem => isNoStop_eq_false mem) follows
  exact refused.orNone.mono fun ts hts t mem => by rw [hts] at mem; cases mem

end

/-- What fills a place among the arguments of a call or in an array. -/
def value (r : Reader) : Parser (List Tree) := one (spread r <|> r.expression .inside)

theorem noStop_value : First (value (reader depth)) isNoStop :=
  ((first_spread.orElse noStop_expression).one).noStop (by decide)

theorem Expression.item (h : Expression depth cs) (gap : IsGap g) : Item value depth (g ++ cs) := by
  intro d deep after follows
  have noSpread : Fails (spread (reader d)) (cs ++ after) := by
    cases cs with
    | nil => exact absurd rfl h.opens.nonempty
    | cons c cs =>
      have dot : (c == '.') = false := beq_false_of_ne fun eq => h.opens.noSpread (congrArg some eq)
      exact first_spread c (cs ++ after) dot (h.opens.begins after)
  exact Takes.orNone (((h.reads d deep .inside after follows).of_failed noSpread).one g gap)

theorem no_arguments : Listing value ')' depth [] :=
  (Item.empty fun _ => noStop_value).last (by decide) (by decide)

theorem one_argument (h : Expression depth cs) : Listing value ')' depth cs :=
  (h.item .nil).last (by decide) (by decide)

theorem two_arguments (h : Expression depth cs) (h' : Expression depth cs') :
    Listing value ')' depth (cs ++ ',' :: ' ' :: cs') :=
  (h.item .nil).more ((h'.item isGap_blank).last (by decide) (by decide))

/-! ## Calls, members and items -/

theorem reads_arguments (h : Listing value ')' depth inner) (gap : IsGap g) {d : Nat} (deep : depth ≤ d) :
    Reads (arguments (reader d)) ('(' :: (inner ++ (g ++ [')']))) after Whole := by
  have follows : Follows [')'] (g ++ ')' :: after) := ⟨g, ')', after, gap, by simp, rfl, rfl⟩
  have within : Reads (within "(" ")" (places (value (reader d)))) ('(' :: (inner ++ (g ++ [')'])))
      after AllWhole := Takes.within (h d deep _ follows).places gap rfl rfl
  exact (within.here.node (by decide) rfl).mono fun _ => And.left

theorem Step.call (h : Listing value ')' depth inner) (gap : IsGap g) :
    Step depth ('(' :: (inner ++ (g ++ [')']))) after (IsA .callExpression) := by
  intro d deep flow start t whole
  refine (takes_flow_goesOn_here '(' (by decide) rfl).bind_here fun _ _ => ?_
  refine (keeps_peek rfl).here.bind_here fun first hfirst => ?_
  obtain rfl : first = some '(' := hfirst
  refine (takes_guard rfl).bind_here fun _ _ => ?_
  exact ((reads_arguments h gap deep).here.field _).bind_end fun args hargs =>
    takes_close (by decide) start (.cons (whole_inField whole _) (allWhole_singleton hargs))

theorem reads_propertyNode (name : isName w = true) (ends : endsName after = true) :
    Reads propertyNode w after Whole := by
  refine ((reads_nameNode (by decide) name ends).mono fun _ => And.left).of_failed ?_
  refine fails_leaf (fun s hs => ?_) (begins_of_isName name)
  obtain ⟨c, w, rfl, part, -⟩ := head_of_isName name
  have other : (c == '#') = false := beq_false_of_ne (ne_of_isNameBreak part (by decide))
  obtain _ | ⟨char, -, -, -⟩ := hs
  simp [Scan.andThen, exactly, Input.startsWith, char, other]

theorem Step.member (name : isName w = true) (ends : endsName after = true) :
    Step depth ('.' :: w) after (IsA .memberExpression) := by
  intro d deep flow start t whole
  refine (takes_flow_goesOn_here '.' (by decide) rfl).bind_here fun _ _ => ?_
  refine (keeps_peek rfl).here.bind_here fun first hfirst => ?_
  obtain rfl : first = some '.' := hfirst
  have single : ∀ c ∈ (w ++ after).head?, c ∉ ['.'] := by
    obtain ⟨c, w, rfl, part, -⟩ := head_of_isName name
    intro d hd mem
    obtain rfl : c = d := Option.some.inj hd
    exact ne_of_isNameBreak part (by decide) (List.mem_singleton.mp mem)
  have point : Takes (symbolNot "." ['.']) ['.'] (w ++ after) fun _ => True :=
    (reads_symbol "." rfl).here.seqRight (takes_notFollowedBy single)
  refine point.bind fun _ _ => ((reads_propertyNode name ends).here.field _).bind_end fun property hp => ?_
  exact takes_close (by decide) start (.cons (whole_inField whole _) (allWhole_singleton hp))

theorem takes_expressions {d : Nat} (h : Expression depth cs) (deep : depth ≤ d) {ds : List Char}
    (follows : Follows ds after) (sub : ds ⊆ stops) (comma : ',' ∉ ds) :
    Reads (expressions (reader d) flow) cs after Whole := by
  refine (keeps_next (h.opens.begins after)).bind fun start _ => ?_
  refine (h.reads d deep flow after (follows.mono sub)).bind_end fun t ht => ?_
  have noMore : Refuses (symbol "," *> (reader d).expression flow) after := by
    refine First.refuses first_comma.seqRight (fun c mem => ?_) follows
    exact beq_false_of_ne fun eq => comma (eq ▸ mem)
  refine noMore.many.bind_here fun others hothers => ?_
  obtain rfl : others = [] := hothers
  exact takes_pure ht

theorem Step.index (h : Expression depth cs) :
    Step depth ('[' :: (cs ++ [']'])) after Whole := by
  intro d deep flow start t whole
  refine (takes_flow_goesOn_here '[' (by decide) rfl).bind_here fun _ _ => ?_
  refine (keeps_peek rfl).here.bind_here fun first hfirst => ?_
  obtain rfl : first = some '[' := hfirst
  have follows : Follows [']'] (']' :: after) := ⟨[], ']', after, .nil, by simp, rfl, rfl⟩
  have index : Reads (within "[" "]" (expressions (reader d) .inside)) ('[' :: (cs ++ [']'])) after
      Whole :=
    Takes.within (takes_expressions h deep follows (by decide) (by decide)).here .nil rfl rfl
  refine (index.here.field _).bind_end fun i hi => ?_
  exact (takes_close (by decide) start (.cons (whole_inField whole _) (allWhole_singleton hi))).mono
    fun _ => And.left

/-- What is asked of an operand, up to where an expression may end. -/
structure Tail (depth : Nat) (cs after : List Char) (Q : Tree → Prop) : Prop where
  chain : Chain depth cs after Whole Q
  ends : endsName (cs ++ after) = true
  noArrow : Refuses (symbol "=>") (cs ++ after)

theorem Tail.nil {ds : List Char} (follows : Follows ds after)
    (quiet : ∀ c ∈ ds, accessSigns.contains c = false ∧ c ≠ '=') (ends : endsName after = true) :
    Tail depth [] after Whole where
  chain := .nil follows fun c mem => (quiet c mem).1
  ends := ends
  noArrow := by
    have first : First (symbol "=>") (· == '=') := first_symbol rfl
    exact first.refuses (fun c mem => beq_false_of_ne (quiet c mem).2) follows

theorem Tail.stop (follows : Follows stops after) : Tail depth [] after Whole :=
  .nil follows (by decide) (follows.endsName (by decide))

theorem noArrow_sign (other : c ≠ '=') (hb : begins (c :: cs) = true) :
    Refuses (symbol "=>") (c :: cs) := by
  have first : First (symbol "=>") (· == '=') := first_symbol rfl
  exact (first c cs (beq_false_of_ne other) hb).here

theorem Step.tail {P : Tree → Prop} (first : Step depth (c :: cs) (cs' ++ after) P)
    (rest : Chain depth cs' after P Q) (sign : c ∈ ['.', '[', '(']) :
    Tail depth (c :: (cs ++ cs')) after Q where
  chain := rest.cons first (List.cons_ne_nil _ _)
  ends := by
    simp only [List.mem_cons, List.not_mem_nil, or_false] at sign
    rcases sign with rfl | rfl | rfl <;> rfl
  noArrow := by
    simp only [List.mem_cons, List.not_mem_nil, or_false] at sign
    rcases sign with rfl | rfl | rfl <;> exact noArrow_sign (by decide) rfl

theorem Step.whole {kind : Kind} (h : Step depth cs after (IsA kind)) : Step depth cs after Whole :=
  fun d deep flow start t ht => (h d deep flow start t ht).mono fun _ => And.left

theorem Tail.call (h : Listing value ')' depth inner) (gap : IsGap g) (rest : Tail depth cs after Q) :
    Tail depth ('(' :: (inner ++ (g ++ ')' :: cs))) after Q := by
  have step : Step depth _ (cs ++ after) _ := Step.call h gap
  have tail := step.whole.tail rest.chain (by decide)
  simpa using tail

theorem Tail.lastCall (h : Listing value ')' depth inner) (gap : IsGap g) {ds : List Char}
    (follows : Follows ds after) (quiet : ∀ c ∈ ds, accessSigns.contains c = false) :
    Tail depth ('(' :: (inner ++ (g ++ [')']))) after (IsA .callExpression) := by
  have step : Step depth _ ([] ++ after) _ := Step.call h gap
  have tail := step.tail (.nil follows quiet) (by decide)
  simpa using tail

theorem Tail.member (name : isName w = true) (rest : Tail depth cs after Q) :
    Tail depth ('.' :: (w ++ cs)) after Q :=
  (Step.member name rest.ends).whole.tail rest.chain (by decide)

/-- A member of which nothing is asked. -/
theorem Tail.lastMember (name : isName w = true) (rest : Tail depth [] after Q) : Tail depth ('.' :: w) after Q := by
  have tail := Tail.member name rest
  rwa [List.append_nil] at tail

theorem Tail.index {index : List Char} (h : Expression depth index) (rest : Tail depth cs after Q) :
    Tail depth ('[' :: (index ++ ']' :: cs)) after Q := by
  have step : Step depth _ (cs ++ after) _ := Step.index h
  have tail := step.tail rest.chain (by decide)
  simpa using tail

/-! ## Names and literals -/

/-- The words that are no names where an operand may stand, or that may begin a longer one. -/
def reservedWords : List String := "async" :: "new" :: operandWords

/-- Where a word begins, an operand is what the word says. -/
theorem reads_operand_word {d : Nat} {rest : List Char} (text_eq : cs ++ after = w ++ rest)
    (name : isName w = true) (ends : endsName rest = true)
    (h : Reads (wordOperand (reader d) flow (String.ofList w)) cs after Q) :
    Reads (operand (reader d) flow) cs after Q := by
  have hb : begins (cs ++ after) = true := by
    rw [text_eq]
    exact begins_of_isName name
  refine (keeps_peek hb).bind fun first hfirst => ?_
  obtain ⟨c, w', rfl, part, digit⟩ := head_of_isName name
  obtain rfl : first = some c := by rw [hfirst, text_eq]; rfl
  have worded : Reads (do
      if c.isDigit || c == '.' then numberLiteral
      else wordOperand (reader d) flow (← peekWord)) cs after Q := by
    have point : (c == '.') = false := beq_false_of_ne (ne_of_isNameBreak part (by decide))
    rw [digit, point]
    refine Keeps.bind (by rw [text_eq]; exact keeps_peekWord name ends) fun word hword => ?_
    obtain rfl : word = String.ofList (c :: w') := hword
    exact h
  split
  case h_1 none => cases none
  case h_12 same => cases same; exact worded
  all_goals
    exact absurd (Option.some.inj ‹some c = some _›) (ne_of_isNameBreak part (by decide))

theorem fails_arrowFunction_name {d : Nat} (name : isName w = true) (ends : endsName after = true)
    (plain : String.ofList w ≠ "async") (noArrow : Refuses (symbol "=>") after) :
    Fails (arrowFunction (reader d) flow) (w ++ after) := by
  refine Refuses.node (Fails.here (Fails.bind (Fails.orElse ?_ ?_))) (begins_of_isName name)
  · exact (Fails.bind (fails_keyword name ends plain)).seqRight.seqLeft
  · refine Reads.fails (Reads.orElse (Reads.one (Reads.field ?_ _))) fun _ _ => noArrow.bind
    exact (reads_nameNode (by decide) name ends).mono fun _ => And.left

theorem reads_operandName (name : isName w = true) (ends : endsName after = true)
    (plain : String.ofList w ∉ operandWords) : Reads operandName w after Whole := by
  refine (keeps_next (begins_of_isName name)).bind fun start _ => ?_
  refine (reads_word name ends).bind_end fun word hword => ?_
  obtain rfl : word = String.ofList w := hword
  refine (takes_guard (by simpa using plain)).bind_here fun _ _ => ?_
  split <;> exact (takes_close (by decide) start allWhole_nil).mono fun _ => And.left

theorem operand_name (name : isName w = true) (plain : String.ofList w ∉ reservedWords)
    (ends : endsName after = true) (noArrow : Refuses (symbol "=>") after) :
    Operand depth w after Whole := by
  intro d _ flow
  simp only [reservedWords, List.mem_cons, not_or] at plain
  obtain ⟨async, new, plain⟩ := plain
  have named : Reads (nameOrArrow (reader d) flow) w after Whole := by
    refine (reads_operandName name ends plain).of_failed ?_
    refine still_peekWord.fails fun _ => still_guard.fails fun _ => ?_
    exact fails_arrowFunction_name name ends async noArrow
  have word : wordOperand (reader d) flow (String.ofList w) = nameOrArrow (reader d) flow := by
    unfold wordOperand
    split
    case h_11 => rfl
    all_goals
      rename_i same
      first | exact absurd same async | exact absurd same new | exact absurd (same ▸ by decide) plain
  exact reads_operand_word rfl name ends (by rwa [word])

theorem access_name (name : isName w = true) (plain : String.ofList w ∉ reservedWords)
    (tail : Tail depth cs after Q) : Access (depth + 1) (w ++ cs) after Q :=
  (operand_name name plain tail.ends tail.noArrow).access tail.chain (begins_of_isName name)

theorem notPrefix_of_plain {word : String} (plain : word ∉ reservedWords) : word ∉ prefixWords := by
  have sub : ∀ u ∈ prefixWords, u ∈ reservedWords := by decide
  exact fun mem => plain (sub word mem)

theorem Tail.opening (tail : Tail depth cs after Q) (name : isName w = true)
    (plain : String.ofList w ∉ reservedWords) : Opening (w ++ cs ++ after) := by
  rw [List.append_assoc]
  exact opening_name name tail.ends (notPrefix_of_plain plain)

theorem expression_name (name : isName w = true) (plain : String.ofList w ∉ reservedWords)
    (tail : ∀ after, Follows stops after → Tail depth cs after Whole) :
    Expression (depth + 4) (w ++ cs) :=
  Access.expression (fun after follows => access_name name plain (tail after follows))
    (fun after follows => (tail after follows).opening name plain) (opens_name name)

theorem expression_await (name : isName w = true) (plain : String.ofList w ∉ reservedWords)
    (tail : ∀ after, Follows stops after → Tail depth cs after Whole) :
    Expression (depth + 5) ("await".toList ++ ([' '] ++ (w ++ cs))) :=
  Access.await (fun after follows => access_name name plain (tail after follows))
    (fun after follows => (tail after follows).opening name plain) (opens_name name)

/-- Whatever the parser gives has no fault. -/
def Sound (p : Parser Tree) : Prop := ∀ s t rest, p s = some (t, rest) → Whole t

theorem sound_leafHere {kind : Kind} {scan : Scan} (sort : kind ≠ .fault) :
    Sound (leafHere kind scan) := by
  intro s t rest h
  unfold leafHere at h
  split at h
  · cases h
  · obtain ⟨rfl, -⟩ := Prod.mk.inj (Option.some.inj h)
    exact whole_build sort allWhole_nil

theorem Sound.orElse {p q : Parser Tree} (hp : Sound p) (hq : Sound q) : Sound (p <|> q) := by
  intro s t rest h
  simp only [HOrElse.hOrElse, OrElse.orElse, Alternative.orElse] at h
  split at h
  · exact hq s t rest h
  · exact hp s t rest h

theorem Sound.manyUpTo {p : Parser Tree} (hp : Sound p) :
    ∀ n s ts rest, Parser.manyUpTo n p s = some (ts, rest) → AllWhole ts := by
  intro n
  induction n with
  | zero =>
    intro s ts rest h
    obtain ⟨rfl, -⟩ := Prod.mk.inj (Option.some.inj h)
    exact allWhole_nil
  | succ n ih =>
    intro s ts rest h
    simp only [Parser.manyUpTo] at h
    split at h
    · obtain ⟨rfl, -⟩ := Prod.mk.inj (Option.some.inj h)
      exact allWhole_nil
    · next first =>
      split at h
      · cases h
      · next others =>
        obtain ⟨rfl, -⟩ := Prod.mk.inj (Option.some.inj h)
        exact .cons (hp _ _ _ first) (ih _ _ _ others)

/-- A literal that is made of pieces between two marks. -/
theorem sound_marked {piece : Parser Tree} (h : Sound piece) (mark : String) :
    Sound (node .string do
      symbol mark
      let pieces ← many piece
      adjacent mark
      return pieces) := by
  intro s t rest found
  simp only [node, Bind.bind, many] at found
  split at found
  · cases found
  · next inside =>
    obtain ⟨rfl, -⟩ := Prod.mk.inj (Option.some.inj found)
    split at inside
    · cases inside
    · split at inside
      · cases inside
      · next read =>
        split at inside
        · cases inside
        · obtain ⟨rfl, -⟩ := Prod.mk.inj (Option.some.inj inside)
          exact whole_build (by decide) (h.manyUpTo _ _ _ _ read)

theorem sound_stringIn {quote : Char} : Sound (stringIn quote) :=
  sound_marked ((sound_leafHere (by decide)).orElse (sound_leafHere (by decide))) _

theorem sound_attributeString {quote : Char} : Sound (attributeString quote) :=
  sound_marked ((sound_leafHere (by decide)).orElse (sound_leafHere (by decide))) _

theorem node_afterGap {kind : Kind} {p : Parser (List Tree)} {s : Input} (gap : IsGap g)
    (hb : begins cs = true) (hs : Spells s (g ++ cs)) :
    node kind p s = node kind p (s.drop g.length) := by
  have hs' := spells_afterGap gap hb hs
  rw [afterGap_drop gap hb hs] at hs'
  have here : afterGap (s.drop g.length) = s.drop g.length := afterGap_drop (g := []) .nil hb hs'
  simp only [node, here, afterGap_drop gap hb hs]

/-- A text in double quotes, with escapes, is a string literal. -/
theorem reads_stringLiteral (text : List Char) :
    Reads stringLiteral (Json.quoteChars text) after Whole := by
  intro g gap s hs
  rw [List.append_assoc] at hs
  have hs' : Spells (s.drop g.length) (Json.quoteChars text ++ after) := by
    simpa using hs.drop g.length
  obtain ⟨t, found, -⟩ := Json.stringLiteral_readsAs hs'.numbered hs'.chars_eq
  have whole : Whole t := (sound_stringIn.orElse sound_stringIn) _ _ _ found
  have here : stringLiteral s = stringLiteral (s.drop g.length) := by
    have hb : begins (Json.quoteChars text ++ after) = true := rfl
    simp only [stringLiteral, stringIn, HOrElse.hOrElse, OrElse.orElse, Alternative.orElse,
      node_afterGap gap hb hs]
  exact ⟨t, by rw [here, found, List.drop_drop, List.length_append], whole⟩

theorem operand_string (text : List Char) : Operand depth (Json.quoteChars text) after Whole := by
  intro d _ flow
  refine Keeps.bind (keeps_peek rfl) fun first hfirst => ?_
  obtain rfl : first = some '"' := hfirst
  exact reads_stringLiteral text

theorem expression_string (text : List Char) : Expression 4 (Json.quoteChars text) :=
  Operand.expression (fun _ _ => operand_string text)
    (fun _ _ => opening_sign (by decide) rfl (by decide)) (opens_cons (by decide) (by decide))

theorem operand_true (ends : endsName after = true) :
    Operand depth "true".toList after Whole := fun _ _ _ =>
  reads_operand_word rfl (by decide) ends
    (((reads_wordNode (by decide) "true" (by decide) ends).orElse).mono fun _ => And.left)

theorem expression_true : Expression 4 "true".toList :=
  Operand.expression (fun _ follows => operand_true (follows.endsName (by decide)))
    (fun _ follows => opening_name (by decide) (follows.endsName (by decide)) (by decide))
    (opens_cons (by decide) (by decide))

/-- The pattern of a text on one line. -/
theorem operand_pattern {text : String} (nonempty : text.toList ≠ []) (line : '\n' ∉ text.toList)
    (stop : ∀ c ∈ after.head?, Pattern.isFlag c = false)
    (hb : begins ((Pattern.literal text).toList ++ after) = true) :
    Operand depth (Pattern.literal text).toList after Whole := by
  intro d _ flow
  refine (keeps_peek hb).bind fun first hfirst => ?_
  obtain rfl : first = some '/' := by rw [hfirst, Pattern.toList_literal]; rfl
  refine (reads_leaf (by decide) (fun s hs => ?_) hb).mono fun _ => And.left
  rw [Pattern.pattern_literal hs stop, if_neg (not_or.mpr ⟨nonempty, line⟩)]

theorem isFlag_blank (blank : isGapBlank c = true) : Pattern.isFlag c = false := by
  have outside := toNat_blank blank
  rw [← Bool.not_eq_true]
  intro flag
  simp only [Pattern.isFlag, Bool.and_eq_true, decide_eq_true_eq, Char.le_def, UInt32.le_iff_toNat_le]
    at flag
  have least : 97 ≤ c.toNat := flag.1
  have most : c.toNat ≤ 122 := flag.2
  omega

theorem begins_pattern {text : String} (nonempty : text.toList ≠ []) (after : List Char) :
    begins ((Pattern.literal text).toList ++ after) = true := by
  obtain ⟨c, cs, text_eq⟩ := List.exists_cons_of_ne_nil nonempty
  rw [Pattern.toList_literal, text_eq, Pattern.escape_cons, Pattern.escapeChar]
  split
  · rfl
  · next plain =>
    have slash : c ≠ '/' := fun eq => plain (eq ▸ by decide)
    have star : c ≠ '*' := fun eq => plain (eq ▸ by decide)
    have start : isGapBlank '/' = false := by decide
    simp [begins, start, slash, star]

theorem expression_pattern {text : String} (nonempty : text.toList ≠ []) (line : '\n' ∉ text.toList) :
    Expression 4 (Pattern.literal text).toList := by
  have start : ∀ after, ∃ cs, (Pattern.literal text).toList ++ after = '/' :: cs := fun after =>
    ⟨_, by rw [Pattern.toList_literal]; rfl⟩
  have hb := begins_pattern nonempty
  refine Operand.expression (fun after follows => ?_) (fun after _ => ?_) ⟨?_, hb, ?_, ?_⟩
  · have stop : ∀ c ∈ after.head?, (!Pattern.isFlag c) = true :=
      follows.head (by decide) (fun c blank => by rw [isFlag_blank blank]; rfl) (by decide)
    exact operand_pattern nonempty line (fun c hc => by simpa using stop c hc) (hb after)
  · obtain ⟨cs, text_eq⟩ := start after
    have opening := hb after
    rw [text_eq] at opening ⊢
    exact opening_sign (by decide) opening (by decide)
  · rw [Pattern.toList_literal]
    exact List.cons_ne_nil _ _
  · intro after
    obtain ⟨cs, text_eq⟩ := start after
    rw [text_eq]
    simp [isUnmarked, List.isPrefixOf]
  · rw [Pattern.toList_literal]
    simp

theorem fails_number (digit : c.isDigit = false) (point : c ≠ '.') (hb : begins (c :: cs) = true) :
    Fails numberLiteral (c :: cs) :=
  fails_leaf (fun s hs => (finds_noNumber digit point).eq s hs.numbered hs.chars_eq) hb

theorem isNumberPart_blank (blank : isGapBlank c = true) : isNumberPart c = false := by
  have outside := toNat_blank blank
  rw [← Bool.not_eq_true]
  intro part
  simp only [isNumberPart, isHexDigit, Char.isDigit, Bool.or_eq_true, Bool.and_eq_true, decide_eq_true_eq,
    Char.le_def, UInt32.le_iff_toNat_le, List.contains_iff_mem] at part
  rcases part with ((⟨least, most⟩ | ⟨least, most⟩) | ⟨least, most⟩) | mark
  · have least : 48 ≤ c.toNat := least
    have most : c.toNat ≤ 57 := most
    omega
  · have least : 97 ≤ c.toNat := least
    have most : c.toNat ≤ 102 := most
    omega
  · have least : 65 ≤ c.toNat := least
    have most : c.toNat ≤ 70 := most
    omega
  · have marks : ∀ d ∈ "_.nxXoO".toList, 32 < d.toNat ∧ d.toNat < 160 := by decide
    have inside := marks c mark
    omega

theorem operand_one (follows : Follows stops after) : Operand 0 ['1'] after Whole := by
  intro d _ flow
  refine Keeps.bind (keeps_peek rfl) fun first hfirst => ?_
  obtain rfl : first = some '1' := hfirst
  have stop : ∀ c ∈ after.head?, (!isNumberPart c) = true :=
    follows.head (by decide) (fun c blank => by rw [isNumberPart_blank blank]; rfl) (by decide)
  have one : ∀ s, Spells s (['1'] ++ after) → number s = some (s.drop 1) := fun s hs =>
    (finds_one fun c hc => by simpa using stop c hc).eq s hs.numbered hs.chars_eq
  exact (reads_leaf (by decide) one rfl).mono fun _ => And.left

theorem opening_one : Opening ('1' :: after) := opening_sign (by decide) rfl (by decide)

theorem opens_one : Opens ['1'] := opens_cons (by decide) (by decide)

theorem expression_one : Expression 4 ['1'] :=
  Operand.expression (fun _ follows => operand_one follows) (fun _ _ => opening_one) opens_one

/-- One less than what a name stands for. -/
theorem expression_less (name : isName w = true) (plain : String.ofList w ∉ reservedWords)
    (tail : ∀ after, Tail depth cs (" - ".toList ++ after) Whole) (deep : 1 ≤ depth) :
    Expression (depth + 4) (w ++ cs ++ (" - ".toList ++ ['1'])) := by
  have opens : Opens (w ++ cs) := opens_name name
  refine Operation.expression (fun after follows => ?_) (opens.append _)
  have access : Access (depth + 1) (w ++ cs) ([' '] ++ '-' :: ' ' :: '1' :: after) Whole :=
    access_name name plain (tail ('1' :: after))
  have left := access.unary isGap_blank ((tail ('1' :: after)).opening name plain) opens rfl
  have right : Operation 3 11 ['1'] after :=
    ((operand_one follows).unary follows opening_one opens_one).operation (opens_one.begins after) follows
  exact left.minus (fun d le => right d (by omega)) (opens.begins _) follows

/-! ## Arrays and objects -/

theorem fails_assignSign_first {ds : List Char} (follows : Follows ds after) (other : '=' ∉ ds) :
    Refuses assignSign after := by
  have first : First assignSign (· == '=') := first_symbolNot rfl
  exact first.refuses (fun c mem => beq_false_of_ne fun eq => other (eq ▸ mem)) follows

theorem reads_literalOrAssignment {literal : Parser Tree} {d : Nat} (h : Reads literal cs after Whole)
    (noSign : Refuses assignSign after) :
    Reads (literalOrAssignment (reader d) flow literal) cs after Whole := by
  refine Reads.orElse (h.bind_end fun t ht => ?_)
  refine noSign.sees.bind_here fun seen hseen => ?_
  obtain rfl : seen = false := hseen
  exact (takes_guard rfl).bind_here fun _ _ => takes_pure ht

theorem operand_array (h : Listing value ']' depth inner) (gap : IsGap g)
    (noSign : Refuses assignSign after) :
    Operand depth ('[' :: (inner ++ (g ++ [']']))) after Whole := by
  intro d deep flow
  refine Keeps.bind (keeps_peek rfl) fun first hfirst => ?_
  obtain rfl : first = some '[' := hfirst
  have follows : Follows [']'] (g ++ ']' :: after) := ⟨g, ']', after, gap, by simp, rfl, rfl⟩
  have within : Reads (within "[" "]" (places (value (reader d)))) ('[' :: (inner ++ (g ++ [']'])))
      after AllWhole := Takes.within (h d deep _ follows).places gap rfl rfl
  refine reads_literalOrAssignment ?_ noSign
  exact (within.here.node (by decide) rfl).mono fun _ => And.left

/-- What fills a place among the members of an object. -/
def member (r : Reader) : Parser (List Tree) := one (property r)

theorem first_keys : ∀ d, First (propertyName (reader d)) isNoStop := by
  intro d
  have number : First numberLiteral isNoStop := by
    intro c cs hc hb
    refine fails_leaf (fun s hs => ?_) hb
    have stop : c ∈ stops := by
      rw [isNoStop, Bool.not_eq_false'] at hc
      exact List.contains_iff_mem.mp hc
    obtain _ | @⟨⟨_, _, _, _⟩, _, _, _, char, -, -, -⟩ := hs
    subst char
    simp only [stops, List.mem_cons, List.not_mem_nil, or_false] at stop
    rcases stop with rfl | rfl | rfl | rfl | rfl <;> rfl
  have computed : First (computedName (reader d)) (· == '[') := (((first_symbol rfl).within).one).node
  exact (first_propertyNode.orElse (first_stringLiteral.orElse (number.orElse computed))).noStop
    (by decide)

theorem keeps_memberModifiers {ends : Bool} (modifier : Fails (memberModifier ends) cs)
    (star : Fails (symbol "*") cs) : Keeps (memberModifiers ends) cs fun _ => True :=
  modifier.many.keeps fun _ _ => star.optional.keeps fun _ _ => keeps_pure trivial

theorem noStop_member : First (member (reader depth)) isNoStop := by
  have star : First (symbol "*") (· == '*') := first_symbol rfl
  have method : First (method (reader depth) false) fun c => (isNameStart c || c == '*') || isNoStop c := by
    refine First.node (First.keeps (Q := fun _ => True) (fun c cs hc hb => ?_) fun _ _ => ?_)
    · rw [Bool.or_eq_false_iff] at hc
      exact keeps_memberModifiers (first_word.bind c cs hc.1 hb) (star c cs hc.2 hb)
    · exact ((first_keys depth).field _).bind
  have pair : First (node (other "pair") (do
      let key ← field .key (propertyName (reader depth))
      symbol ":"
      return [key, ← field .value ((reader depth).expression .inside)])) isNoStop :=
    (((first_keys depth).field _).bind).node
  exact ((first_spread.orElse (method.orElse (pair.orElse first_nameNode))).one).noStop (by decide)

/-- What may stand before the colon of a member. -/
structure Key (cs : List Char) : Prop where
  reads : ∀ d rest, Reads (propertyName (reader d)) cs (':' :: rest) Whole
  begins : ∀ after, begins (cs ++ after) = true
  noModifier : ∀ ends rest, Fails (memberModifier ends) (cs ++ ':' :: rest)
  head : ∃ c cs', cs = c :: cs' ∧ c ≠ '.' ∧ c ≠ '*'

namespace Key

variable {key rest : List Char}

theorem fails_first {p : Parser α} {e : Char} (h : Key key) (first : First p (· == e))
    (other : e = '.' ∨ e = '*') : Fails p (key ++ ':' :: rest) := by
  have hb := h.begins (':' :: rest)
  obtain ⟨c, key', rfl, noSpread, noStar⟩ := h.head
  have ne : c ≠ e := by
    rcases other with rfl | rfl
    · exact noSpread
    · exact noStar
  exact first c _ (beq_false_of_ne ne) hb

/-- A key with a value is no method. -/
theorem fails_method (h : Key key) {d : Nat} : Fails (method (reader d) false) (key ++ ':' :: rest) := by
  have modifiers : Keeps (memberModifiers false) (key ++ ':' :: rest) fun _ => True :=
    keeps_memberModifiers (h.noModifier _ _) (h.fails_first (first_symbol rfl) (.inr rfl))
  refine Refuses.node (Fails.here (modifiers.fails fun _ _ => ?_)) (h.begins _)
  refine Reads.fails ((h.reads d _).field _) fun _ _ => ?_
  have question : First (symbol "?") (· == '?') := first_symbol rfl
  refine Takes.refuses (question ':' _ rfl rfl).optional.here fun _ _ => ?_
  exact (first_signature ':' _ rfl rfl).here.bind

theorem item (h : Key key) (gap : IsGap g) {g' : List Char} (gap' : IsGap g')
    (value : Expression depth cs) : Item member depth (g ++ (key ++ ':' :: (g' ++ cs))) := by
  intro d deep after follows
  have text_eq : key ++ ':' :: (g' ++ cs) ++ after = key ++ ':' :: (g' ++ cs ++ after) := by simp
  have hb : Grammar.begins (key ++ ':' :: (g' ++ cs) ++ after) = true := by
    rw [text_eq]
    exact h.begins _
  have pair : Reads (node (other "pair") (do
      let key ← field .key (propertyName (reader d))
      symbol ":"
      return [key, ← field .value ((reader d).expression .inside)])) (key ++ ':' :: (g' ++ cs)) after
      Whole := by
    refine (Takes.node (by decide) ?_ hb).mono fun _ => And.left
    refine Takes.bind (Reads.here ((h.reads d _).field _)) fun k hk => ?_
    refine Takes.bind (reads_symbol ":" rfl).here fun _ _ => ?_
    exact (((value.reads d deep .inside after follows).field _) g' gap').bind_end fun v hv =>
      takes_pure (.cons hk (allWhole_singleton hv))
  have noMethod : Fails (method (reader d) false) (key ++ ':' :: (g' ++ cs) ++ after) := by
    rw [text_eq]
    exact h.fails_method
  have noSpread : Fails (spread (reader d)) (key ++ ':' :: (g' ++ cs) ++ after) := by
    rw [text_eq]
    exact h.fails_first first_spread (.inl rfl)
  exact ((((pair.orElse).of_failed noMethod).of_failed noSpread).one g gap).orNone

end Key

theorem key_name (name : isName w = true) : Key w where
  reads d rest := (reads_propertyNode name (by rfl)).orElse
  begins after := begins_of_isName name
  noModifier ends rest := by
    refine Reads.fails (reads_word name (by rfl)) fun _ _ => still_guard.bind_refuses fun _ => ?_
    intro s hs
    have here : gap s = ⟨false, s⟩ := gap_inline (g := []) nofun rfl hs
    have noName : Grammar.name s = none := name_none (by decide) hs
    have stop : startsName (gap s).rest = false := by
      rw [here, startsName, noName]
      obtain _ | ⟨char, -, -, -⟩ := hs
      simp [char]
    exact refuses_guard (by rw [stop, Bool.and_false]) s hs
  head := by
    obtain ⟨c, w', rfl, part, -⟩ := head_of_isName name
    exact ⟨c, w', rfl, ne_of_isNameBreak part (by decide), ne_of_isNameBreak part (by decide)⟩

theorem key_string (text : List Char) : Key (Json.quoteChars text) where
  reads d rest := by
    refine (reads_stringLiteral text).orElse.of_failed ?_
    exact first_propertyNode '"' _ (by decide) rfl
  begins after := rfl
  noModifier ends rest := first_word.bind '"' _ (by decide) rfl
  head := ⟨'"', _, rfl, by decide, by decide⟩

theorem reads_objectLiteral (h : Listing member '\x7d' depth inner) (gap : IsGap g) {d : Nat}
    (deep : depth ≤ d) :
    Reads (objectLiteral (reader d)) ('\x7b' :: (inner ++ (g ++ ['\x7d']))) after Whole := by
  have follows : Follows ['\x7d'] (g ++ '\x7d' :: after) := ⟨g, '\x7d', after, gap, by simp, rfl, rfl⟩
  have within : Reads (within "\x7b" "\x7d" (places (member (reader d))))
      ('\x7b' :: (inner ++ (g ++ ['\x7d']))) after AllWhole :=
    Takes.within (h d deep _ follows).places gap rfl rfl
  exact (within.here.node (by decide) rfl).mono fun _ => And.left

theorem operand_object (h : Listing member '\x7d' depth inner) (gap : IsGap g)
    (noSign : Refuses assignSign after) :
    Operand depth ('\x7b' :: (inner ++ (g ++ ['\x7d']))) after Whole := by
  intro d deep flow
  refine Keeps.bind (keeps_peek rfl) fun first hfirst => ?_
  obtain rfl : first = some '\x7b' := hfirst
  exact reads_literalOrAssignment (reads_objectLiteral h gap deep) noSign

theorem expression_array (h : Listing value ']' depth inner) (gap : IsGap g) :
    Expression (depth + 4) ('[' :: (inner ++ (g ++ [']']))) :=
  Operand.expression (fun _ follows => operand_array h gap (fails_assignSign_first follows (by decide)))
    (fun _ _ => opening_sign (by decide) rfl (by decide)) (opens_cons (by decide) (by decide))

theorem expression_object (h : Listing member '\x7d' depth inner) (gap : IsGap g) :
    Expression (depth + 4) ('\x7b' :: (inner ++ (g ++ ['\x7d']))) :=
  Operand.expression (fun _ follows => operand_object h gap (fails_assignSign_first follows (by decide)))
    (fun _ _ => opening_sign (by decide) rfl (by decide)) (opens_cons (by decide) (by decide))

/-- Items with commas between and nothing else. -/
theorem Listing.intercalate {p : Reader → Parser (List Tree)} {closing : Char} (stop : closing ∈ stops)
    (other : closing ≠ ',') (empty : Item p depth []) : ∀ (items : List (List Char)),
    (∀ cs ∈ items, Item p depth cs) → Listing p closing depth ([','].intercalate items)
  | [], _ => empty.last stop other
  | [cs], h => by
    rw [List.intercalate_singleton]
    exact (h cs List.mem_cons_self).last stop other
  | cs :: cs' :: items, h => by
    rw [List.intercalate_cons_cons]
    have rest := Listing.intercalate stop other empty (cs' :: items) fun cs mem =>
      h cs (List.mem_cons_of_mem _ mem)
    have listing := (h cs List.mem_cons_self).more rest
    simpa using listing

end SuiteDraft.Grammar
