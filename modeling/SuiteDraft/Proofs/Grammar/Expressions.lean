import SuiteDraft.Proofs.Grammar.Rules

/-!
# Expressions

An expression is an operand with what is called or asked of it, read through the levels of unary
operators, operations and choices, each of which finds nothing for itself in it. It ends before a
bracket that closes, a comma or a semicolon.
-/

namespace SuiteDraft.Grammar

open Input (Spells)
open SuiteDraft.Grammar.Parser

variable {r : Reader} {flow : Flow} {depth : Nat} {g w cs cs' after : List Char} {c : Char}
  {P Q : Tree → Prop}

/-! ## How an operand begins -/

/-- The text begins with this word, or with a sign where the word is empty. -/
inductive Starts : List Char → String → Prop
  | word {w rest : List Char} (name : isName w = true) (ends : endsName rest = true) :
      Starts (w ++ rest) (String.ofList w)
  | sign {c : Char} {cs : List Char} (sign : isNameStart c = false) (begins : begins (c :: cs) = true) :
      Starts (c :: cs) ""

theorem Starts.exists_head {word : String} (h : Starts cs word) : ∃ c, cs.head? = some c := by
  cases h with
  | @word w rest name _ =>
    cases w with
    | nil => cases name
    | cons c w => exact ⟨c, rfl⟩
  | sign _ _ => exact ⟨_, rfl⟩

theorem Starts.keeps {word : String} (h : Starts cs word) : Keeps peekWord cs (· = word) := by
  cases h with
  | word name ends => exact keeps_peekWord name ends
  | sign sign begins => exact keeps_peekWord_none sign begins

/-- The words that are operators in front of an operand. -/
def prefixWords : List String := ["typeof", "void", "delete", "await", "yield"]

/-- The text begins as an expression may. -/
structure Opens (cs : List Char) : Prop where
  nonempty : cs ≠ []
  begins : ∀ after, begins (cs ++ after) = true
  unmarked : ∀ after, isUnmarked (cs ++ after) = true
  noSpread : cs.head? ≠ some '.'

theorem Opens.append (h : Opens cs) (cs' : List Char) : Opens (cs ++ cs') where
  nonempty := List.append_ne_nil_of_left_ne_nil h.nonempty cs'
  begins after := by rw [List.append_assoc]; exact h.begins _
  unmarked after := by rw [List.append_assoc]; exact h.unmarked _
  noSpread := by
    cases cs with
    | nil => exact absurd rfl h.nonempty
    | cons c cs => exact h.noSpread

theorem ne_of_isNameBreak {d : Char} (h : isNameBreak c = false) (breaks : isNameBreak d = true) :
    c ≠ d := by
  rintro rfl
  rw [breaks] at h
  cases h

theorem opens_cons (blank : isGapBlank c = false) (plain : c ∉ ['/', '<', '-', '.']) :
    Opens (c :: cs) := by
  simp only [List.mem_cons, List.not_mem_nil, or_false, not_or] at plain
  obtain ⟨slash, less, minus, dot⟩ := plain
  refine ⟨List.cons_ne_nil _ _, fun after => ?_, fun after => ?_, by simpa using dot⟩
  · simp [begins, blank, slash]
  · simp [isUnmarked, List.isPrefixOf, Ne.symm less, Ne.symm minus]

theorem opens_name (name : isName w = true) : Opens (w ++ cs) := by
  obtain ⟨c, w, rfl, part, -⟩ := head_of_isName name
  refine opens_cons (isGapBlank_eq_false part) fun mem => ?_
  have breaks : ∀ d ∈ ['/', '<', '-', '.'], isNameBreak d = true := by decide
  exact ne_of_isNameBreak part (breaks c mem) rfl

/-- The text begins with an operand and not with an operator in front of one. -/
structure Opening (cs : List Char) : Prop where
  word : ∃ word, Starts cs word ∧ word ∉ prefixWords
  sign : ∀ c ∈ cs.head?, c ∉ ['!', '~', '+', '-']

theorem opening_name (name : isName w = true) (ends : endsName after = true)
    (plain : String.ofList w ∉ prefixWords) : Opening (w ++ after) := by
  have starts : Starts (w ++ after) (String.ofList w) := .word name ends
  obtain ⟨c, w, rfl, part, -⟩ := head_of_isName name
  refine ⟨⟨_, starts, plain⟩, fun d hd mem => ?_⟩
  obtain rfl : c = d := Option.some.inj hd
  have breaks : ∀ d ∈ ['!', '~', '+', '-'], isNameBreak d = true := by decide
  exact ne_of_isNameBreak part (breaks c mem) rfl

theorem opening_sign (sign : isNameStart c = false) (hb : begins (c :: cs) = true)
    (plain : c ∉ ['!', '~', '+', '-']) : Opening (c :: cs) :=
  ⟨⟨"", .sign sign hb, by decide⟩, fun _ hd => Option.some.inj hd ▸ plain⟩

/-! ## What is asked of an operand -/

def accessSigns : List Char := ['.', '?', '[', '(', '`', '<', '!']

theorem first_accessStep {calls : Bool} {start : Input} {t : Tree} :
    First (accessStep r flow calls start t) accessSigns.contains := by
  intro c cs hc hb
  refine still_flow_goesOn.fails fun _ => (keeps_peek hb).fails fun first hfirst => ?_
  obtain rfl : first = some c := hfirst
  simp only [accessSigns, List.contains_cons, List.contains_nil, Bool.or_false, Bool.or_eq_false_iff,
    beq_eq_false_iff_ne] at hc
  obtain ⟨h₁, h₂, h₃, h₄, h₅, h₆, h₇⟩ := hc
  split
  all_goals first | exact absurd (Option.some.inj ‹_›) ‹_› | exact fun _ _ => refuses_failure

theorem refuses_moreAccess {calls : Bool} {start : Input} {t : Tree}
    (h : Refuses (accessStep r flow calls start t) after) (whole : Q t) :
    ∀ n, Takes (moreAccess r flow calls start n t) [] after Q
  | 0 => takes_pure whole
  | _ + 1 => (takes_pure whole).of_refused h.bind

/-- What is asked of an operand, step by step, as it stands right behind it. -/
def Chain (depth : Nat) (cs after : List Char) (P Q : Tree → Prop) : Prop :=
  ∀ d, depth ≤ d → ∀ flow start n t, cs.length ≤ n → P t →
    Takes (moreAccess (reader d) flow true start n t) cs after Q

/-- One step of what is asked of an operand. -/
def Step (depth : Nat) (cs after : List Char) (Q : Tree → Prop) : Prop :=
  ∀ d, depth ≤ d → ∀ flow start t, Whole t → Takes (accessStep (reader d) flow true start t) cs after Q

theorem Chain.nil {ds : List Char} (follows : Follows ds after)
    (ends : ∀ c ∈ ds, accessSigns.contains c = false) : Chain depth [] after Q Q :=
  fun _ _ _ _ n _ _ whole =>
    refuses_moreAccess (first_accessStep.refuses ends follows) whole n

theorem Chain.cons (rest : Chain depth cs' after P Q) (first : Step depth cs (cs' ++ after) P)
    (nonempty : cs ≠ []) : Chain depth (cs ++ cs') after Whole Q := by
  intro d deep flow start n t enough whole
  have positive : 0 < cs.length := List.length_pos_of_ne_nil nonempty
  rw [List.length_append] at enough
  obtain ⟨n, rfl⟩ := Nat.exists_eq_add_one_of_ne_zero (show n ≠ 0 by omega)
  refine Takes.orElse ((first d deep flow start t whole).bind fun t' ht' => ?_)
  exact rest d deep flow start n t' (by omega) ht'

/-- An operand alone. -/
def Operand (depth : Nat) (cs after : List Char) (Q : Tree → Prop) : Prop :=
  ∀ d, depth ≤ d → ∀ flow, Reads (operand (reader d) flow) cs after Q

/-- An operand with what is asked of it. -/
def Access (depth : Nat) (cs after : List Char) (Q : Tree → Prop) : Prop :=
  ∀ d, depth ≤ d → ∀ flow, Reads (parse .markup d (.access flow)) cs after Q

theorem Access.mono {depth' : Nat} (h : Access depth cs after Q) (le : depth ≤ depth') :
    Access depth' cs after Q := fun d deep => h d (le.trans deep)

/-- An operand with the operators in front of it. -/
def Unary (depth : Nat) (cs after : List Char) : Prop :=
  ∀ d, depth ≤ d → ∀ flow, Reads (parse .markup d (.unary flow)) cs after Whole

/-- Operands and the operators that bind them at least so tightly. -/
def Operation (depth level : Nat) (cs after : List Char) : Prop :=
  ∀ d, depth ≤ d → ∀ flow, Reads (parse .markup d (.operation flow level)) cs after Whole

/-- The text of an expression, read before whatever it may end before, with rules at most so deep. -/
structure Expression (depth : Nat) (cs : List Char) : Prop where
  opens : Opens cs
  reads : ∀ d, depth ≤ d → ∀ flow after, Follows stops after →
    Reads (parse .markup d (.expression flow)) cs after Whole

theorem Expression.mono {depth' : Nat} (h : Expression depth cs) (le : depth ≤ depth') :
    Expression depth' cs := ⟨h.opens, fun d deep => h.reads d (le.trans deep)⟩

theorem Operand.access (h : Operand depth cs (cs' ++ after) P) (chain : Chain depth cs' after P Q)
    (hb : begins (cs ++ (cs' ++ after)) = true) : Access (depth + 1) (cs ++ cs') after Q := by
  intro d deep flow
  obtain ⟨d, rfl⟩ := Nat.exists_eq_add_one_of_ne_zero (show d ≠ 0 by omega)
  refine Keeps.bind (by rw [List.append_assoc]; exact keeps_next hb) fun start hstart => ?_
  refine (h d (by omega) flow).bind fun t ht => chain d (by omega) flow start _ t ?_ ht
  rw [hstart.left_eq]
  simp only [List.length_append]
  omega

/-! ## Operators in front -/

/-- No assignment goes on here. -/
def isSettled (cs : List Char) : Bool :=
  begins cs && ("=" :: "++" :: "--" :: computingSigns).all fun sign => !sign.toList.isPrefixOf cs

theorem isSettled_stop (h : c ∈ stops) : isSettled (c :: cs) = true := by
  simp only [stops, List.mem_cons, List.not_mem_nil, or_false] at h
  rcases h with rfl | rfl | rfl | rfl | rfl <;>
    simp [isSettled, begins, computingSigns, List.isPrefixOf] <;> decide

theorem fails_assignSign (settled : isSettled cs = true) {sign : String}
    (mem : sign ∈ "=" :: "++" :: "--" :: computingSigns) : Fails (symbol sign) cs := by
  rw [isSettled, Bool.and_eq_true, List.all_eq_true] at settled
  exact fails_symbol (by simpa using settled.2 sign mem) settled.1

/-- Where no operator stands in front, what is read is an operand that may be assigned to. -/
theorem Opening.unary (opening : Opening (cs ++ after)) (opens : Opens cs)
    (h : ∀ d, depth ≤ d → ∀ flow, Reads (assignedOrPlain (reader d) flow) cs after Whole) :
    Unary (depth + 1) cs after := by
  intro d deep flow
  obtain ⟨d, rfl⟩ := Nat.exists_eq_add_one_of_ne_zero (show d ≠ 0 by omega)
  obtain ⟨word, starts, plain⟩ := opening.word
  refine Reads.skipMarks ?_ (opens.begins _) (opens.unmarked _)
  refine (keeps_peek (opens.begins _)).bind fun first hfirst => ?_
  have worded : Reads (do
      let w ← peekWord
      if unaryWords.contains w then prefixed (reader d) flow "unary_expression" (keyword w)
      else if w == "await" then
        node (other "await_expression") (keyword w *> one ((reader d).read (.unary flow)))
      else if w == "yield" then yieldExpression (reader d) flow
      else assignedOrPlain (reader d) flow) cs after Whole := by
    refine starts.keeps.bind fun w hw => ?_
    obtain rfl : w = word := hw
    simp only [prefixWords, List.mem_cons, List.not_mem_nil, or_false, not_or] at plain
    simpa [unaryWords, plain] using h d (by omega) flow
  obtain ⟨c, head⟩ := starts.exists_head
  have sign := opening.sign c head
  obtain rfl : first = some c := hfirst.trans head
  split
  case h_1 none => cases none
  case h_6 => exact worded
  all_goals
    rename_i same
    cases same
    exact absurd sign (by decide)

theorem Access.unary {rest : List Char} (h : Access depth cs (g ++ rest) Whole) (gap : IsGap g)
    (opening : Opening (cs ++ (g ++ rest))) (opens : Opens cs) (settled : isSettled rest = true) :
    Unary (depth + 1) cs (g ++ rest) := by
  refine opening.unary opens fun d deep flow => ?_
  have computing : ∀ signs ⊆ computingSigns,
      Fails (signs.foldr (fun sign p => symbol sign <|> p) failure) rest := by
    intro signs sub
    induction signs with
    | nil => exact fun _ _ => refuses_failure
    | cons sign signs ih =>
      obtain ⟨mem, sub⟩ := List.cons_subset.mp sub
      exact (fails_assignSign settled (by simp [mem])).orElse (ih sub)
  refine (keeps_next (opens.begins _)).bind fun start _ => (h d deep flow).bind_end fun t ht => ?_
  refine ((takes_pure ht).of_refused ?_).of_refused ?_
  · exact still_flow_goesOn.bind_refuses fun _ =>
      ((fails_assignSign settled (by simp)).orElse (fails_assignSign settled (by simp)) g gap).bind
  · refine still_guard.bind_refuses fun _ => Refuses.bind (Fails.orElse ?_ ?_ g gap)
    · exact ((fails_assignSign settled (by simp)).seqRight).seqRight
    · exact (computing _ (List.Subset.refl _)).seqRight

/-- A value is put where the operand says. -/
theorem Access.assign (h : Access depth cs (" = ".toList ++ (cs' ++ after)) Q)
    (target : ∀ t, Q t → Whole t ∧ isTarget t = true) (opens : Opens cs)
    (opening : Opening (cs ++ (" = ".toList ++ (cs' ++ after)))) (right : Expression depth cs')
    (follows : Follows stops after) : Unary (depth + 1) (cs ++ (" = ".toList ++ cs')) after := by
  have opens' : Opens (cs ++ (" = ".toList ++ cs')) := opens.append _
  refine Opening.unary (by simpa only [List.append_assoc] using opening) opens' fun d deep flow => ?_
  refine Keeps.bind (keeps_next (opens'.begins _)) fun start _ => ?_
  refine Reads.bind (by rw [List.append_assoc]; exact h d deep flow) fun t ht => Takes.orElse ?_
  obtain ⟨whole, isTarget⟩ := target t ht
  refine (takes_guard isTarget).bind_here fun _ _ => ?_
  have sign : Takes (assignSign *> pure "assignment_expression") " =".toList (' ' :: (cs' ++ after))
      fun _ => True := by
    have single : Takes assignSign " =".toList (' ' :: (cs' ++ after)) fun _ => True :=
      Takes.bind_end (f := fun _ => notFollowedBy ['=', '>']) (reads_symbol "=" rfl [' '] isGap_blank)
        fun _ _ => takes_notFollowedBy fun c hc => Option.some.inj hc ▸ by decide
    exact single.bind_end (f := fun _ => pure _) fun _ _ => takes_pure trivial
  refine @Takes.bind _ _ _ _ " =".toList (' ' :: cs') _ _ _ sign.orElse fun kind _ => ?_
  refine ((right.reads d deep flow after follows).field _ [' '] isGap_blank).bind_end fun t' ht' => ?_
  have sort : other kind ≠ .fault := nofun
  exact (takes_close sort start (.cons (whole_inField whole _) (allWhole_singleton ht'))).mono
    fun _ => And.left

/-- What is waited for. -/
theorem Unary.await (h : Unary depth cs after) (gap : IsGap g)
    (ends : endsName (g ++ (cs ++ after)) = true) :
    Unary (depth + 1) ("await".toList ++ (g ++ cs)) after := by
  intro d deep flow
  obtain ⟨d, rfl⟩ := Nat.exists_eq_add_one_of_ne_zero (show d ≠ 0 by omega)
  have name : isName "await".toList = true := by decide
  have text_eq : "await".toList ++ (g ++ cs) ++ after = "await".toList ++ (g ++ (cs ++ after)) := by
    simp only [List.append_assoc]
  have hb : begins ("await".toList ++ (g ++ cs) ++ after) = true := by
    rw [text_eq]
    exact begins_of_isName name
  have waits : Reads (node (other "await_expression")
      (keyword "await" *> one ((reader d).read (.unary flow)))) ("await".toList ++ (g ++ cs)) after
        Whole := by
    refine (Takes.node (by decide) (Reads.here ?_) hb).mono fun _ => And.left
    exact Reads.bind (reads_keyword "await" name (by rwa [List.append_assoc])) fun _ _ =>
      (h d (by omega) flow g gap).one
  refine Reads.skipMarks ?_ hb (by rw [text_eq]; simp [isUnmarked, List.isPrefixOf])
  refine (keeps_peek hb).bind fun first hfirst => ?_
  obtain rfl : first = some 'a' := hfirst
  refine Keeps.bind (by rw [text_eq]; exact keeps_peekWord name ends) fun w hw => ?_
  obtain rfl : w = "await" := by rw [hw]; rfl
  exact waits

/-! ## Operators between operands -/

theorem noStop_operator {level : Nat} : First (operator level) isNoStop := by
  intro c cs hc hb
  have stop : c ∈ stops := by
    rw [isNoStop, Bool.not_eq_false'] at hc
    exact List.contains_iff_mem.mp hc
  refine (keeps_next hb).fails fun s hs => ?_
  have none : operators.find? (fun o => s.startsWith o.1.toList) = none := by
    simp only [stops, List.mem_cons, List.not_mem_nil, or_false] at stop
    simp only [hs.startsWith_eq]
    rcases stop with rfl | rfl | rfl | rfl | rfl <;> simp [operators, List.isPrefixOf]
  rw [none]
  exact first_word.bind.noStop (by decide) c cs hc hb

theorem refuses_operations {level : Nat} {start : Input} {t : Tree} (follows : Follows stops after)
    (whole : Whole t) :
    ∀ n, Takes (moreOperations (reader depth) flow level start n t) [] after Whole
  | 0 => takes_pure whole
  | n + 1 => by
    have casts : First (casting (reader depth) flow start t) isNoStop :=
      first_word.bind.noStop (by decide)
    refine (takes_pure whole).of_refused (still_flow_goesOn.bind_refuses fun _ => Refuses.bind ?_)
    exact (casts.orElse noStop_operator.bind).refuses (by decide) follows

theorem Unary.operation {level : Nat} (h : Unary depth cs after) (hb : begins (cs ++ after) = true)
    (follows : Follows stops after) : Operation (depth + 1) level cs after := by
  intro d deep flow
  obtain ⟨d, rfl⟩ := Nat.exists_eq_add_one_of_ne_zero (show d ≠ 0 by omega)
  refine (keeps_next hb).bind fun start _ => (h d (by omega) flow).bind_end fun t ht => ?_
  exact refuses_operations follows ht _

/-- An operation goes on behind its first operand, once. -/
theorem Unary.goesOn {more : List Char} {level : Nat} (h : Unary depth cs (more ++ after))
    (nonempty : more ≠ []) (hb : begins (cs ++ (more ++ after)) = true) (follows : Follows stops after)
    (goes : ∀ flow : Flow, Takes flow.goesOn [] (more ++ after) fun _ => True)
    (grows : ∀ d, depth ≤ d → ∀ flow start t, Whole t →
      Takes (casting (reader d) flow start t <|> do
        let l ← operator level
        let right ← (reader d).read (.operation flow (l + 1))
        close (other "binary_expression") start [t.inField .left, right.inField (.other "right")])
      more after Whole) :
    Operation (depth + 1) level (cs ++ more) after := by
  intro d deep flow
  obtain ⟨d, rfl⟩ := Nat.exists_eq_add_one_of_ne_zero (show d ≠ 0 by omega)
  refine Keeps.bind (by rw [List.append_assoc]; exact keeps_next hb) fun start hstart => ?_
  refine Reads.bind (h d (by omega) flow) fun t ht => ?_
  have enough : start.left ≠ 0 := by
    rw [hstart.left_eq]
    simp [nonempty]
  obtain ⟨n, left⟩ := Nat.exists_eq_add_one_of_ne_zero enough
  rw [left]
  refine ((goes flow).bind_here fun _ _ => ?_).orElse
  exact (grows d (by omega) flow start t ht).bind_end fun t' ht' => refuses_operations follows ht' n

/-- The text of a type. -/
def Typing (depth : Nat) (cs after : List Char) : Prop :=
  ∀ d, depth ≤ d → ∀ flow, Reads (parse .markup d (.type flow)) cs after Whole

/-- What is taken for a value of a type. -/
theorem Unary.cast {g' type : List Char} {level : Nat}
    (h : Unary depth cs (g ++ ("as".toList ++ (g' ++ (type ++ after)))))
    (blanks : ∀ d ∈ g, d = ' ') (gap : IsGap g') (typing : Typing depth type after)
    (ends : endsName (g' ++ (type ++ after)) = true)
    (hb : begins (cs ++ (g ++ ("as".toList ++ (g' ++ (type ++ after))))) = true)
    (follows : Follows stops after) :
    Operation (depth + 1) level (cs ++ (g ++ ("as".toList ++ (g' ++ type)))) after := by
  have name : isName "as".toList = true := by decide
  have castGap : IsGap g := .of_blanks fun c hc => by rw [blanks c hc]; decide
  have text_eq : g ++ ("as".toList ++ (g' ++ type)) ++ after =
      g ++ ("as".toList ++ (g' ++ (type ++ after))) := by simp
  refine Unary.goesOn (by rwa [text_eq]) (by simp) (by rwa [text_eq]) follows (fun flow => ?_) ?_
  · rw [text_eq]
    exact takes_flow_goesOn blanks (by decide) rfl
  · intro d deep flow start t ht
    have casts : Takes (casting (reader d) flow start t) (g ++ "as".toList ++ (g' ++ type)) after
        Whole := by
      refine Takes.bind (reads_word name (by rwa [List.append_assoc]) g castGap) fun w hw => ?_
      obtain rfl : w = "as" := by rw [hw]; rfl
      refine (takes_guard rfl).bind_here fun _ _ => (typing d deep _ g' gap).bind_end fun t' ht' => ?_
      exact (takes_close (by decide) start (.cons ht (allWhole_singleton ht'))).mono fun _ => And.left
    rw [List.append_assoc] at casts
    exact casts.orElse

theorem reads_operator_minus : Reads (operator 0) ['-'] (' ' :: cs) (· = 10) := by
  refine Keeps.bind (keeps_next rfl) fun s hs => ?_
  have found : operators.find? (fun o => s.startsWith o.1.toList) = some ("-", 10) := by
    simp only [hs.startsWith_eq]
    simp [operators, List.isPrefixOf]
  rw [found]
  have binds : Keeps (guard (0 ≤ 10)) ('-' :: ' ' :: cs) fun _ => True := fun _ _ _ _ => ⟨(), rfl, trivial⟩
  have taken : Reads (guard (0 ≤ 10) *> symbol "-") ['-'] (' ' :: cs) fun _ => True :=
    Keeps.bind (f := fun _ => symbol "-") binds fun _ _ => reads_symbol "-" rfl
  exact taken.bind_end (f := fun _ => pure 10) fun _ _ => takes_pure rfl

/-- A difference. -/
theorem Unary.minus (h : Unary depth cs (" - ".toList ++ (cs' ++ after)))
    (right : Operation depth 11 cs' after) (hb : begins (cs ++ (" - ".toList ++ (cs' ++ after))) = true)
    (follows : Follows stops after) : Operation (depth + 1) 0 (cs ++ (" - ".toList ++ cs')) after := by
  refine Unary.goesOn (by rwa [List.append_assoc]) (by simp) (by rwa [List.append_assoc]) follows
    (fun flow => ?_) ?_
  · exact takes_flow_goesOn (g := [' ']) (by decide) (by decide) rfl
  · intro d deep flow start t ht
    have noCast : Fails (casting (reader d) flow start t) ('-' :: ' ' :: (cs' ++ after)) :=
      first_word.bind '-' _ (by decide) rfl
    refine Takes.of_refused ?_ (noCast [' '] isGap_blank)
    refine @Takes.bind _ _ _ _ " -".toList (' ' :: cs') _ _ _ (reads_operator_minus [' '] isGap_blank) fun l hl => ?_
    obtain rfl : l = 10 := hl
    refine (right d deep flow [' '] isGap_blank).bind_end fun t' ht' => ?_
    exact (takes_close (by decide) start (.cons (whole_inField ht _)
      (allWhole_singleton (whole_inField ht' _)))).mono fun _ => And.left

/-! ## Expressions -/

theorem noStop_expression : First (parse .markup depth (.expression flow)) isNoStop := by
  cases depth with
  | zero => exact first_failure
  | succ depth =>
    intro c cs hc hb
    have unmarked : isUnmarked (c :: cs) = true := by
      have stop : c ∈ stops := by
        rw [isNoStop, Bool.not_eq_false'] at hc
        exact List.contains_iff_mem.mp hc
      simp only [stops, List.mem_cons, List.not_mem_nil, or_false] at stop
      rcases stop with rfl | rfl | rfl | rfl | rfl <;> simp [isUnmarked, List.isPrefixOf]
    exact Fails.skipMarks (First.still still_next (fun _ => noStop_operation.bind) c cs hc hb) hb unmarked

theorem first_choiceSign : First choiceSign (· == '?') := (first_symbolNot rfl).bind

theorem Operation.expression (h : ∀ after, Follows stops after → Operation depth 0 cs after)
    (opens : Opens cs) : Expression (depth + 1) cs := by
  refine ⟨opens, fun d deep flow after follows => ?_⟩
  obtain ⟨d, rfl⟩ := Nat.exists_eq_add_one_of_ne_zero (show d ≠ 0 by omega)
  refine Reads.skipMarks ?_ (opens.begins after) (opens.unmarked after)
  refine (keeps_next (opens.begins after)).bind fun start _ => (h after follows d (by omega) flow).bind_end ?_
  intro t ht
  have choice : ∀ bare, Refuses (expression.read.choice (reader d) flow start t bare) after := fun bare =>
    still_guard.bind_refuses fun _ => Refuses.bind (first_choiceSign.refuses (by decide) follows)
  exact (takes_pure ht).of_refused (choice true) |>.of_refused (choice false)

theorem Unary.expression (h : ∀ after, Follows stops after → Unary depth cs after) (opens : Opens cs) :
    Expression (depth + 2) cs :=
  Operation.expression (fun after follows => (h after follows).operation (opens.begins after) follows)
    opens

theorem Access.assignment (h : ∀ after, Access depth cs (" = ".toList ++ (cs' ++ after)) Q)
    (target : ∀ t, Q t → Whole t ∧ isTarget t = true) (opens : Opens cs)
    (opening : ∀ after, Opening (cs ++ (" = ".toList ++ (cs' ++ after)))) (right : Expression depth cs') :
    Expression (depth + 3) (cs ++ (" = ".toList ++ cs')) :=
  Unary.expression (fun after follows => (h after).assign target opens (opening after) right follows)
    (opens.append _)

theorem Access.expression (h : ∀ after, Follows stops after → Access depth cs after Whole)
    (opening : ∀ after, Follows stops after → Opening (cs ++ after)) (opens : Opens cs) :
    Expression (depth + 3) cs := by
  refine Unary.expression (fun after follows => ?_) opens
  obtain ⟨g, c, rest, gap, mem, hb, rfl⟩ := follows
  have follows : Follows stops (g ++ c :: rest) := ⟨g, c, rest, gap, mem, hb, rfl⟩
  exact (h _ follows).unary gap (opening _ follows) opens (isSettled_stop mem)

/-- An operand that is waited for. -/
theorem Access.await (h : ∀ after, Follows stops after → Access depth cs after Whole)
    (opening : ∀ after, Follows stops after → Opening (cs ++ after)) (opens : Opens cs) :
    Expression (depth + 4) ("await".toList ++ ([' '] ++ cs)) := by
  refine Unary.expression (fun after follows => ?_) (opens_cons (by decide) (by decide))
  refine Unary.await ?_ (.of_blanks (by decide)) rfl
  obtain ⟨g, c, rest, gap, mem, hb, rfl⟩ := follows
  have follows : Follows stops (g ++ c :: rest) := ⟨g, c, rest, gap, mem, hb, rfl⟩
  exact (h _ follows).unary gap (opening _ follows) opens (isSettled_stop mem)

/-- An operand of which nothing is asked. -/
theorem Operand.alone {ds : List Char} (h : Operand depth cs after Q) (follows : Follows ds after)
    (quiet : ∀ c ∈ ds, accessSigns.contains c = false) (hb : begins (cs ++ after) = true) :
    Access (depth + 1) cs after Q := by
  have access : Access (depth + 1) (cs ++ []) after Q := h.access (.nil follows quiet) hb
  rwa [List.append_nil] at access

theorem Operand.unary (h : Operand depth cs after Whole) (follows : Follows stops after)
    (opening : Opening (cs ++ after)) (opens : Opens cs) : Unary (depth + 2) cs after := by
  have access := h.alone follows (by decide) (opens.begins after)
  obtain ⟨g, c, rest, gap, mem, hb, rfl⟩ := follows
  exact access.unary gap opening opens (isSettled_stop mem)

theorem Operand.expression (h : ∀ after, Follows stops after → Operand depth cs after Whole)
    (opening : ∀ after, Follows stops after → Opening (cs ++ after)) (opens : Opens cs) :
    Expression (depth + 4) cs :=
  Unary.expression (fun after follows => (h after follows).unary follows (opening after follows) opens) opens

end SuiteDraft.Grammar
