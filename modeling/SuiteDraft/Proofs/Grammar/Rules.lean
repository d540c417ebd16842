import SuiteDraft.Grammar.Program
import SuiteDraft.Proofs.Grammar.Words

/-!
# What the rules begin with

A rule that refers to others is read so many rules deep. Whatever the depth, what it takes begins with
certain characters only; so a rule is ruled out by the first character of a word, and an expression
ends before a bracket that closes, a comma or a semicolon.
-/

namespace SuiteDraft.Grammar

open Input (Spells)
open SuiteDraft.Grammar.Parser

variable {α β : Type} {p : Parser α} {ok : Char → Bool} {g cs after : List Char} {c : Char}

/-- The rules as they are read so deep. -/
def reader (depth : Nat) : Reader := ⟨.markup, parse .markup depth⟩

/-- The next word begins with one of these characters. -/
def Follows (ds after : List Char) : Prop :=
  ∃ g c cs, IsGap g ∧ c ∈ ds ∧ begins (c :: cs) = true ∧ after = g ++ c :: cs

theorem Follows.mono {ds ds' : List Char} (h : Follows ds after) (sub : ds ⊆ ds') :
    Follows ds' after := by
  obtain ⟨g, c, cs, gap, mem, hb, rfl⟩ := h
  exact ⟨g, c, cs, gap, sub mem, hb, rfl⟩

theorem Parser.First.refuses {ds : List Char} (h : First p ok) (others : ∀ c ∈ ds, ok c = false)
    (follows : Follows ds after) : Refuses p after := by
  obtain ⟨g, c, cs, gap, mem, hb, rfl⟩ := follows
  exact h c cs (others c mem) hb g gap

/-- The marks before which an expression ends. -/
def stops : List Char := [')', ']', '\x7d', ',', ';']

theorem follows_stop (gap : IsGap g) (h : c ∈ stops) : Follows stops (g ++ c :: cs) := by
  refine ⟨g, c, cs, gap, h, ?_, rfl⟩
  simp only [stops, List.mem_cons, List.not_mem_nil, or_false] at h
  rcases h with rfl | rfl | rfl | rfl | rfl <;> rfl

/-- What is true of the marks themselves and of whatever may stand in a gap is true of the character
that comes next. -/
theorem Follows.head {ds : List Char} {ok : Char → Bool} (h : Follows ds after)
    (marks : ∀ c ∈ ds, ok c = true) (blanks : ∀ c, isGapBlank c = true → ok c = true)
    (comment : ok '/' = true) : ∀ c ∈ after.head?, ok c = true := by
  obtain ⟨g, c, cs, gap, mem, -, rfl⟩ := h
  intro d hd
  cases gap with
  | nil => exact Option.some.inj hd ▸ marks c mem
  | @blank b _ blank _ => exact Option.some.inj hd ▸ blanks b blank
  | comment _ _ => exact Option.some.inj hd ▸ comment

theorem Follows.endsName {ds : List Char} (h : Follows ds after)
    (marks : ∀ c ∈ ds, (isNameBreak c && c != '\\') = true) : endsName after = true := by
  have head := h.head marks (fun c blank => ?_) (by decide)
  · cases after with
    | nil => rfl
    | cons c after => exact head c rfl
  · have other : c ≠ '\\' := by
      rintro rfl
      exact absurd blank (by decide)
    simp [isNameBreak, blank, other]

def isNoStop (c : Char) : Bool := !stops.contains c

theorem Parser.First.noStop (h : First p ok) (others : ∀ c ∈ stops, ok c = false) :
    First p isNoStop := by
  refine h.mono fun c hc => ?_
  rw [isNoStop, Bool.not_eq_true', ← Bool.not_eq_true]
  intro mem
  rw [others c (List.contains_iff_mem.mp mem)] at hc
  cases hc

theorem isNoStop_eq_false (h : c ∈ stops) : isNoStop c = false := by
  rw [isNoStop, List.contains_iff_mem.mpr h]
  rfl

/-! ## Brackets and what stands in them -/

variable {r : Reader} {flow : Flow} {depth : Nat}

theorem Parser.Takes.commaList_single {p : Parser (List Tree)} {cs after : List Char} {P : List Tree → Prop}
    (h : Takes p cs after P) (noComma : Refuses (symbol ",") after) : Takes (commaList p) cs after P := by
  refine (h.sepBy1_single noComma).bind_end fun items hitems => ?_
  obtain ⟨ts, hts, rfl⟩ := hitems
  refine noComma.optional.bind_here fun _ _ => takes_pure ?_
  rwa [List.flatten_singleton]

theorem first_spread : First (spread r) (· == '.') := ((first_symbol rfl).seqRight).node

theorem first_typeArguments : First (typeArguments r) (· == '<') := ((first_symbol rfl).within).node

theorem first_typeParameters : First (typeParameters r) (· == '<') :=
  (((first_symbol rfl).within).node).field _

theorem first_typeAfterColon {flow : TypeFlow} : First (typeAfterColon r flow) (· == ':') :=
  (((first_symbol rfl).seqRight).node).field _

theorem first_block : First (parse .markup depth .block) (· == '\x7b') := by
  cases depth with
  | zero => exact first_failure
  | succ depth => exact ((first_symbol rfl).within).node

theorem first_parameters : First (parse .markup depth .parameters) (· == '(') := by
  cases depth with
  | zero => exact first_failure
  | succ depth => exact ((first_symbol rfl).within).node

theorem first_objectType : First (parse .markup depth .objectType) (· == '\x7b') := by
  cases depth with
  | zero => exact first_failure
  | succ depth => exact ((first_symbol rfl).within).node

theorem first_signature {flow : TypeFlow} :
    First (signature (reader depth) flow) fun c => c == '<' || c == '(' :=
  First.keeps (fun c cs hc hb => (first_typeParameters.one c cs hc hb).orNone)
    fun _ _ => (first_parameters.field _).bind

theorem first_propertyNode : First propertyNode fun c => c == '#' || isNameStart c := by
  refine First.orElse (fun c cs hc hb => fails_leaf (fun s hs => ?_) hb) first_nameNode
  obtain _ | ⟨char, -, -, -⟩ := hs
  simp [Scan.andThen, exactly, Input.startsWith, char, hc]

theorem first_stringIn {quote : Char} : First (stringIn quote) (· == quote) := by
  have mark : (String.ofList [quote]).toList = quote :: [] := String.toList_ofList
  exact (First.bind (first_symbol mark)).node

theorem first_stringLiteral : First stringLiteral fun c => c == '"' || c == '\'' :=
  first_stringIn.orElse first_stringIn

theorem first_objectPattern : First (objectPattern r) (· == '\x7b') := ((first_symbol rfl).within).node

theorem first_arrayPattern : First (arrayPattern r) (· == '[') := ((first_symbol rfl).within).node

theorem first_destructuring : First (destructuring r) fun c => c == '\x7b' || c == '[' :=
  first_objectPattern.orElse first_arrayPattern

theorem first_restPattern {p : Parser Tree} : First (restPattern p) (· == '.') :=
  ((first_symbol rfl).seqRight).node

theorem first_operandName : First operandName isNameStart := First.still still_next fun _ => first_word.bind

/-! ## Operands and what is made of them -/

theorem first_asyncMark : First (asyncMark flow) isNameStart := first_keyword.bind

theorem first_arrowHead : First (arrowHead (reader depth) flow) fun c =>
    isNameStart c || (c == '<' || c == '(') := by
  refine ((first_nameNode.field _).one).orElse ?_
  split
  · exact First.keeps (fun c cs hc hb => (first_typeParameters.one c cs hc hb).orNone)
      fun _ _ => (first_parameters.field _).bind
  · exact first_signature

theorem first_arrowFunction : First (arrowFunction (reader depth) flow) fun c =>
    isNameStart c || (c == '<' || c == '(') := by
  refine First.node (First.bind (First.mono ((first_asyncMark.seqRight.seqLeft).orElse
    first_arrowHead.seqLeft) fun c hc => ?_))
  simp only [Bool.or_eq_true] at hc ⊢
  tauto

theorem noStop_nameOrArrow : First (nameOrArrow (reader depth) flow) isNoStop := by
  have named : First (do
      guard (!operandWords.contains (← peekWord))
      arrowFunction (reader depth) flow) fun c => isNameStart c || (c == '<' || c == '(') :=
    First.still still_peekWord fun _ => First.still still_guard fun _ => first_arrowFunction
  exact (named.orElse first_operandName).noStop (by decide +kernel)

theorem noStop_operand : First (operand (reader depth) flow) isNoStop := by
  intro c cs hc hb
  have stop : c ∈ stops := by
    rw [isNoStop, Bool.not_eq_false'] at hc
    exact List.contains_iff_mem.mp hc
  refine (keeps_peek hb).fails fun first hfirst => ?_
  obtain rfl : first = some c := hfirst
  have noWord : Fails (do wordOperand (reader depth) flow (← peekWord)) (c :: cs) := by
    have start : ∀ d ∈ stops, isNameStart d = false := by decide +kernel
    refine (keeps_peekWord_none (start c stop) hb).fails fun w hw => ?_
    obtain rfl : w = "" := hw
    exact noStop_nameOrArrow c cs hc hb
  simp only [stops, List.mem_cons, List.not_mem_nil, or_false] at stop
  rcases stop with rfl | rfl | rfl | rfl | rfl <;> exact noWord

theorem noStop_access {calls : Bool} : First (access.read (reader depth) flow calls) isNoStop :=
  First.still still_next fun _ => noStop_operand.bind

theorem noStop_assignedOrPlain : First (assignedOrPlain (reader depth) flow) isNoStop := by
  refine First.still still_next fun _ => First.bind ?_
  cases depth with
  | zero => exact first_failure
  | succ depth => exact noStop_access

theorem noStop_unary : First (parse .markup depth (.unary flow)) isNoStop := by
  cases depth with
  | zero => exact first_failure
  | succ depth =>
    intro c cs hc hb
    have stop : c ∈ stops := by
      rw [isNoStop, Bool.not_eq_false'] at hc
      exact List.contains_iff_mem.mp hc
    have plain : Fails (do
        let w ← peekWord
        if unaryWords.contains w then prefixed (reader depth) flow "unary_expression" (keyword w)
        else if w == "await" then
          node (other "await_expression") (keyword w *> one ((reader depth).read (.unary flow)))
        else if w == "yield" then yieldExpression (reader depth) flow
        else assignedOrPlain (reader depth) flow) (c :: cs) := by
      have start : ∀ d ∈ stops, isNameStart d = false := by decide +kernel
      refine (keeps_peekWord_none (start c stop) hb).fails fun w hw => ?_
      obtain rfl : w = "" := hw
      exact noStop_assignedOrPlain c cs hc hb
    have unmarked : isUnmarked (c :: cs) = true := by
      simp only [stops, List.mem_cons, List.not_mem_nil, or_false] at stop
      rcases stop with rfl | rfl | rfl | rfl | rfl <;> simp [isUnmarked, List.isPrefixOf]
    refine Fails.skipMarks ((keeps_peek hb).fails fun first hfirst => ?_) hb unmarked
    obtain rfl : first = some c := hfirst
    simp only [stops, List.mem_cons, List.not_mem_nil, or_false] at stop
    rcases stop with rfl | rfl | rfl | rfl | rfl <;> exact plain

theorem noStop_operation {level : Nat} : First (parse .markup depth (.operation flow level)) isNoStop := by
  cases depth with
  | zero => exact first_failure
  | succ depth => exact First.still still_next fun _ => noStop_unary.bind

end SuiteDraft.Grammar
