import SuiteDraft.Grammar.Rule
import SuiteDraft.Proofs.Grammar.Takes

/-!
# Words and the gaps before them

Every word is read after the gap before it. So what a parser takes is said of the text from its first
word on, for whatever gap stands before that; and what it refuses, of the first character of a word.
-/

namespace SuiteDraft.Grammar

open Input (Spells)

variable {s : Input} {g w cs after : List Char} {c : Char}

/-! ## Gaps -/

/-- Blanks and comments up to the end of a line. -/
inductive IsGap : List Char → Prop
  | nil : IsGap []
  | blank {c : Char} {g : List Char} (blank : isGapBlank c = true) (rest : IsGap g) : IsGap (c :: g)
  | comment {text g : List Char} (plain : ∀ c ∈ text, endsLine c = false) (rest : IsGap g) :
      IsGap ('/' :: '/' :: (text ++ '\n' :: g))

/-- A text begins with a word, if anything, and not with a gap. -/
def begins : List Char → Bool
  | [] => true
  | c :: cs => !isGapBlank c && !(c == '/' && cs.head?.any fun d => d == '/' || d == '*')

theorem IsGap.of_blanks (blanks : ∀ c ∈ g, isGapBlank c = true) : IsGap g := by
  induction g with
  | nil => exact .nil
  | cons c g ih =>
    exact .blank (blanks c List.mem_cons_self) (ih fun d hd => blanks d (List.mem_cons_of_mem _ hd))

theorem isGap_blank : IsGap [' '] := .of_blanks (by decide)

theorem IsGap.append (gap : IsGap g) (gap' : IsGap w) : IsGap (g ++ w) := by
  induction gap with
  | nil => exact gap'
  | blank blank _ ih => exact .blank blank ih
  | comment plain _ ih =>
    rw [List.cons_append, List.cons_append, List.append_assoc]
    exact .comment plain ih

theorem gapFrom_line {text : List Char} (plain : ∀ c ∈ text, endsLine c = false) (breaks clear : Bool)
    (hs : Spells s (text ++ '\n' :: cs)) :
    gapFrom .line breaks clear s = gapFrom .blank true true (s.drop (text.length + 1)) := by
  induction text generalizing s with
  | nil =>
    obtain _ | ⟨char, -, -, -⟩ := hs
    simp [gapFrom, char, endsLine]
  | cons c text ih =>
    obtain _ | ⟨char, -, -, rest⟩ := hs
    have goesOn : endsLine c = false := plain c List.mem_cons_self
    simp only [gapFrom, char, goesOn]
    exact ih (fun d hd => plain d (List.mem_cons_of_mem _ hd)) rest

theorem gapFrom_blank (h : begins cs = true) (breaks clear : Bool) (hs : Spells s cs) :
    gapFrom .blank breaks clear s = ⟨breaks, s⟩ := by
  obtain _ | ⟨char, -, -, rest⟩ := hs
  · rfl
  · simp only [begins, Bool.and_eq_true, Bool.not_eq_true'] at h
    obtain ⟨notBlank, notComment⟩ := h
    simp only [gapFrom, char, notBlank]
    split
    · contradiction
    · split
      next slash =>
        obtain _ | ⟨char', -, -, -⟩ := rest
        · rfl
        · simp only [slash, Bool.true_and, List.head?_cons, Option.any_some, Bool.or_eq_false_iff]
            at notComment
          simp [gapFrom, char', notComment.1, notComment.2]
      next => rfl

theorem rest_gapFrom (gap : IsGap g) (h : begins cs = true) (breaks clear : Bool)
    (hs : Spells s (g ++ cs)) : (gapFrom .blank breaks clear s).rest = s.drop g.length := by
  induction gap generalizing s breaks clear with
  | nil => rw [gapFrom_blank h breaks clear hs]; rfl
  | blank blank _ ih =>
    obtain _ | ⟨char, -, -, rest⟩ := hs
    simp only [gapFrom, char, blank]
    exact ih _ _ rest
  | @comment text g plain _ ih =>
    obtain _ | ⟨slash, -, -, _ | @⟨_, line, _, _, slash', -, -, rest⟩⟩ := hs
    replace rest : Spells line (text ++ '\n' :: (g ++ cs)) := by simpa using rest
    have start : isGapBlank '/' = false := by decide
    simp only [gapFrom, slash, slash', start]
    have further := ih true true (by simpa using rest.drop (text.length + 1))
    have length_eq : ('/' :: '/' :: (text ++ '\n' :: g)).length = text.length + 1 + g.length + 2 := by
      simp only [List.length_cons, List.length_append]
      omega
    rw [List.drop_drop] at further
    simp only [beq_self_eq_true, if_true, Bool.false_eq_true, if_false,
      gapFrom_line plain breaks clear rest, length_eq, List.drop_succ_cons]
    exact further

theorem afterGap_drop (gap : IsGap g) (h : begins cs = true) (hs : Spells s (g ++ cs)) :
    afterGap s = s.drop g.length := rest_gapFrom gap h _ _ hs

theorem spells_afterGap (gap : IsGap g) (h : begins cs = true) (hs : Spells s (g ++ cs)) :
    Spells (afterGap s) cs := by
  rw [afterGap_drop gap h hs]
  simpa using hs.drop g.length

/-! ## Names -/

/-- A name without escapes. -/
def isName : List Char → Bool
  | [] => false
  | c :: cs => !c.isDigit && (c :: cs).all (!isNameBreak ·)

/-- A name that stands before this text ends there. -/
def endsName : List Char → Bool
  | [] => true
  | c :: _ => isNameBreak c && c != '\\'

def isNameStart (c : Char) : Bool := (!isNameBreak c && !c.isDigit) || c == '\\'

theorem nameEscape_eq_none (h : c ≠ '\\') (hs : Spells s (c :: cs)) : nameEscape s = none := by
  obtain _ | ⟨char, -, -, rest⟩ := hs
  have other : (c == '\\') = false := beq_false_of_ne h
  simp [nameEscape, Scan.andThen, exactly, Input.startsWith, char, other]

theorem nameChar_none {first : Bool} (h : isNameBreak c = true ∨ first = true ∧ c.isDigit = true)
    (escape : c ≠ '\\') (hs : Spells s (c :: cs)) : nameChar first s = none := by
  have noEscape := nameEscape_eq_none escape hs
  obtain _ | ⟨char, -, -, rest⟩ := hs
  obtain h | ⟨rfl, digit⟩ := h
  · simp [nameChar, char, h, noEscape]
  · simp [nameChar, char, digit, noEscape]

theorem nameChar_some {first : Bool} (h : isNameBreak c = false)
    (digit : first = true → c.isDigit = false) (hs : Spells s (c :: cs)) :
    nameChar first s = some (s.drop 1) := by
  obtain _ | ⟨char, sound, -, rest⟩ := hs
  cases first with
  | false => simp [nameChar, char, sound, h]
  | true => simp [nameChar, char, sound, h, digit rfl]

theorem nameRest_eq (part : w.all (!isNameBreak ·) = true) (ends : endsName after = true) :
    ∀ {n : Nat} {s : Input}, w.length ≤ n → Spells s (w ++ after) → nameRest n s = s.drop w.length := by
  induction w with
  | nil =>
    intro n s _ hs
    cases n with
    | zero => rfl
    | succ n =>
      have stops : nameChar false s = none := by
        obtain _ | _ := hs
        · rfl
        next hs =>
          simp only [endsName, Bool.and_eq_true, bne_iff_ne] at ends
          exact nameChar_none (.inl ends.1) ends.2 (.cons ‹_› ‹_› ‹_› hs)
      rw [nameRest, stops]
      rfl
  | cons c w ih =>
    intro n s enough hs
    obtain ⟨n, rfl⟩ : ∃ m, n = m + 1 := Nat.exists_eq_add_one_of_ne_zero (by simp at enough; omega)
    simp only [List.all_cons, Bool.and_eq_true, Bool.not_eq_true'] at part
    have rest : Spells (s.drop 1) (w ++ after) := hs.drop 1
    have first : nameChar false s = some (s.drop 1) := nameChar_some part.1 nofun hs
    simp only [nameRest, first]
    rw [ih (by simpa using part.2) (by simpa using enough) rest, List.drop_drop, List.length_cons,
      Nat.add_comm]

theorem part_of_isName (name : isName w = true) : ∀ c ∈ w, isNameBreak c = false := by
  cases w with
  | nil => cases name
  | cons c w =>
    rw [isName, Bool.and_eq_true, List.all_eq_true] at name
    exact fun d mem => by simpa using name.2 d mem

theorem head_of_isName (name : isName w = true) :
    ∃ c cs, w = c :: cs ∧ isNameBreak c = false ∧ c.isDigit = false := by
  have parts := part_of_isName name
  cases w with
  | nil => cases name
  | cons c w =>
    rw [isName, Bool.and_eq_true, Bool.not_eq_true'] at name
    exact ⟨c, w, rfl, parts c List.mem_cons_self, name.1⟩

theorem name_some (h : isName w = true) (ends : endsName after = true) (hs : Spells s (w ++ after)) :
    name s = some (s.drop w.length) := by
  cases w with
  | nil => cases h
  | cons c w =>
    simp only [isName, List.all_cons, Bool.and_eq_true, Bool.not_eq_true'] at h
    have rest : Spells (s.drop 1) (w ++ after) := hs.drop 1
    have enough : w.length ≤ s.left := by rw [hs.left_eq]; simp; omega
    rw [name, nameChar_some h.2.1 (fun _ => h.1) hs, Option.map_some,
      nameRest_eq (by simpa using h.2.2) ends enough rest, List.drop_drop, List.length_cons,
      Nat.add_comm]

theorem name_none (h : isNameStart c = false) (hs : Spells s (c :: cs)) : name s = none := by
  simp only [isNameStart, Bool.or_eq_false_iff, Bool.and_eq_false_iff, Bool.not_eq_false',
    beq_eq_false_iff_ne] at h
  rw [name, nameChar_none (h.1.imp_right fun digit => ⟨rfl, digit⟩) h.2 hs]
  rfl

theorem isGapBlank_eq_false (h : isNameBreak c = false) : isGapBlank c = false := by
  simp only [isNameBreak, Bool.or_eq_false_iff] at h
  exact h.1.2

/-- The characters of plain words, and those of them that may come first. -/
def isWordStart (c : Char) : Bool := c.isAlpha || c == '_' || c == '$'

def isWordPart (c : Char) : Bool := isWordStart c || c.isDigit

/-- A plain word, which is a name. -/
def isWord : List Char → Bool
  | [] => false
  | c :: cs => isWordStart c && cs.all isWordPart

/-- No blank stands among the printable characters of ASCII. -/
theorem toNat_blank (blank : isGapBlank c = true) : c.toNat ≤ 32 ∨ 160 ≤ c.toNat := by
  simp only [isGapBlank, isPlainBlank, Bool.or_eq_true, Bool.and_eq_true, decide_eq_true_eq,
    beq_iff_eq] at blank
  omega

/-- The letters by their numbers. -/
theorem isAlpha_iff : c.isAlpha = true ↔ 65 ≤ c.toNat ∧ c.toNat ≤ 90 ∨ 97 ≤ c.toNat ∧ c.toNat ≤ 122 := by
  have letters : c.isAlpha = (decide ('A'.val ≤ c.val ∧ c.val ≤ 'Z'.val) ||
      (decide ('a'.val ≤ c.val) && decide (c.val ≤ 'z'.val))) := rfl
  rw [letters]
  simp only [Bool.or_eq_true, Bool.and_eq_true, decide_eq_true_eq, UInt32.le_iff_toNat_le]
  exact Iff.rfl

theorem toNat_part (part : isWordPart c = true) : 32 < c.toNat ∧ c.toNat < 160 := by
  simp only [isWordPart, isWordStart, Char.isDigit, Bool.or_eq_true, Bool.and_eq_true,
    decide_eq_true_eq, beq_iff_eq, isAlpha_iff, UInt32.le_iff_toNat_le, ge_iff_le] at part
  rcases part with ((letter | rfl) | rfl) | ⟨least, most⟩
  · omega
  · decide
  · decide
  · have least : 48 ≤ c.toNat := least
    have most : c.toNat ≤ 57 := most
    omega

theorem isNameBreak_part (part : isWordPart c = true) : isNameBreak c = false := by
  have ⟨least, most⟩ := toNat_part part
  rw [← Bool.not_eq_true]
  intro breaks
  have marks : ∀ d ∈ ":;`\"'@#.,|^&<=>+-*/\\%?!~()[]\x7b\x7d".toList, isWordPart d = false := by decide
  simp only [isNameBreak, Bool.or_eq_true, decide_eq_true_eq, List.contains_iff_mem] at breaks
  rcases breaks with (control | blank) | mark
  · omega
  · have outside := toNat_blank blank
    omega
  · rw [marks c mark] at part
    cases part

theorem isDigit_start (start : isWordStart c = true) : c.isDigit = false := by
  rw [← Bool.not_eq_true]
  intro digit
  simp only [isWordStart, Bool.or_eq_true, beq_iff_eq, isAlpha_iff] at start
  simp only [Char.isDigit, Bool.and_eq_true, decide_eq_true_eq, UInt32.le_iff_toNat_le, ge_iff_le] at digit
  have most : c.toNat ≤ 57 := digit.2
  rcases start with (letter | rfl) | rfl
  · omega
  · exact absurd digit (by decide)
  · exact absurd digit (by decide)

theorem isName_of_isWord (word : isWord w = true) : isName w = true := by
  cases w with
  | nil => cases word
  | cons c w =>
    rw [isWord, Bool.and_eq_true, List.all_eq_true] at word
    have part : isWordPart c = true := by rw [isWordPart, word.1, Bool.true_or]
    simp only [isName, List.all_cons, isDigit_start word.1, isNameBreak_part part, Bool.not_false,
      Bool.true_and, List.all_eq_true]
    exact fun d mem => by rw [isNameBreak_part (word.2 d mem)]; rfl

theorem isName_word {l : List Char} (word : isWord l = true) : isName (String.ofList l).toList = true := by
  rw [String.toList_ofList]
  exact isName_of_isWord word

theorem begins_of_part (part : isNameBreak c = false) : begins (c :: cs) = true := by
  have slash : (c == '/') = false := by
    refine beq_false_of_ne ?_
    rintro rfl
    exact absurd part (by decide)
  simp [begins, isGapBlank_eq_false part, slash]

theorem begins_of_isName (h : isName w = true) : begins (w ++ after) = true := by
  obtain ⟨c, w, rfl, part, -⟩ := head_of_isName h
  exact begins_of_part part

namespace Parser

variable {α β : Type} {p q : Parser α} {f : α → Parser β} {Q : α → Prop} {R : β → Prop}

/-! ## After any gap -/

/-- After any gap the parser takes this text before `after`, with such a result. -/
def Reads (p : Parser α) (cs after : List Char) (Q : α → Prop) : Prop :=
  ∀ g, IsGap g → Takes p (g ++ cs) after Q

/-- After any gap the parser takes nothing of this text and goes on, with such a result. -/
def Keeps (p : Parser α) (cs : List Char) (Q : α → Prop) : Prop :=
  ∀ g, IsGap g → Takes p [] (g ++ cs) Q

/-- After any gap the parser refuses this text. -/
def Fails (p : Parser α) (cs : List Char) : Prop := ∀ g, IsGap g → Refuses p (g ++ cs)

theorem Reads.here (h : Reads p cs after Q) : Takes p cs after Q := h [] .nil

theorem Keeps.here (h : Keeps p cs Q) : Takes p [] cs Q := h [] .nil

theorem Fails.here (h : Fails p cs) : Refuses p cs := h [] .nil

theorem Reads.mono {R : α → Prop} (h : Reads p cs after Q) (weaker : ∀ a, Q a → R a) :
    Reads p cs after R := fun g gap => (h g gap).mono weaker

theorem Reads.bind {cs' : List Char} (h : Reads p cs (cs' ++ after) Q)
    (h' : ∀ a, Q a → Takes (f a) cs' after R) : Reads (p >>= f) (cs ++ cs') after R := by
  intro g gap
  rw [← List.append_assoc]
  exact (h g gap).bind h'

theorem Reads.bind_end (h : Reads p cs after Q) (h' : ∀ a, Q a → Takes (f a) [] after R) :
    Reads (p >>= f) cs after R := fun g gap => (h g gap).bind_end h'

theorem Keeps.bind (h : Keeps p (cs ++ after) Q) (h' : ∀ a, Q a → Reads (f a) cs after R) :
    Reads (p >>= f) cs after R := by
  intro g gap
  have here := h g gap
  rw [← List.append_assoc] at here
  exact here.bind_here fun a ha => h' a ha g gap

theorem Keeps.keeps (h : Keeps p cs Q) (h' : ∀ a, Q a → Keeps (f a) cs R) : Keeps (p >>= f) cs R :=
  fun g gap => Takes.bind_end (h g gap) fun a ha => h' a ha g gap

theorem keeps_pure {a : α} (ha : Q a) : Keeps (pure a) cs Q := fun _ _ => takes_pure ha

theorem Reads.fails (h : Reads p cs after Q) (h' : ∀ a, Q a → Refuses (f a) after) :
    Fails (p >>= f) (cs ++ after) := by
  intro g gap
  rw [← List.append_assoc]
  exact (h g gap).refuses h'

theorem Keeps.fails (h : Keeps p cs Q) (h' : ∀ a, Q a → Fails (f a) cs) : Fails (p >>= f) cs :=
  fun g gap => (h g gap).refuses fun a ha => h' a ha g gap

theorem Fails.bind (h : Fails p cs) : Fails (p >>= f) cs := fun g gap => (h g gap).bind

theorem Fails.seqRight {q : Parser β} (h : Fails p cs) : Fails (p *> q) cs := h.bind

theorem Fails.seqLeft {q : Parser β} (h : Fails p cs) : Fails (p <* q) cs := h.bind

theorem Fails.orElse (h : Fails p cs) (h' : Fails q cs) : Fails (p <|> q) cs :=
  fun g gap => (h g gap).orElse (h' g gap)

theorem Reads.orElse (h : Reads p cs after Q) : Reads (p <|> q) cs after Q :=
  fun g gap => (h g gap).orElse

theorem Reads.of_failed (h : Reads q cs after Q) (failed : Fails p (cs ++ after)) :
    Reads (p <|> q) cs after Q := by
  intro g gap
  have refused := failed g gap
  rw [← List.append_assoc] at refused
  exact (h g gap).of_refused refused

theorem Fails.orNone {p : Parser (List α)} (h : Fails p cs) : Keeps (orNone p) cs (· = []) :=
  fun g gap => (h g gap).orNone

theorem Fails.optional (h : Fails p cs) : Keeps (optional p) cs (· = none) :=
  fun g gap => (h g gap).optional

theorem Fails.many (h : Fails p cs) : Keeps (many p) cs (· = []) := fun g gap => (h g gap).many

theorem Fails.field {p : Parser Tree} (h : Fails p cs) (f : Field) : Fails (field f p) cs := h.bind

theorem Fails.one {p : Parser Tree} (h : Fails p cs) : Fails (one p) cs := h.bind

theorem Reads.field {p : Parser Tree} (h : Reads p cs after Whole) (f : Field) :
    Reads (field f p) cs after Whole := fun g gap => (h g gap).field f

theorem Reads.one {p : Parser Tree} (h : Reads p cs after Whole) : Reads (one p) cs after AllWhole :=
  fun g gap => (h g gap).one

theorem Still.fails (still : Still p) (h : ∀ a, Fails (f a) cs) : Fails (p >>= f) cs :=
  fun g gap => still.bind_refuses fun a => h a g gap

/-! ## First characters -/

/-- Only texts that begin with such a character are taken. -/
def First (p : Parser α) (ok : Char → Bool) : Prop :=
  ∀ c cs, ok c = false → begins (c :: cs) = true → Fails p (c :: cs)

variable {ok ok' : Char → Bool}

theorem First.bind (h : First p ok) : First (p >>= f) ok := fun c cs hc hb => (h c cs hc hb).bind

theorem First.seqRight {q : Parser β} (h : First p ok) : First (p *> q) ok := h.bind

theorem First.seqLeft {q : Parser β} (h : First p ok) : First (p <* q) ok := h.bind

theorem First.field {p : Parser Tree} (h : First p ok) (f : Field) : First (field f p) ok := h.bind

theorem First.one {p : Parser Tree} (h : First p ok) : First (one p) ok := h.bind

theorem First.within {opening closing : String} (h : First (symbol opening) ok) :
    First (within opening closing p) ok := h.bind

theorem First.orElse (h : First p ok) (h' : First q ok') : First (p <|> q) fun c => ok c || ok' c := by
  intro c cs hc hb
  rw [Bool.or_eq_false_iff] at hc
  exact (h c cs hc.1 hb).orElse (h' c cs hc.2 hb)

theorem First.still {q : Parser α} {f : α → Parser β} (still : Still q) (h : ∀ a, First (f a) ok) :
    First (q >>= f) ok := fun c cs hc hb => still.fails fun a => h a c cs hc hb

/-- What may be left out before something. -/
theorem First.keeps {q : Parser α} {f : α → Parser β} (h : ∀ c cs, ok c = false →
    begins (c :: cs) = true → Keeps q (c :: cs) Q) (h' : ∀ a, Q a → First (f a) ok') :
    First (q >>= f) fun c => ok c || ok' c := by
  intro c cs hc hb
  rw [Bool.or_eq_false_iff] at hc
  exact (h c cs hc.1 hb).fails fun a ha => h' a ha c cs hc.2 hb

theorem first_failure : First (failure : Parser α) ok := fun _ _ _ _ _ _ => refuses_failure

theorem First.mono (h : First p ok) (more : ∀ c, ok c = true → ok' c = true) : First p ok' := by
  intro c cs hc hb
  refine h c cs (Bool.eq_false_iff.mpr fun hok => ?_) hb
  rw [more c hok] at hc
  cases hc

/-! ## Signs -/

theorem symbol_eq {text : String} (gap : IsGap g) (hb : begins cs = true) (hs : Spells s (g ++ cs)) :
    symbol text s = if text.toList.isPrefixOf cs then some ((), s.drop (g.length + text.toList.length))
      else none := by
  rw [symbol, (spells_afterGap gap hb hs).startsWith_eq, afterGap_drop gap hb hs, List.drop_drop]

theorem reads_symbol (text : String) (hb : begins (text.toList ++ after) = true) :
    Reads (symbol text) text.toList after fun _ => True := by
  intro g gap s hs
  rw [List.append_assoc] at hs
  refine ⟨(), ?_, trivial⟩
  rw [symbol_eq gap hb hs, if_pos (List.isPrefixOf_iff_prefix.mpr (List.prefix_append _ _)),
    List.length_append]

theorem fails_symbol {text : String} (h : text.toList.isPrefixOf cs = false) (hb : begins cs = true) :
    Fails (symbol text) cs := by
  intro g gap s hs
  rw [symbol_eq gap hb hs, h]
  rfl

theorem first_symbol {text : String} {d : Char} {ds : List Char} (h : text.toList = d :: ds) :
    First (symbol text) (· == d) := by
  intro c cs hc hb
  refine fails_symbol ?_ hb
  rw [h, List.isPrefixOf, beq_eq_false_iff_ne.mpr (Ne.symm (beq_eq_false_iff_ne.mp hc)), Bool.false_and]

theorem first_comma : First (symbol ",") (· == ',') := first_symbol rfl

theorem takes_adjacent (text : String) : Takes (adjacent text) text.toList after fun _ => True := by
  intro s hs
  refine ⟨(), ?_, trivial⟩
  rw [adjacent, hs.startsWith_eq, List.isPrefixOf_iff_prefix.mpr (List.prefix_append _ _)]
  rfl

theorem refuses_adjacent {text : String} (h : text.toList.isPrefixOf cs = false) :
    Refuses (adjacent text) cs := by
  intro s hs
  rw [adjacent, hs.startsWith_eq, h]
  rfl

theorem takes_notFollowedBy {ds : List Char} (h : ∀ c ∈ cs.head?, c ∉ ds) :
    Takes (notFollowedBy ds) [] cs fun _ => True := by
  intro s hs
  refine ⟨(), ?_, trivial⟩
  obtain _ | ⟨char, -, -, -⟩ := hs
  · rfl
  · rw [notFollowedBy, if_neg (by rw [char]; exact h _ rfl)]
    rfl

theorem first_symbolNot {text : String} {d : Char} {ds : List Char} (h : text.toList = d :: ds)
    {not : List Char} : First (symbolNot text not) (· == d) := (first_symbol h).seqRight

/-! ## Nodes after a gap -/

/-- A node of a kind, without a fault. -/
abbrev IsA (kind : Kind) (t : Tree) : Prop := Whole t ∧ t.kind = kind

theorem Takes.node {kind : Kind} {p : Parser (List Tree)} (sort : kind ≠ .fault)
    (h : Takes p cs after AllWhole) (hb : begins (cs ++ after) = true) :
    Reads (node kind p) cs after (IsA kind) := by
  intro g gap s hs
  rw [List.append_assoc] at hs
  obtain ⟨ts, found, whole⟩ := h _ (spells_afterGap gap hb hs)
  rw [afterGap_drop gap hb hs, List.drop_drop, ← List.length_append] at found
  refine ⟨build kind (afterGap s) (s.drop (g ++ cs).length) ts, ?_, whole_build sort whole, rfl⟩
  rw [Parser.node]
  simp only [afterGap_drop gap hb hs, found]

theorem Refuses.node {kind : Kind} {p : Parser (List Tree)} (h : Refuses p cs)
    (hb : begins cs = true) : Fails (node kind p) cs := by
  intro g gap s hs
  rw [Parser.node]
  simp only [h _ (spells_afterGap gap hb hs)]

theorem First.node {kind : Kind} {p : Parser (List Tree)} (h : First p ok) : First (node kind p) ok :=
  fun c cs hc hb => (h c cs hc hb).here.node hb

theorem reads_leaf {kind : Kind} {scan : Scan} (sort : kind ≠ .fault)
    (h : ∀ s, Spells s (cs ++ after) → scan s = some (s.drop cs.length))
    (hb : begins (cs ++ after) = true) : Reads (leaf kind scan) cs after (IsA kind) := by
  intro g gap s hs
  rw [List.append_assoc] at hs
  have found := h _ (spells_afterGap gap hb hs)
  rw [afterGap_drop gap hb hs, List.drop_drop, ← List.length_append] at found
  refine ⟨build kind (afterGap s) (s.drop (g ++ cs).length) [], ?_, whole_build sort allWhole_nil, rfl⟩
  rw [leaf]
  simp only [afterGap_drop gap hb hs, found]

theorem fails_leaf {kind : Kind} {scan : Scan} (h : ∀ s, Spells s cs → scan s = none)
    (hb : begins cs = true) : Fails (leaf kind scan) cs := by
  intro g gap s hs
  rw [leaf]
  simp only [h _ (spells_afterGap gap hb hs)]

/-! ## Nodes right here -/

theorem Takes.nodeHere {kind : Kind} {p : Parser (List Tree)} (sort : kind ≠ .fault)
    (h : Takes p cs after AllWhole) : Takes (nodeHere kind p) cs after (IsA kind) := by
  intro s hs
  obtain ⟨ts, found, whole⟩ := h s hs
  refine ⟨build kind s (s.drop cs.length) ts, ?_, whole_build sort whole, rfl⟩
  simp only [Parser.nodeHere, found]

theorem Refuses.nodeHere {kind : Kind} {p : Parser (List Tree)} (h : Refuses p cs) :
    Refuses (nodeHere kind p) cs := by
  intro s hs
  simp only [Parser.nodeHere, h s hs]

theorem takes_leafHere {kind : Kind} {scan : Scan} (sort : kind ≠ .fault)
    (h : ∀ s, Spells s (cs ++ after) → scan s = some (s.drop cs.length)) :
    Takes (leafHere kind scan) cs after (IsA kind) := by
  intro s hs
  refine ⟨build kind s (s.drop cs.length) [], ?_, whole_build sort allWhole_nil, rfl⟩
  simp only [leafHere, h s hs]

theorem refuses_leafHere {kind : Kind} {scan : Scan} (h : ∀ s, Spells s cs → scan s = none) :
    Refuses (leafHere kind scan) cs := by
  intro s hs
  simp only [leafHere, h s hs]

theorem Takes.within {opening closing : String} (h : Takes p cs (g ++ (closing.toList ++ after)) Q)
    (gap : IsGap g) (hb : begins (opening.toList ++ (cs ++ (g ++ (closing.toList ++ after)))) = true)
    (hb' : begins (closing.toList ++ after) = true) :
    Reads (within opening closing p) (opening.toList ++ (cs ++ (g ++ closing.toList))) after Q := by
  refine Reads.bind (reads_symbol opening ?_) fun _ _ => ?_
  · simpa only [List.append_assoc] using hb
  · refine Takes.bind ?_ fun a ha => Takes.bind_end (reads_symbol closing hb' g gap) fun _ _ =>
      takes_pure ha
    simpa only [List.append_assoc] using h

theorem keeps_next (hb : begins cs = true) : Keeps next cs fun s => Spells s cs :=
  fun _ gap _ hs => ⟨_, rfl, spells_afterGap gap hb hs⟩

theorem keeps_peek (hb : begins cs = true) : Keeps peek cs (· = cs.head?) := by
  intro g gap s hs
  refine ⟨_, rfl, ?_⟩
  rw [← (spells_afterGap gap hb hs).chars_eq, Input.chars, List.head?_map]

/-! ## Words -/

theorem word_eq (h : isName w = true) (ends : endsName after = true) (gap : IsGap g)
    (hs : Spells s (g ++ (w ++ after))) :
    word s = some (String.ofList w, s.drop (g.length + w.length)) := by
  have hs' := spells_afterGap gap (begins_of_isName h) hs
  have text_eq : (afterGap s).upTo ((afterGap s).drop w.length) = String.ofList w := by
    have enough : w.length ≤ (afterGap s).length := by
      rw [← Input.length_chars, hs'.chars_eq, List.length_append]
      omega
    rw [hs'.numbered.upTo_drop enough, hs'.chars_eq, List.take_left]
  rw [word, name_some h ends hs', Option.map_some, text_eq,
    afterGap_drop gap (begins_of_isName h) hs, List.drop_drop]

theorem reads_word (h : isName w = true) (ends : endsName after = true) :
    Reads word w after (· = String.ofList w) := by
  intro g gap s hs
  rw [List.append_assoc] at hs
  exact ⟨_, by rw [word_eq h ends gap hs, List.length_append], rfl⟩

theorem first_word : First word isNameStart := by
  intro c cs hc hb g gap s hs
  rw [word, name_none hc (spells_afterGap gap hb hs)]
  rfl

theorem reads_keyword (w : String) (h : isName w.toList = true) (ends : endsName after = true) :
    Reads (keyword w) w.toList after fun _ => True :=
  (reads_word h ends).bind_end fun a ha => takes_guard (by simp [ha])

theorem fails_keyword {w' : String} (h : isName w = true) (ends : endsName after = true)
    (other : String.ofList w ≠ w') : Fails (keyword w') (w ++ after) :=
  (reads_word h ends).fails fun a ha => refuses_guard (by simp [ha, other])

theorem first_keyword {w' : String} : First (keyword w') isNameStart := first_word.bind

theorem keeps_peekWord (h : isName w = true) (ends : endsName after = true) :
    Keeps peekWord (w ++ after) (· = String.ofList w) :=
  fun _ gap _ hs => ⟨_, rfl, by simp [word_eq h ends gap hs]⟩

theorem still_peekWord : Still peekWord := fun _ _ _ h => (Prod.mk.inj (Option.some.inj h)).2.symm

theorem keeps_peekWord_none (h : isNameStart c = false) (hb : begins (c :: cs) = true) :
    Keeps peekWord (c :: cs) (· = "") :=
  fun g gap s hs => ⟨_, rfl, by simp [first_word c cs h hb g gap s hs]⟩

theorem reads_nameNode {kind : Kind} (sort : kind ≠ .fault) (h : isName w = true)
    (ends : endsName after = true) : Reads (nameNode kind) w after (IsA kind) :=
  reads_leaf sort (fun _ hs => name_some h ends hs) (begins_of_isName h)

theorem first_nameNode {kind : Kind} : First (nameNode kind) isNameStart :=
  fun _ _ hc hb => fails_leaf (fun _ hs => name_none hc hs) hb

theorem reads_wordNode {kind : Kind} (sort : kind ≠ .fault) (w : String) (h : isName w.toList = true)
    (ends : endsName after = true) : Reads (wordNode kind w) w.toList after (IsA kind) := by
  intro g gap s hs
  obtain ⟨u, found, -⟩ := reads_keyword w h ends g gap s hs
  refine ⟨build kind (afterGap s) (s.drop (g ++ w.toList).length) [], ?_,
    whole_build sort allWhole_nil, rfl⟩
  simp only [wordNode, found]

theorem Fails.wordNode {kind : Kind} {w' : String} (h : Fails (keyword w') cs) :
    Fails (wordNode kind w') cs := by
  intro g gap s hs
  simp only [Parser.wordNode, h g gap s hs]

theorem first_wordNode {kind : Kind} {w' : String} : First (wordNode kind w') isNameStart :=
  fun c cs hc hb => (first_keyword c cs hc hb).wordNode

/-! ## Where a statement might end -/

/-- The old marks of a comment do not stand here. -/
def isUnmarked (cs : List Char) : Bool :=
  !"<!--".toList.isPrefixOf cs && !"-->".toList.isPrefixOf cs

theorem takes_skipMarks (gap : IsGap g) (hb : begins cs = true) (h : isUnmarked cs = true) :
    Takes skipMarks g cs fun _ => True := by
  intro s hs
  refine ⟨(), ?_, trivial⟩
  simp only [isUnmarked, Bool.and_eq_true, Bool.not_eq_true'] at h
  have hs' := spells_afterGap gap hb hs
  rw [afterGap_drop gap hb hs] at hs'
  have stays : ∀ n, s.left ≤ n → afterMarks n s = s.drop g.length := by
    intro n enough
    rw [hs.left_eq, List.length_append] at enough
    cases n with
    | zero =>
      have empty : g.length = 0 := by omega
      rw [afterMarks, empty]
      rfl
    | succ n =>
      rw [afterMarks]
      simp only [afterGap_drop gap hb hs, hs'.startsWith_eq, h.1, h.2, Bool.or_self,
        Bool.false_eq_true, if_false]
  rw [skipMarks, stays _ (Nat.le_refl _)]

theorem Reads.skipMarks {p : Parser α} (h : Reads p cs after Q) (hb : begins (cs ++ after) = true)
    (unmarked : isUnmarked (cs ++ after) = true) : Reads (skipMarks >>= fun _ => p) cs after Q :=
  fun _ gap => (takes_skipMarks gap hb unmarked).bind fun _ _ => h.here

theorem Fails.skipMarks {p : Parser α} (h : Fails p cs) (hb : begins cs = true)
    (unmarked : isUnmarked cs = true) : Fails (skipMarks >>= fun _ => p) cs :=
  fun _ gap => (takes_skipMarks gap hb unmarked).refuses fun _ _ => h.here

theorem gap_inline (blanks : ∀ d ∈ g, d = ' ') (hb : begins cs = true) (hs : Spells s (g ++ cs)) :
    gap s = ⟨false, s.drop g.length⟩ := by
  suffices ∀ s, Spells s (g ++ cs) → gapFrom .blank false true s = ⟨false, s.drop g.length⟩ from
    this s hs
  clear hs
  induction g with
  | nil => exact fun s hs => gapFrom_blank hb false true hs
  | cons d g ih =>
    intro s hs
    obtain _ | ⟨char, -, -, rest⟩ := hs
    obtain rfl := blanks d List.mem_cons_self
    have blank : isGapBlank ' ' = true := by decide
    have plain : isPlainBlank ' ' = true := by decide
    simp only [gapFrom, char, blank, plain, if_true, Bool.and_true, Bool.false_or]
    exact ih (fun d hd => blanks d (List.mem_cons_of_mem _ hd)) _ rest

theorem takes_goesOn {before : Before} (blanks : ∀ d ∈ g, d = ' ') (hc : c ≠ '\x7d')
    (hb : begins (c :: cs) = true) : Takes (goesOn before) [] (g ++ c :: cs) fun _ => True := by
  intro s hs
  refine ⟨(), ?_, trivial⟩
  have here : endsHere before s = false := by
    have rest : Spells (s.drop g.length) (c :: cs) := by simpa using hs.drop g.length
    have other : (c == '\x7d') = false := beq_false_of_ne hc
    rw [endsHere, gap_inline blanks hb hs]
    generalize s.drop g.length = tail at rest
    cases rest with
    | cons char => simp [char, other]
  rw [goesOn, here]
  rfl

theorem still_goesOn {before : Before} : Still (goesOn before) := by
  intro s a rest h
  unfold goesOn at h
  split at h
  · cases h
  · exact (Prod.mk.inj (Option.some.inj h)).2.symm

theorem takes_flow_goesOn {flow : Flow} (blanks : ∀ d ∈ g, d = ' ') (hc : c ≠ '\x7d')
    (hb : begins (c :: cs) = true) : Takes flow.goesOn [] (g ++ c :: cs) fun _ => True := by
  unfold Flow.goesOn
  split
  · exact takes_goesOn blanks hc hb
  · exact takes_pure trivial

theorem takes_flow_goesOn_here {flow : Flow} (c : Char) (hc : c ≠ '\x7d')
    (hb : begins (c :: cs) = true) : Takes flow.goesOn [] (c :: cs) fun _ => True :=
  takes_flow_goesOn (g := []) nofun hc hb

theorem still_pure {a : α} : Still (pure a) := fun _ _ _ h => (Prod.mk.inj (Option.some.inj h)).2.symm

theorem still_flow_goesOn {flow : Flow} : Still flow.goesOn := by
  unfold Flow.goesOn
  split
  · exact still_goesOn
  · exact still_pure

theorem reads_ending {before : Before} : Reads (ending before) [';'] after fun _ => True :=
  (reads_symbol ";" rfl).orElse

end Parser

end SuiteDraft.Grammar
