import SuiteDraft.Proofs.Suite.Patterns

/-!
# Patterns that match a text as it stands

What a script makes of the pattern of a text: which token its first slash begins, where that token
ends, and how the characters between its slashes read as a pattern. If the text is on one line, the
token is the pattern and no comment, and it reads in one way only, as the characters of the text.
-/

namespace SuiteDraft.Pattern

open Grammar (endsLine isHexDigit)

/-! ## The token that a slash begins -/

/-- What may stand between square brackets. -/
inductive Bracketed : List Char → Prop
  | nil : Bracketed []
  | char {c : Char} {cs : List Char} (sameLine : endsLine c = false) (plain : c ∉ [']', '\\'])
      (more : Bracketed cs) : Bracketed (c :: cs)
  | escaped {c : Char} {cs : List Char} (sameLine : endsLine c = false) (more : Bracketed cs) :
      Bracketed ('\\' :: c :: cs)

/-- What may stand between the slashes of a pattern; within square brackets a slash ends nothing. -/
inductive Body : List Char → Prop
  | nil : Body []
  | char {c : Char} {cs : List Char} (sameLine : endsLine c = false) (plain : c ∉ ['/', '\\', '['])
      (more : Body cs) : Body (c :: cs)
  | escaped {c : Char} {cs : List Char} (sameLine : endsLine c = false) (more : Body cs) :
      Body ('\\' :: c :: cs)
  | bracketed {inner cs : List Char} (inside : Bracketed inner) (more : Body cs) :
      Body ('[' :: (inner ++ ']' :: cs))

/-- A token that begins with a slash where an operand may stand. -/
inductive Token where
  | lineComment
  | blockComment
  | pattern (body : List Char)
  deriving DecidableEq

/-- The token in front, and what is left after it; what is left after a pattern begins with its
flags. -/
inductive Begins : List Char → Token → List Char → Prop
  | lineComment {text rest : List Char} (sameLine : ∀ c ∈ text, endsLine c = false)
      (stop : ∀ c ∈ rest.head?, endsLine c = true) :
      Begins ('/' :: '/' :: (text ++ rest)) .lineComment rest
  | blockComment {text rest : List Char} (unclosed : ¬ ['*', '/'] <:+: text) :
      Begins ('/' :: '*' :: (text ++ '*' :: '/' :: rest)) .blockComment rest
  | pattern {body rest : List Char} (nonempty : body ≠ []) (first : ∀ c ∈ body.head?, c ≠ '*')
      (reads : Body body) : Begins ('/' :: (body ++ '/' :: rest)) (.pattern body) rest

variable {c : Char} {text : List Char}

theorem escapeChar_of_special (special : c ∈ specials) : escapeChar c = ['\\', c] := if_pos special

theorem escapeChar_of_plain (plain : c ∉ specials) : escapeChar c = [c] := if_neg plain

/-- What an escaped text begins with is a backslash or a character that needs none. -/
theorem head?_escape (text : List Char) : ∀ d ∈ (escape text).head?, d = '\\' ∨ d ∉ specials := by
  intro d hd
  cases text with
  | nil => cases hd
  | cons c text =>
    rw [escape_cons] at hd
    by_cases special : c ∈ specials
    · rw [escapeChar_of_special special] at hd
      exact .inl (Option.some.inj hd).symm
    · rw [escapeChar_of_plain special] at hd
      have d_eq : c = d := Option.some.inj hd
      exact .inr (d_eq ▸ special)

theorem head?_escape_ne {d : Char} (special : d ∈ specials) (notBackslash : d ≠ '\\') :
    ∀ e ∈ (escape text).head?, e ≠ d := by
  intro e he e_eq
  subst e_eq
  cases head?_escape text e he with
  | inl backslash => exact notBackslash backslash
  | inr plain => exact plain special

theorem body_escape (sameLine : ∀ c ∈ text, endsLine c = false) : Body (escape text) := by
  induction text with
  | nil => exact .nil
  | cons c text ih =>
    have here := sameLine c List.mem_cons_self
    have more := ih fun d hd => sameLine d (List.mem_cons_of_mem _ hd)
    rw [escape_cons]
    by_cases special : c ∈ specials
    · rw [escapeChar_of_special special]
      exact .escaped here more
    · rw [escapeChar_of_plain special]
      have marks : ['/', '\\', '['] ⊆ specials := by decide
      exact .char here (fun mark => special (marks mark)) more

/-- The body of a pattern that begins like an escaped text before a slash ends where the text does. -/
theorem Body.eq_escape {body rest more : List Char} (reads : Body body)
    (h : body ++ '/' :: rest = escape text ++ '/' :: more) : body = escape text ∧ rest = more := by
  induction text generalizing body with
  | nil =>
    cases reads with
    | nil => exact ⟨rfl, (List.cons.inj h).2⟩
    | char sameLine plain others =>
      have c_eq := (List.cons.inj h).1
      exact absurd (c_eq ▸ List.mem_cons_self) plain
    | escaped sameLine others => exact absurd (List.cons.inj h).1 (by decide)
    | bracketed inside others => exact absurd (List.cons.inj h).1 (by decide)
  | cons c text ih =>
    rw [escape_cons, List.append_assoc] at h
    by_cases special : c ∈ specials
    · rw [escapeChar_of_special special] at h
      rw [escape_cons, escapeChar_of_special special]
      cases reads with
      | nil => exact absurd (List.cons.inj h).1 (by decide)
      | char sameLine plain others =>
        have mark : '\\' ∈ ['/', '\\', '['] := by decide
        exact absurd ((List.cons.inj h).1 ▸ mark) plain
      | escaped sameLine others =>
        have ⟨_, tail⟩ := List.cons.inj h
        have ⟨c_eq, tail⟩ := List.cons.inj tail
        have ⟨cs_eq, rest_eq⟩ := ih others tail
        exact ⟨by rw [c_eq, cs_eq]; rfl, rest_eq⟩
      | bracketed inside others => exact absurd (List.cons.inj h).1 (by decide)
    · have ⟨hbackslash, hslash, _⟩ := plain_of_not_special special
      rw [escapeChar_of_plain special] at h
      rw [escape_cons, escapeChar_of_plain special]
      cases reads with
      | nil => exact absurd (List.cons.inj h).1.symm hslash
      | char sameLine plain others =>
        have ⟨c_eq, tail⟩ := List.cons.inj h
        have ⟨cs_eq, rest_eq⟩ := ih others tail
        exact ⟨by rw [c_eq, cs_eq]; rfl, rest_eq⟩
      | escaped sameLine others => exact absurd (List.cons.inj h).1.symm hbackslash
      | bracketed inside others =>
        have mark : '[' ∈ specials := by decide
        exact absurd ((List.cons.inj h).1 ▸ mark) special

theorem begins_escape_iff (nonempty : text ≠ []) (sameLine : ∀ c ∈ text, endsLine c = false)
    {more rest : List Char} {token : Token} :
    Begins ('/' :: (escape text ++ '/' :: more)) token rest ↔
      token = .pattern (escape text) ∧ rest = more := by
  have notEmpty : escape text ≠ [] := mt escape_eq_nil_iff.mp nonempty
  constructor
  · intro h
    -- what is read, apart from the token, so that the token says how it begins
    generalize hs : '/' :: (escape text ++ '/' :: more) = s at h
    have first : ∀ d, (escape text ++ '/' :: more).head? = some d → d ≠ '/' ∧ d ≠ '*' := by
      intro d hd
      rw [List.head?_append_of_ne_nil _ notEmpty] at hd
      exact ⟨head?_escape_ne (by decide) (by decide) d hd,
        head?_escape_ne (by decide) (by decide) d hd⟩
    cases h with
    | lineComment =>
      have tail := (List.cons.inj hs).2
      exact absurd rfl (first '/' (by rw [tail]; rfl)).1
    | blockComment =>
      have tail := (List.cons.inj hs).2
      exact absurd rfl (first '*' (by rw [tail]; rfl)).2
    | pattern nonempty first reads =>
      have ⟨body_eq, rest_eq⟩ := reads.eq_escape (List.cons.inj hs).2.symm
      exact ⟨congrArg Token.pattern body_eq, rest_eq⟩
  · intro ⟨token_eq, rest_eq⟩
    rw [token_eq, rest_eq]
    exact .pattern notEmpty (head?_escape_ne (by decide) (by decide)) (body_escape sameLine)

/-! ## How a pattern reads -/

/-- The characters that mean something in a pattern. -/
def syntaxCharacters : List Char :=
  ['^', '$', '\\', '.', '*', '+', '?', '(', ')', '[', ']', '\x7b', '\x7d', '|']

/-- What a part of a pattern stands for. Marks, names and counts are kept as they are written. -/
inductive Node where
  /-- This character and no other. -/
  | character (c : Char)
  /-- The character of a number. -/
  | numbered (digits : List Char)
  /-- Any character but the end of a line. -/
  | anyCharacter
  /-- A character of a class. -/
  | oneOf (name : List Char)
  /-- A place in the text. -/
  | assertion (mark : List Char)
  /-- What a group has matched. -/
  | reference (name : List Char)
  /-- Alternatives in round brackets: captured or not, or looked for ahead or behind. -/
  | group (opening : List Char) (alternatives : List (List Node))
  /-- A part so many times. -/
  | repeated (count : List Char) (node : Node)

def assertions : List (List Char) := [['^'], ['$'], ['\\', 'b'], ['\\', 'B']]

/-- The letters that stand for a control character. -/
def controls : List (Char × Char) :=
  [('t', '\t'), ('n', '\n'), ('v', '\x0b'), ('f', '\x0c'), ('r', '\r')]

/-- A letter, a digit or an underscore: escaped, it may mean something of its own. -/
def isWordCharacter (c : Char) : Bool := c.isAlphanum || c == '_'

/-- What an escape stands for, by what follows its backslash. -/
inductive Escape : List Char → Node → List Char → Prop
  | itself {c : Char} (plain : isWordCharacter c = false) (s : List Char) :
      Escape (c :: s) (.character c) s
  | control {c d : Char} (known : (c, d) ∈ controls) (s : List Char) : Escape (c :: s) (.character d) s
  | letter {c : Char} (known : c.isAlpha = true) (s : List Char) :
      Escape ('c' :: c :: s) (.character (Char.ofNat (c.toNat % 32))) s
  | null {s : List Char} (alone : ∀ c ∈ s.head?, c.isDigit = false) :
      Escape ('0' :: s) (.character '\x00') s
  | two {digits : List Char} (length_eq : digits.length = 2) (hex : ∀ c ∈ digits, isHexDigit c = true)
      (s : List Char) : Escape ('x' :: (digits ++ s)) (.numbered digits) s
  | four {digits : List Char} (length_eq : digits.length = 4) (hex : ∀ c ∈ digits, isHexDigit c = true)
      (s : List Char) : Escape ('u' :: (digits ++ s)) (.numbered digits) s
  | oneOf {c : Char} (known : c ∈ ['d', 'D', 's', 'S', 'w', 'W']) (s : List Char) :
      Escape (c :: s) (.oneOf ['\\', c]) s
  | reference {c : Char} {digits s : List Char} (first : c.isDigit = true) (positive : c ≠ '0')
      (others : ∀ d ∈ digits, d.isDigit = true) (stop : ∀ d ∈ s.head?, d.isDigit = false) :
      Escape (c :: (digits ++ s)) (.reference (c :: digits)) s
  | named {name : List Char} (unclosed : '>' ∉ name) (s : List Char) :
      Escape ('k' :: '<' :: (name ++ '>' :: s)) (.reference name) s

/-- What begins a group. -/
inductive Opening : List Char → Prop
  | captured : Opening ['(']
  | named {name : List Char} (known : name ≠ [] ∧ ∀ c ∈ name, c ∉ ['>', '=', '!']) :
      Opening ('(' :: '?' :: '<' :: (name ++ ['>']))
  | uncaptured {flags : List Char} (known : ∀ c ∈ flags, c ∈ ['i', 'm', 's', '-']) :
      Opening ('(' :: '?' :: (flags ++ [':']))
  | ahead {c : Char} (known : c ∈ ['=', '!']) : Opening ['(', '?', c]
  | behind {c : Char} (known : c ∈ ['=', '!']) : Opening ['(', '?', '<', c]

/-- How many times. -/
inductive Count : List Char → Prop
  | mark {c : Char} (known : c ∈ ['*', '+', '?']) : Count [c]
  | exactly {digits : List Char} (number : digits ≠ [] ∧ ∀ c ∈ digits, c.isDigit = true) :
      Count ('\x7b' :: (digits ++ ['\x7d']))
  | between {digits others : List Char} (number : digits ≠ [] ∧ ∀ c ∈ digits, c.isDigit = true)
      (limit : ∀ c ∈ others, c.isDigit = true) :
      Count ('\x7b' :: (digits ++ ',' :: (others ++ ['\x7d'])))
  | few {count : List Char} (h : Count count) : Count (count ++ ['?'])

mutual

/-- Alternatives, with bars between, in front of what is left. -/
inductive Alternatives : List Char → List (List Node) → List Char → Prop
  | last {s rest : List Char} {nodes : List Node} (only : Sequence s nodes rest) :
      Alternatives s [nodes] rest
  | bar {s t rest : List Char} {nodes : List Node} {others : List (List Node)}
      (first : Sequence s nodes ('|' :: t)) (more : Alternatives t others rest) :
      Alternatives s (nodes :: others) rest

inductive Sequence : List Char → List Node → List Char → Prop
  | nil (s : List Char) : Sequence s [] s
  | cons {s t rest : List Char} {node : Node} {nodes : List Node} (first : Term s node t)
      (more : Sequence t nodes rest) : Sequence s (node :: nodes) rest

inductive Term : List Char → Node → List Char → Prop
  | assertion {mark : List Char} (known : mark ∈ assertions) (s : List Char) :
      Term (mark ++ s) (.assertion mark) s
  | once {s rest : List Char} {node : Node} (atom : Atom s node rest) : Term s node rest
  | repeated {s count rest : List Char} {node : Node} (atom : Atom s node (count ++ rest))
      (times : Count count) : Term s (.repeated count node) rest

inductive Atom : List Char → Node → List Char → Prop
  | character {c : Char} (plain : c ∉ syntaxCharacters) (s : List Char) :
      Atom (c :: s) (.character c) s
  | anyCharacter (s : List Char) : Atom ('.' :: s) .anyCharacter s
  | escaped {s rest : List Char} {node : Node} (form : Escape s node rest) :
      Atom ('\\' :: s) node rest
  | oneOf {inner : List Char} (inside : Bracketed inner) (s : List Char) :
      Atom ('[' :: (inner ++ ']' :: s)) (.oneOf ('[' :: (inner ++ [']']))) s
  | group {opening s rest : List Char} {alternatives : List (List Node)} (begins : Opening opening)
      (inside : Alternatives s alternatives (')' :: rest)) :
      Atom (opening ++ s) (.group opening alternatives) rest

end

/-- The whole of these characters reads as these alternatives. -/
def Reads (body : List Char) (alternatives : List (List Node)) : Prop :=
  Alternatives body alternatives []

theorem syntaxCharacters_subset : syntaxCharacters ⊆ specials := by decide

theorem not_isWordCharacter (special : c ∈ specials) : isWordCharacter c = false := by
  have checked : specials.all (!isWordCharacter ·) = true := by decide
  simpa using List.all_eq_true.mp checked c special

/-- An escape of a character that is no letter, digit or underscore is that character. -/
theorem Escape.itself_of_cons {s rest : List Char} {node : Node} (h : Escape (c :: s) node rest)
    (plain : isWordCharacter c = false) : node = .character c ∧ rest = s := by
  have apart : ∀ d, isWordCharacter d = true → d ≠ c := by
    intro d word d_eq
    rw [d_eq, plain] at word
    cases word
  cases h with
  | itself => exact ⟨rfl, rfl⟩
  | control known =>
    have letters : controls.all (isWordCharacter ·.1) = true := by decide
    exact absurd rfl (apart c (List.all_eq_true.mp letters _ known))
  | letter => exact absurd rfl (apart 'c' rfl)
  | null => exact absurd rfl (apart '0' rfl)
  | two => exact absurd rfl (apart 'x' rfl)
  | four => exact absurd rfl (apart 'u' rfl)
  | oneOf known =>
    have letters : ['d', 'D', 's', 'S', 'w', 'W'].all isWordCharacter = true := by decide
    exact absurd rfl (apart c (List.all_eq_true.mp letters c known))
  | reference first =>
    have word : isWordCharacter c = true := by
      rw [isWordCharacter, Char.isAlphanum, first, Bool.or_true, Bool.true_or]
    exact absurd rfl (apart c word)
  | named => exact absurd rfl (apart 'k' rfl)

theorem Opening.eq_cons {opening : List Char} (h : Opening opening) : ∃ cs, opening = '(' :: cs := by
  cases h <;> exact ⟨_, rfl⟩

theorem Count.eq_cons {count : List Char} (h : Count count) :
    ∃ d cs, count = d :: cs ∧ d ∈ ['*', '+', '?', '\x7b'] := by
  induction h with
  | @mark c known =>
    have marks : ['*', '+', '?'] ⊆ ['*', '+', '?', '\x7b'] := by decide
    exact ⟨c, [], rfl, marks known⟩
  | exactly => exact ⟨_, _, rfl, by decide⟩
  | between => exact ⟨_, _, rfl, by decide⟩
  | few h ih =>
    have ⟨d, cs, count_eq, known⟩ := ih
    exact ⟨d, cs ++ ['?'], by rw [count_eq]; rfl, known⟩

/-- In front of an escaped text stands the first character of the text, as a part of its own. -/
theorem Atom.of_escape {s rest : List Char} {node : Node} (h : Atom s node rest)
    (hs : s = escapeChar c ++ escape text) : node = .character c ∧ rest = escape text := by
  by_cases special : c ∈ specials
  · rw [escapeChar_of_special special] at hs
    cases h with
    | character plain =>
      have mark : '\\' ∈ syntaxCharacters := by decide
      exact absurd ((List.cons.inj hs).1 ▸ mark) plain
    | anyCharacter => exact absurd (List.cons.inj hs).1 (by decide)
    | escaped form =>
      rw [(List.cons.inj hs).2] at form
      exact form.itself_of_cons (not_isWordCharacter special)
    | oneOf => exact absurd (List.cons.inj hs).1 (by decide)
    | group begins =>
      have ⟨cs, opening_eq⟩ := begins.eq_cons
      rw [opening_eq] at hs
      exact absurd (List.cons.inj hs).1 (by decide)
  · have plain : ∀ d ∈ specials, d ≠ c := fun d hd d_eq => special (d_eq ▸ hd)
    rw [escapeChar_of_plain special] at hs
    cases h with
    | character =>
      have ⟨c_eq, tail⟩ := List.cons.inj hs
      exact ⟨congrArg Node.character c_eq, tail⟩
    | anyCharacter => exact absurd (List.cons.inj hs).1 (plain '.' (by decide))
    | escaped => exact absurd (List.cons.inj hs).1 (plain '\\' (by decide))
    | oneOf => exact absurd (List.cons.inj hs).1 (plain '[' (by decide))
    | group begins =>
      have ⟨cs, opening_eq⟩ := begins.eq_cons
      rw [opening_eq] at hs
      exact absurd (List.cons.inj hs).1 (plain '(' (by decide))

theorem Atom.ne_nil {s rest : List Char} {node : Node} (h : Atom s node rest) : s ≠ [] := by
  cases h with
  | group begins =>
    have ⟨cs, opening_eq⟩ := begins.eq_cons
    rw [opening_eq]
    exact List.cons_ne_nil _ _
  | _ => exact List.cons_ne_nil _ _

theorem Term.ne_nil {s rest : List Char} {node : Node} (h : Term s node rest) : s ≠ [] := by
  cases h with
  | assertion known =>
    have marks : [] ∉ assertions := by decide
    exact fun hs => marks ((List.append_eq_nil_iff.mp hs).1 ▸ known)
  | once atom => exact atom.ne_nil
  | repeated atom => exact atom.ne_nil

theorem not_assertion {mark s : List Char} (known : mark ∈ assertions) :
    mark ++ s ≠ escapeChar c ++ escape text := by
  intro hs
  simp only [assertions, List.mem_cons, List.not_mem_nil, or_false] at known
  by_cases special : c ∈ specials
  · rw [escapeChar_of_special special] at hs
    rcases known with rfl | rfl | rfl | rfl
    · exact absurd (List.cons.inj hs).1 (by decide)
    · exact absurd (List.cons.inj hs).1 (by decide)
    · have c_eq : 'b' = c := (List.cons.inj (List.cons.inj hs).2).1
      exact absurd (c_eq ▸ special) (by decide)
    · have c_eq : 'B' = c := (List.cons.inj (List.cons.inj hs).2).1
      exact absurd (c_eq ▸ special) (by decide)
  · have plain : ∀ d ∈ specials, d ≠ c := fun d hd d_eq => special (d_eq ▸ hd)
    rw [escapeChar_of_plain special] at hs
    rcases known with rfl | rfl | rfl | rfl
    · exact plain '^' (by decide) (List.cons.inj hs).1
    · exact plain '$' (by decide) (List.cons.inj hs).1
    · exact plain '\\' (by decide) (List.cons.inj hs).1
    · exact plain '\\' (by decide) (List.cons.inj hs).1

theorem Term.of_escape {s rest : List Char} {node : Node} (h : Term s node rest)
    (hs : s = escapeChar c ++ escape text) : node = .character c ∧ rest = escape text := by
  cases h with
  | assertion known => exact absurd hs (not_assertion known)
  | once atom => exact atom.of_escape hs
  | @repeated s count rest node atom times =>
    -- no count stands behind the character
    have ⟨d, cs, count_eq, mark⟩ := times.eq_cons
    have marks : ['*', '+', '?', '\x7b'] ⊆ specials := by decide
    have others : '\\' ∉ ['*', '+', '?', '\x7b'] := by decide
    have ⟨_, rest_eq⟩ := atom.of_escape hs
    rw [count_eq] at rest_eq
    have first : (escape text).head? = some d := by rw [← rest_eq]; rfl
    exact absurd rfl (head?_escape_ne (marks mark) (fun d_eq => others (d_eq ▸ mark)) d first)

/-- What is read in front of an escaped text is read character by character. -/
theorem Sequence.of_escape {nodes : List Node} {rest : List Char}
    (h : Sequence (escape text) nodes rest) :
    ∃ front back, text = front ++ back ∧ nodes = front.map .character ∧ rest = escape back := by
  induction text generalizing nodes with
  | nil =>
    generalize hs : escape [] = s at h
    cases h with
    | nil => exact ⟨[], [], rfl, rfl, hs.symm⟩
    | cons first more => exact absurd hs.symm first.ne_nil
  | cons c text ih =>
    generalize hs : escape (c :: text) = s at h
    rw [escape_cons] at hs
    cases h with
    | nil => exact ⟨[], c :: text, rfl, rfl, by rw [escape_cons, hs]⟩
    | cons first more =>
      have ⟨node_eq, t_eq⟩ := first.of_escape hs.symm
      rw [t_eq] at more
      have ⟨front, back, text_eq, nodes_eq, rest_eq⟩ := ih more
      exact ⟨c :: front, back, by rw [text_eq]; rfl, by rw [node_eq, nodes_eq]; rfl, rest_eq⟩

theorem sequence_escape (text : List Char) : Sequence (escape text) (text.map .character) [] := by
  induction text with
  | nil => exact .nil []
  | cons c text ih =>
    rw [escape_cons]
    by_cases special : c ∈ specials
    · rw [escapeChar_of_special special]
      exact .cons (.once (.escaped (.itself (not_isWordCharacter special) _))) ih
    · rw [escapeChar_of_plain special]
      exact .cons (.once (.character (mt (fun mark => syntaxCharacters_subset mark) special) _)) ih

/-- An escaped text reads as its characters and as nothing else. -/
theorem reads_escape_iff (text : List Char) (alternatives : List (List Node)) :
    Reads (escape text) alternatives ↔ alternatives = [text.map .character] := by
  constructor
  · intro h
    cases h with
    | last only =>
      have ⟨front, back, text_eq, nodes_eq, rest_eq⟩ := only.of_escape
      have back_eq := escape_eq_nil_iff.mp rest_eq.symm
      rw [back_eq, List.append_nil] at text_eq
      rw [nodes_eq, text_eq]
    | bar first more =>
      have ⟨front, back, text_eq, nodes_eq, rest_eq⟩ := first.of_escape
      have bar_first : (escape back).head? = some '|' := by rw [← rest_eq]; rfl
      exact absurd rfl (head?_escape_ne (by decide) (by decide) '|' bar_first)
  · intro alternatives_eq
    rw [alternatives_eq]
    exact .last (sequence_escape text)

/-! ## What is escaped -/

/-- The characters without the backslashes in front of them. -/
def unescape : List Char → List Char
  | '\\' :: c :: cs => c :: unescape cs
  | c :: cs => c :: unescape cs
  | [] => []

/-- The characters with no backslash in front of them. -/
def bare : List Char → List Char
  | '\\' :: _ :: cs => bare cs
  | c :: cs => c :: bare cs
  | [] => []

theorem unescape_cons (notBackslash : c ≠ '\\') (cs : List Char) :
    unescape (c :: cs) = c :: unescape cs := by
  rw [unescape]
  rintro d ds rfl
  exact absurd rfl notBackslash

theorem bare_cons (notBackslash : c ≠ '\\') (cs : List Char) : bare (c :: cs) = c :: bare cs := by
  rw [bare]
  rintro d ds rfl
  exact absurd rfl notBackslash

theorem unescape_escape (text : List Char) : unescape (escape text) = text := by
  induction text with
  | nil => rfl
  | cons c text ih =>
    rw [escape_cons]
    by_cases special : c ∈ specials
    · rw [escapeChar_of_special special]
      exact congrArg (c :: ·) ih
    · rw [escapeChar_of_plain special, List.singleton_append,
        unescape_cons (plain_of_not_special special).1, ih]

/-- What is bare in an escaped text are the characters of the text that are not special. -/
theorem bare_escape (text : List Char) : bare (escape text) = text.filter (· ∉ specials) := by
  induction text with
  | nil => rfl
  | cons c text ih =>
    rw [escape_cons]
    by_cases special : c ∈ specials
    · rw [escapeChar_of_special special, List.filter_cons_of_neg (by simpa using special)]
      exact ih
    · rw [escapeChar_of_plain special, List.singleton_append,
        bare_cons (plain_of_not_special special).1, ih,
        List.filter_cons_of_pos (by simpa using special)]

/-- The pattern of a text on one line is a token of its own, which ends at its last slash; its body
reads in one way only, as the characters of the text; nothing special is bare in it, and without the
backslashes it is the text. -/
theorem reads_verbatim {text : String} (nonempty : text ≠ "")
    (sameLine : ∀ c ∈ text.toList, endsLine c = false) :
    (∀ (after rest : List Char) (token : Token),
      Begins ((literal text).toList ++ after) token rest ↔
        token = .pattern (source text).toList ∧ rest = 'i' :: after) ∧
    (∀ alternatives : List (List Node),
      Reads (source text).toList alternatives ↔ alternatives = [text.toList.map .character]) ∧
    (∀ c ∈ bare (source text).toList, c ∉ syntaxCharacters ∧ c ≠ '/') ∧
    unescape (source text).toList = text.toList ∧
    ∀ other : String, source other = source text → other = text := by
  have source_eq : ∀ other : String, (source other).toList = escape other.toList := fun other =>
    String.toList_ofList
  have nonempty' : text.toList ≠ [] := fun h => nonempty (String.toList_eq_nil_iff.mp h)
  refine ⟨fun after rest token => ?_, fun alternatives => ?_, fun c hc => ?_, ?_, fun other same => ?_⟩
  · rw [toList_literal, source_eq, List.cons_append, List.append_assoc]
    exact begins_escape_iff nonempty' sameLine
  · rw [source_eq]
    exact reads_escape_iff text.toList alternatives
  · rw [source_eq, bare_escape, List.mem_filter, decide_eq_true_eq] at hc
    have slash : '/' ∈ specials := by decide
    exact ⟨mt (fun mark => syntaxCharacters_subset mark) hc.2, fun c_eq => hc.2 (c_eq ▸ slash)⟩
  · rw [source_eq, unescape_escape]
  · apply String.toList_inj.mp
    rw [← unescape_escape other.toList, ← unescape_escape text.toList, ← source_eq, ← source_eq, same]

/-- A text full of marks, with a letter behind a backslash and a backslash at the end. -/
def markedText : String := "*\\d[^/]\x7b2\x7d|(?=$)+.é😀\\"

theorem reads_verbatim_markedText :
    markedText ≠ "" ∧ (∀ c ∈ markedText.toList, endsLine c = false) ∧
      Begins ((literal markedText).toList ++ [')', ';']) (.pattern (source markedText).toList)
        ['i', ')', ';'] ∧
      Reads (source markedText).toList [markedText.toList.map .character] ∧
      unescape (source markedText).toList = markedText.toList := by
  have nonempty : markedText ≠ "" := by decide
  have sameLine : ∀ c ∈ markedText.toList, endsLine c = false := by
    have checked : markedText.toList.all (!endsLine ·) = true := by decide +kernel
    intro c hc
    simpa using List.all_eq_true.mp checked c hc
  have ⟨token, reading, _, unescaped, _⟩ := reads_verbatim nonempty sameLine
  exact ⟨nonempty, sameLine, (token _ _ _).mpr ⟨rfl, rfl⟩, (reading _).mpr rfl, unescaped⟩

end SuiteDraft.Pattern
