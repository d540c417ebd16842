import SuiteDraft.Proofs.Text.Hexadecimal
import SuiteDraft.Proofs.Text.Units

/-!
# The parts of a string literal

What may stand between the quotes of a literal in strict code: characters as they are, escapes of
every form, and line breaks behind a backslash. Each part says how it is written and which sixteen-bit
units it stands for. Decoding what is written of an escape gives the code points of its part.
-/

namespace SuiteDraft.Literal

open Escape (codePoints decode)
open Grammar (isHexDigit)
open Text (hexValue unitsOf)

/-- The control characters that have a letter of their own. -/
inductive Control where
  | null
  | backspace
  | tab
  | lineFeed
  | verticalTab
  | formFeed
  | carriageReturn
  deriving DecidableEq

namespace Control

instance : Fintype Control where
  elems := {null, backspace, tab, lineFeed, verticalTab, formFeed, carriageReturn}
  complete k := by cases k <;> decide

def letter : Control → Char
  | null => '0'
  | backspace => 'b'
  | tab => 't'
  | lineFeed => 'n'
  | verticalTab => 'v'
  | formFeed => 'f'
  | carriageReturn => 'r'

def point : Control → Nat
  | null => 0
  | backspace => 8
  | tab => 9
  | lineFeed => 10
  | verticalTab => 11
  | formFeed => 12
  | carriageReturn => 13

end Control

/-- The sequences that end a line. -/
inductive LineEnd where
  | lineFeed
  | carriageReturn
  | both
  | lineSeparator
  | paragraphSeparator
  deriving DecidableEq

def LineEnd.chars : LineEnd → List Char
  | lineFeed => ['\n']
  | carriageReturn => ['\r']
  | both => ['\r', '\n']
  | lineSeparator => ['\u2028']
  | paragraphSeparator => ['\u2029']

/-- The escapes with a fixed number of digits. -/
inductive Width where
  | two
  | four
  deriving DecidableEq

namespace Width

def letter : Width → Char
  | two => 'x'
  | four => 'u'

def count : Width → Nat
  | two => 2
  | four => 4

end Width

/-- A part of a string literal. -/
inductive Part where
  /-- A character as it is. -/
  | raw (c : Char)
  /-- A backslash and the letter of a control character. -/
  | control (k : Control)
  /-- A backslash and a character that stands for itself. -/
  | itself (c : Char)
  /-- A unit by so many digits. -/
  | unit (w : Width) (digits : List Char)
  /-- A code point by digits in braces. -/
  | point (digits : List Char)
  /-- A backslash at the end of a line, which goes on in the next one. -/
  | joined (e : LineEnd)
  deriving DecidableEq

namespace Part

def write : Part → List Char
  | raw c => [c]
  | control k => ['\\', k.letter]
  | itself c => ['\\', c]
  | unit w digits => '\\' :: w.letter :: digits
  | point digits => '\\' :: 'u' :: '\x7b' :: digits ++ ['\x7d']
  | joined e => '\\' :: e.chars

/-- The code point that a part names; it may be half of a pair. -/
def points : Part → List Nat
  | raw c => [c.toNat]
  | control k => [k.point]
  | itself c => [c.toNat]
  | unit _ digits => [hexValue digits]
  | point digits => [hexValue digits]
  | joined _ => []

/-- The units that a part stands for. -/
def units (p : Part) : List Nat := p.points.flatMap unitsOf

/-- A part that may stand in a literal between these quotes in strict code. -/
def Valid (quote : Char) : Part → Prop
  | raw c => c ≠ quote ∧ c ≠ '\\' ∧ c ≠ '\n' ∧ c ≠ '\r'
  | control _ => True
  | itself c => c.isDigit = false ∧ c ≠ 'x' ∧ c ≠ 'u' ∧ Grammar.endsLine c = false ∧
      ∀ k : Control, c ≠ k.letter
  | unit w digits => digits.length = w.count ∧ ∀ c ∈ digits, isHexDigit c = true
  | point digits => digits ≠ [] ∧ (∀ c ∈ digits, isHexDigit c = true) ∧ hexValue digits ≤ 0x10FFFF
  | joined _ => True

instance (quote : Char) (p : Part) : Decidable (p.Valid quote) :=
  match p with
  | raw _ => inferInstanceAs (Decidable (_ ∧ _))
  | control _ => instDecidableTrue
  | itself _ => inferInstanceAs (Decidable (_ ∧ _))
  -- The digits are looked through, and not the characters that there are.
  | unit _ digits => @instDecidableAnd _ _ _ (List.decidableBAll _ digits)
  | point digits => @instDecidableAnd _ _ _ (@instDecidableAnd _ _ (List.decidableBAll _ digits) _)
  | joined _ => instDecidableTrue

def IsRaw (p : Part) : Prop := ∃ c, p = raw c

def isDigit : Part → Bool
  | raw c => c.isDigit
  | _ => false

end Part

/-- The parts of a literal in strict code: no digit stands right after a null. -/
structure Strict (quote : Char) (parts : List Part) : Prop where
  valid : ∀ p ∈ parts, p.Valid quote
  apart : parts.IsChain fun p q => p = .control .null → q.isDigit = false

theorem Width.count_le (w : Width) : w.count ≤ 4 := by cases w <;> decide

theorem hexValue_le {w : Width} {digits : List Char} (length_eq : digits.length = w.count)
    (hex : ∀ c ∈ digits, isHexDigit c = true) : hexValue digits ≤ 0x10FFFF := by
  have bound := Text.hexValue_lt hex
  have power := Nat.pow_le_pow_right (show 0 < 16 by omega) (length_eq ▸ w.count_le)
  omega

theorem Part.points_le {quote : Char} {p : Part} (valid : p.Valid quote) :
    ∀ n ∈ p.points, n ≤ 0x10FFFF := by
  have char_le : ∀ c : Char, c.toNat ≤ 0x10FFFF := fun c => by
    have := Text.toNat_point c
    omega
  cases p <;> simp only [points, List.mem_singleton, forall_eq, List.not_mem_nil, false_implies,
    implies_true]
  case raw c => exact char_le c
  case control k => cases k <;> decide
  case itself c => exact char_le c
  case unit w digits => exact hexValue_le valid.1 valid.2
  case point digits => exact valid.2.2

/-! ### Decoding -/

theorem control?_eq_none {c : Char} (h : ∀ k : Control, c ≠ k.letter) :
    Escape.control? c = none := by
  have null := h .null
  have backspace := h .backspace
  have tab := h .tab
  have lineFeed := h .lineFeed
  have verticalTab := h .verticalTab
  have formFeed := h .formFeed
  have carriageReturn := h .carriageReturn
  simp only [Control.letter] at *
  simp [Escape.control?, *]

theorem isLineBreak_eq (c : Char) : Escape.isLineBreak c = Grammar.endsLine c := by
  rw [Escape.isLineBreak, Grammar.endsLine, Bool.or_comm (c == '\r')]

theorem decode_itself {c : Char} (lineEnd : Grammar.endsLine c = false) (x : c ≠ 'x') (u : c ≠ 'u')
    (letter : ∀ k : Control, c ≠ k.letter) : decode ['\\', c] = .ok [c.toNat] := by
  simp [decode, Escape.decodeBody, isLineBreak_eq, lineEnd, control?_eq_none letter, x, u,
    codePoints]

theorem unbraced_hex {digits : List Char} (hex : ∀ c ∈ digits, isHexDigit c = true) :
    Escape.unbraced digits = digits :=
  Text.trimmed_none fun c hc => Text.isBrace_of_isPlain (Text.isPlain_hex (hex c hc))

theorem unbraced_braced {digits : List Char} (hex : ∀ c ∈ digits, isHexDigit c = true)
    (nonempty : digits ≠ []) : Escape.unbraced ('\x7b' :: digits ++ ['\x7d']) = digits := by
  have inner : ∀ c ∈ digits, Escape.isBrace c = false := fun c hc =>
    Text.isBrace_of_isPlain (Text.isPlain_hex (hex c hc))
  have left_eq : ('\x7b' :: digits ++ ['\x7d']).dropWhile Escape.isBrace = digits ++ ['\x7d'] := by
    cases digits with
    | nil => exact absurd rfl nonempty
    | cons c rest =>
      have first := inner c List.mem_cons_self
      simp [show Escape.isBrace '\x7b' = true by rfl, first]
  have right_eq : (digits ++ ['\x7d']).reverse.dropWhile Escape.isBrace = digits.reverse := by
    rw [List.reverse_append]
    exact Text.dropWhile_none fun c hc => inner c (List.mem_reverse.mp hc)
  rw [Escape.unbraced, left_eq, right_eq, List.reverse_reverse]

theorem numbered_hex {body digits inner : List Char} (inner_eq : Escape.unbraced digits = inner)
    (hex : ∀ c ∈ inner, isHexDigit c = true) (nonempty : inner ≠ [])
    (range : hexValue inner ≤ 0x10FFFF) :
    Escape.numbered body digits = .ok [hexValue inner] := by
  have small : ¬ (2147483647 < (hexValue inner : Int) ∨ (hexValue inner : Int) < -2147483648) := by
    omega
  have point : 0 ≤ (hexValue inner : Int) ∧ (hexValue inner : Int) ≤ 0x10FFFF := by
    omega
  simp only [Escape.numbered, inner_eq, Text.readInteger?_hex hex nonempty, small, point, if_true,
    if_false, Bool.or_eq_true, Bool.and_eq_true, decide_eq_true_eq, Int.toNat_natCast, and_self]

theorem decode_marked {mark : Char} (h : mark = 'x' ∨ mark = 'u') (digits : List Char) :
    decode ('\\' :: mark :: digits) = Escape.numbered (mark :: digits) digits := by
  cases h with
  | inl x => subst x; cases digits <;> rfl
  | inr u => subst u; cases digits <;> rfl

/-- An escape that is decoded as it is written stands for the points of its part. -/
theorem decode_write {quote : Char} {p : Part} (valid : p.Valid quote) (escape : ¬ p.IsRaw) :
    decode p.write = .ok p.points := by
  cases p with
  | raw c => exact absurd ⟨c, rfl⟩ escape
  | control k => cases k <;> rfl
  | itself c =>
    have ⟨_, x, u, lineEnd, letter⟩ := valid
    exact decode_itself lineEnd x u letter
  | unit w digits =>
    have nonempty : digits ≠ [] := by
      have := valid.1
      cases w <;> cases digits <;> simp [Width.count] at *
    have mark : w.letter = 'x' ∨ w.letter = 'u' := by cases w <;> simp [Width.letter]
    rw [Part.write, decode_marked mark]
    exact numbered_hex (unbraced_hex valid.2) valid.2 nonempty (hexValue_le valid.1 valid.2)
  | point digits =>
    have ⟨nonempty, hex, range⟩ := valid
    rw [Part.write, List.cons_append, List.cons_append, decode_marked (.inr rfl)]
    exact numbered_hex (unbraced_braced hex nonempty) hex nonempty range
  | joined e => cases e <;> rfl

end SuiteDraft.Literal
