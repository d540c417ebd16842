import Mathlib.Tactic
import SuiteDraft.Analysis.Escape
import SuiteDraft.Grammar.Lexeme
import SuiteDraft.Text.Quoted

/-!
# Numbers in base sixteen

A run of digits is read as the number that it spells. What else the reading of an integer allows,
such as blanks, a sign, a mark of the base or an underscore, begins with no digit.
-/

namespace SuiteDraft.Text

open Grammar (isHexDigit)

/-- The value of a digit in base sixteen. -/
def hexDigitValue (c : Char) : Nat :=
  if c ≤ '9' then c.toNat - '0'.toNat
  else if c ≤ 'F' then c.toNat - 'A'.toNat + 10
  else c.toNat - 'a'.toNat + 10

def hexValue (digits : List Char) : Nat := digits.foldl (fun n c => n * 16 + hexDigitValue c) 0

theorem toNat_of_isHexDigit {c : Char} (h : isHexDigit c = true) : c.toNat < 103 := by
  simp only [isHexDigit, Char.isDigit, Bool.or_eq_true, Bool.and_eq_true, decide_eq_true_eq,
    Char.le_def, UInt32.le_iff_toNat_le] at h
  have number : c.val.toNat = c.toNat := rfl
  have last : 'f'.val.toNat = 102 := rfl
  have nine : '9'.val.toNat = 57 := rfl
  have upper : 'F'.val.toNat = 70 := rfl
  omega

-- What is to be shown of digits is checked on the characters up to the last of them.
theorem of_isHexDigit {P : Char → Prop}
    (check : ∀ n < 103, isHexDigit (Char.ofNat n) = true → P (Char.ofNat n)) {c : Char}
    (h : isHexDigit c = true) : P c := by
  have checked := check c.toNat (toNat_of_isHexDigit h)
  rw [Char.ofNat_toNat] at checked
  exact checked h

theorem digitValue?_hex {c : Char} (h : isHexDigit c = true) : digitValue? c = some (hexDigitValue c) :=
  of_isHexDigit (P := fun c => digitValue? c = some (hexDigitValue c)) (by decide +kernel) h

theorem hexDigitValue_lt {c : Char} (h : isHexDigit c = true) : hexDigitValue c < 16 :=
  of_isHexDigit (P := fun c => hexDigitValue c < 16) (by decide +kernel) h

-- A character with which nothing but digits begins.
def isPlain (c : Char) : Bool :=
  !(isMargin c || Escape.isBrace c || c == '-' || c == '+' || c == '_' || c == 'x' || c == 'X')

theorem isPlain_hex {c : Char} (h : isHexDigit c = true) : isPlain c = true :=
  of_isHexDigit (P := fun c => isPlain c = true) (by decide +kernel) h

variable {c : Char} {digits : List Char}

theorem isMargin_of_isPlain (h : isPlain c = true) : isMargin c = false := by
  simp only [isPlain, Bool.not_eq_true', Bool.or_eq_false_iff] at h
  simp [h]

theorem isBrace_of_isPlain (h : isPlain c = true) : Escape.isBrace c = false := by
  simp only [isPlain, Bool.not_eq_true', Bool.or_eq_false_iff] at h
  simp [h]

theorem ne_of_isPlain (h : isPlain c = true) :
    c ≠ '-' ∧ c ≠ '+' ∧ c ≠ '_' ∧ c ≠ 'x' ∧ c ≠ 'X' := by
  simp only [isPlain, Bool.not_eq_true', Bool.or_eq_false_iff, beq_eq_false_iff_ne] at h
  simp [h]

theorem dropWhile_none {p : Char → Bool} (h : ∀ c ∈ digits, p c = false) :
    digits.dropWhile p = digits := by
  cases digits with
  | nil => rfl
  | cons c rest => rw [List.dropWhile_cons, h c List.mem_cons_self]; rfl

theorem trimmed_none {p : Char → Bool} (h : ∀ c ∈ digits, p c = false) :
    ((digits.dropWhile p).reverse.dropWhile p).reverse = digits := by
  rw [dropWhile_none h, dropWhile_none, List.reverse_reverse]
  intro c hc
  exact h c (List.mem_reverse.mp hc)

theorem afterMark_eq (h : ∀ c ∈ digits, c ≠ 'x' ∧ c ≠ 'X') (base : Nat) :
    afterMark base digits = digits := by
  unfold afterMark
  split
  case h_5 => rfl
  all_goals simp at h

theorem readDigits_hex (h : ∀ c ∈ digits, isHexDigit c = true) (value : Nat) :
    readDigits 16 value digits = some (digits.foldl (fun n c => n * 16 + hexDigitValue c) value) := by
  induction digits generalizing value with
  | nil => rfl
  | cons c rest ih =>
    have hc := h c List.mem_cons_self
    have rest_eq := ih fun d hd => h d (List.mem_cons_of_mem _ hd)
    rw [readDigits, digitValue?_hex hc, List.foldl_cons]
    · simp only [if_pos (hexDigitValue_lt hc)]
      exact rest_eq _
    · intro d rest' underscore
      exact absurd underscore (ne_of_isPlain (isPlain_hex hc)).2.2.1

theorem readNat?_hex (h : ∀ c ∈ digits, isHexDigit c = true) (nonempty : digits ≠ []) :
    readNat? 16 digits = some (hexValue digits) := by
  cases digits with
  | nil => exact absurd rfl nonempty
  | cons c rest =>
    have hc := h c List.mem_cons_self
    simp only [readNat?, digitValue?_hex hc, if_pos (hexDigitValue_lt hc), hexValue, List.foldl_cons,
      Nat.zero_mul, Nat.zero_add]
    exact readDigits_hex (fun d hd => h d (List.mem_cons_of_mem _ hd)) _

theorem readInteger?_hex (h : ∀ c ∈ digits, isHexDigit c = true) (nonempty : digits ≠ []) :
    readInteger? 16 digits = some (hexValue digits : Int) := by
  have plain : ∀ c ∈ digits, isPlain c = true := fun c hc => isPlain_hex (h c hc)
  have margin : withoutMargin digits = digits :=
    trimmed_none fun c hc => isMargin_of_isPlain (plain c hc)
  have mark := afterMark_eq (fun c hc => (ne_of_isPlain (plain c hc)).2.2.2) 16
  rw [readInteger?, margin]
  split
  next rest => exact absurd rfl (ne_of_isPlain (plain '-' List.mem_cons_self)).1
  next rest => exact absurd rfl (ne_of_isPlain (plain '+' List.mem_cons_self)).2.1
  next => rw [mark, readNat?_hex h nonempty]; rfl

theorem foldl_hex_lt (h : ∀ c ∈ digits, isHexDigit c = true) (value : Nat) :
    digits.foldl (fun n c => n * 16 + hexDigitValue c) value < (value + 1) * 16 ^ digits.length := by
  induction digits generalizing value with
  | nil => simp
  | cons c rest ih =>
    have digit := hexDigitValue_lt (h c List.mem_cons_self)
    have rest_lt := ih (fun d hd => h d (List.mem_cons_of_mem _ hd)) (value * 16 + hexDigitValue c)
    rw [List.foldl_cons]
    calc _ < (value * 16 + hexDigitValue c + 1) * 16 ^ rest.length := rest_lt
      _ ≤ ((value + 1) * 16) * 16 ^ rest.length := Nat.mul_le_mul_right _ (by omega)
      _ = (value + 1) * 16 ^ (c :: rest).length := by rw [List.length_cons, pow_succ]; ring

theorem hexValue_lt (h : ∀ c ∈ digits, isHexDigit c = true) :
    hexValue digits < 16 ^ digits.length := by
  have bound := foldl_hex_lt h 0
  rwa [Nat.zero_add, Nat.one_mul] at bound

/-! ### Digits as they are written -/

theorem hexDigitValue_hexDigit : ∀ d < 16, hexDigitValue (hexDigit d) = d := by decide +kernel

theorem isHexDigit_hexDigit : ∀ d < 16, isHexDigit (hexDigit d) = true := by decide +kernel

theorem length_hexDigits (width n : Nat) : (hexDigits width n).length = width := by
  induction width generalizing n with
  | zero => rfl
  | succ width ih => rw [hexDigits, List.length_append, ih, List.length_singleton]

theorem isHexDigit_of_mem_hexDigits {width n : Nat} (h : c ∈ hexDigits width n) :
    isHexDigit c = true := by
  induction width generalizing n with
  | zero => cases h
  | succ width ih =>
    rcases List.mem_append.mp h with front | last
    · exact ih front
    · rw [List.mem_singleton.mp last]
      exact isHexDigit_hexDigit _ (Nat.mod_lt _ (by decide))

theorem hexValue_append (digits : List Char) (c : Char) :
    hexValue (digits ++ [c]) = hexValue digits * 16 + hexDigitValue c := by
  rw [hexValue, List.foldl_append]
  rfl

/-- The digits that are written of a number spell it, up to what more digits would hold. -/
theorem hexValue_hexDigits (width n : Nat) : hexValue (hexDigits width n) = n % 16 ^ width := by
  induction width generalizing n with
  | zero => rw [Nat.pow_zero, Nat.mod_one]; rfl
  | succ width ih =>
    rw [hexDigits, hexValue_append, ih, hexDigitValue_hexDigit _ (Nat.mod_lt _ (by decide)),
      Nat.pow_succ, Nat.mul_comm (16 ^ width) 16, Nat.mod_mul]
    omega

end SuiteDraft.Text
