import SuiteDraft.Text.Blank
import SuiteDraft.Text.DigitTable

/-!
Integers written in a base up to sixteen: blanks around, a sign, the base's mark, and digits with
single underscores between them. The digits zero to nine may be those of any script.
-/

namespace SuiteDraft.Text

def decimalValue? (c : Char) : Option Nat :=
  (decimalZeros.find? fun first => first ≤ c.toNat && c.toNat < first + 10).map (c.toNat - ·)

-- The value of a digit: a decimal digit of any script, or a Latin letter counted from ten on.
def digitValue? (c : Char) : Option Nat :=
  if 'a' ≤ c && c ≤ 'z' then some (c.toNat - 'a'.toNat + 10)
  else if 'A' ≤ c && c ≤ 'Z' then some (c.toNat - 'A'.toNat + 10)
  else decimalValue? c

-- Reads further digits onto `value`; an underscore stands between two digits only.
def readDigits (base value : Nat) : List Char → Option Nat
  | [] => some value
  | '_' :: c :: rest =>
    match digitValue? c with
    | some d => if d < base then readDigits base (value * base + d) rest else none
    | none => none
  | c :: rest =>
    match digitValue? c with
    | some d => if d < base then readDigits base (value * base + d) rest else none
    | none => none

def readNat? (base : Nat) : List Char → Option Nat
  | [] => none
  | c :: rest =>
    match digitValue? c with
    | some d => if d < base then readDigits base d rest else none
    | none => none

-- The digits after the mark `0x` of base sixteen, or the text itself: the mark may be left out, and
-- an underscore may follow it.
def afterMark (base : Nat) (s : List Char) : List Char :=
  match base, s with
  | 16, '0' :: 'x' :: '_' :: rest => rest
  | 16, '0' :: 'X' :: '_' :: rest => rest
  | 16, '0' :: 'x' :: rest => rest
  | 16, '0' :: 'X' :: rest => rest
  | _, s => s

-- A blank that may stand around a number; the four information separators may not.
def isMargin (c : Char) : Bool := isBlank c && !(28 ≤ c.toNat && c.toNat ≤ 31)

def withoutMargin (s : List Char) : List Char :=
  ((s.dropWhile isMargin).reverse.dropWhile isMargin).reverse

-- Reads an integer written in `base`, with blanks around it and one sign before it.
def readInteger? (base : Nat) (s : List Char) : Option Int :=
  match withoutMargin s with
  | '-' :: rest => (readNat? base (afterMark base rest)).map fun n => -(n : Int)
  | '+' :: rest => (readNat? base (afterMark base rest)).map fun n => (n : Int)
  | rest => (readNat? base (afterMark base rest)).map fun n => (n : Int)

example : readInteger? 16 " -0x_1f ".toList = some (-31) := by decide
example : readInteger? 10 "1_0".toList = some 10 := by decide
example : readInteger? 10 "1__0".toList = none := by decide
example : readInteger? 10 "\x1c1".toList = none := by decide
example : readInteger? 16 "0x".toList = none := by decide

end SuiteDraft.Text
