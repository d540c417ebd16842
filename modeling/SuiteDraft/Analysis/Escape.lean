import SuiteDraft.Analysis.Error
import SuiteDraft.Text.Integer

/-!
Escape sequences of string literals: a backslash and a body. A body of one known letter is a
control, a body that begins with `x` or `u` may name a code point, a body that begins with a line
break is nothing, and any other body stands for itself.
-/

namespace SuiteDraft.Escape

def control? (c : Char) : Option Nat :=
  if c == 'n' then some 10
  else if c == 't' then some 9
  else if c == 'r' then some 13
  else if c == 'b' then some 8
  else if c == 'f' then some 12
  else if c == 'v' then some 11
  else if c == '0' then some 0
  else none

def isLineBreak (c : Char) : Bool := c == '\r' || c == '\n' || c == '\u2028' || c == '\u2029'

def isBrace (c : Char) : Bool := c == '\x7b' || c == '\x7d'

def unbraced (s : List Char) : List Char :=
  ((s.dropWhile isBrace).reverse.dropWhile isBrace).reverse

def codePoints (s : List Char) : List Nat := s.map Char.toNat

/-- The code points of a body that begins with `x` or `u`: the one that its digits in base sixteen
name; without such digits, or with a number that is no code point, those of the body itself. -/
def numbered (body digits : List Char) : Except LiteralError (List Nat) :=
  match Text.readInteger? 16 (unbraced digits) with
  | none => .ok (codePoints body)
  | some n =>
    if 2147483647 < n || n < -2147483648 then .error .escapeTooLarge
    else if 0 ≤ n && n ≤ 0x10FFFF then .ok [n.toNat]
    else .ok (codePoints body)

def decodeBody (body : List Char) : Except LiteralError (List Nat) :=
  match body with
  | [] => .ok []
  | head :: rest =>
    if isLineBreak head then .ok []
    else
      match rest, control? head with
      | [], some n => .ok [n]
      | _, _ => if head == 'x' || head == 'u' then numbered body rest else .ok (codePoints body)

/-- The code points of an escape sequence; a half of a pair may be among them. -/
def decode (sequence : List Char) : Except LiteralError (List Nat) := decodeBody (sequence.drop 1)

example : decode "\\x41".toList = .ok [65] := rfl
example : decode "\\u\x7b1F600\x7d".toList = .ok [0x1F600] := rfl
example : decode "\\u\x7b80000000\x7d".toList = .error .escapeTooLarge := rfl
example : decode "\\12".toList = .ok [49, 50] := rfl

end SuiteDraft.Escape
