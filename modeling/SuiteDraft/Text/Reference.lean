import SuiteDraft.Text.Integer
import SuiteDraft.Text.ReferenceTable
import SuiteDraft.Text.Units

/-!
Character references of HTML. A number names a code point, with the corrections that the standard
makes; a name is looked up in the standard's table, and the longest known beginning of an unknown
name counts.
-/

namespace SuiteDraft.Text

-- The characters that the numbers 0x80 to 0x9F name, where the standard corrects them.
def correctedReferences : List (Nat × Nat) := [
  (0x00, 0xFFFD), (0x0D, 0x0D), (0x80, 0x20AC), (0x81, 0x81), (0x82, 0x201A), (0x83, 0x0192),
  (0x84, 0x201E), (0x85, 0x2026), (0x86, 0x2020), (0x87, 0x2021), (0x88, 0x02C6), (0x89, 0x2030),
  (0x8A, 0x0160), (0x8B, 0x2039), (0x8C, 0x0152), (0x8D, 0x8D), (0x8E, 0x017D), (0x8F, 0x8F),
  (0x90, 0x90), (0x91, 0x2018), (0x92, 0x2019), (0x93, 0x201C), (0x94, 0x201D), (0x95, 0x2022),
  (0x96, 0x2013), (0x97, 0x2014), (0x98, 0x02DC), (0x99, 0x2122), (0x9A, 0x0161), (0x9B, 0x203A),
  (0x9C, 0x0153), (0x9D, 0x9D), (0x9E, 0x017E), (0x9F, 0x0178)]

-- A number that names a control or a noncharacter, and so nothing.
def namesNothing (n : Nat) : Bool :=
  (1 ≤ n && n ≤ 8) || n == 0xB || (0xE ≤ n && n ≤ 0x1F) || (0x7F ≤ n && n ≤ 0x9F) ||
    (0xFDD0 ≤ n && n ≤ 0xFDEF) || n % 0x10000 == 0xFFFE || n % 0x10000 == 0xFFFF

def numberedReference (n : Nat) : List Char :=
  match correctedReferences.lookup n with
  | some m => [Char.ofNat m]
  | none =>
    if (0xD800 ≤ n && n ≤ 0xDFFF) || 0x10FFFF < n then [replacement]
    else if namesNothing n then []
    else [Char.ofNat n]

-- The text that a name stands for; without its semicolon only some names count.
def namedReference? (name : List Char) : Option (List Char) :=
  match name with
  | [] => none
  | initial :: _ =>
    if name.getLast? == some ';' then
      ((referencesFrom initial).lookup (String.ofList name.dropLast)).map (·.map Char.ofNat)
    else
      let s := String.ofList name
      if openReferences.contains s then
        ((referencesFrom initial).lookup s).map (·.map Char.ofNat)
      else none

-- The text of the longest beginning of `name`, of `length` characters or fewer and of two at least,
-- that is known, followed by what is left of the name.
def longestReference? (name : List Char) : Nat → Option (List Char)
  | 0 => none
  | 1 => none
  | n + 1 =>
    match namedReference? (name.take (n + 1)) with
    | some text => some (text ++ name.drop (n + 1))
    | none => longestReference? name n

-- The text that a name stands for; an unknown one stands for itself.
def nameReference (name : List Char) : List Char :=
  match namedReference? name with
  | some text => text
  | none => (longestReference? name (name.length - 1)).getD ('&' :: name)

def isReferenceChar (c : Char) : Bool :=
  !(c == '\t' || c == '\n' || c == '\x0c' || c == ' ' || c == '<' || c == '&' || c == '#'
    || c == ';')

def splitSemicolon (s : List Char) : List Char × List Char :=
  match s with
  | ';' :: rest => ([';'], rest)
  | rest => ([], rest)

def digitsValue (base : Nat) (s : List Char) : Nat := (readNat? base s).getD 0

-- Reads one reference after its ampersand: the text it stands for, and what follows.
def readReference? (s : List Char) : Option (List Char × List Char) :=
  match s with
  | '#' :: rest =>
    let digits := rest.takeWhile fun c => '0' ≤ c && c ≤ '9'
    if !digits.isEmpty then
      some (numberedReference (digitsValue 10 digits), (splitSemicolon (rest.drop digits.length)).2)
    else
      match rest with
      | x :: more =>
        let hex := more.takeWhile fun c =>
          ('0' ≤ c && c ≤ '9') || ('a' ≤ c && c ≤ 'f') || ('A' ≤ c && c ≤ 'F')
        if (x == 'x' || x == 'X') && !hex.isEmpty then
          some (numberedReference (digitsValue 16 hex), (splitSemicolon (more.drop hex.length)).2)
        else none
      | [] => none
  | s =>
    let name := (s.takeWhile isReferenceChar).take 32
    if name.isEmpty then none
    else
      let (semicolon, rest) := splitSemicolon (s.drop name.length)
      some (nameReference (name ++ semicolon), rest)

-- Resolves the references of a text of at most `fuel` characters.
def resolveWithin : Nat → List Char → List Char
  | 0, s => s
  | _, [] => []
  | fuel + 1, '&' :: rest =>
    match readReference? rest with
    | some (text, rest) => text ++ resolveWithin fuel rest
    | none => '&' :: resolveWithin fuel rest
  | fuel + 1, c :: rest => c :: resolveWithin fuel rest

def resolveReferences (s : String) : String :=
  String.ofList (resolveWithin s.length s.toList)

example : resolveReferences "&amp;&lt" = "&<" := by decide +kernel
example : resolveReferences "&notit;" = "¬it;" := by decide +kernel
example : resolveReferences "&#x80;&#1;&#xD800;&nope;" = "€\ufffd&nope;" := by decide +kernel

end SuiteDraft.Text
