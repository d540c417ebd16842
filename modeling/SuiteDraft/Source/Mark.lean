import SuiteDraft.Source.Glyph
import SuiteDraft.Tree.Basic

/-!
A source as a list of marks: each character with its place and with the number of characters from it
to the end. What a parser has left to read is a tail of this list.
-/

namespace SuiteDraft

/-- A character of a source: where it stands, how many characters are left from here on, itself
included, and whether its bytes were in order. -/
structure Mark where
  char : Char
  left : Nat
  position : Position
  sound : Bool

abbrev Input := List Mark

namespace Input

def advance (p : Position) (g : Glyph) : Position :=
  if g.char == '\n' then ⟨p.row + 1, 0⟩ else ⟨p.row, p.column + g.width⟩

def marksFrom : Position → Nat → List Glyph → Input
  | _, _, [] => []
  | p, left, g :: rest =>
    ⟨g.char, left, p, g.sound⟩ :: marksFrom (advance p g) (left - 1) rest

def ofGlyphs (glyphs : List Glyph) : Input := marksFrom ⟨0, 0⟩ glyphs.length glyphs

def left : Input → Nat
  | [] => 0
  | m :: _ => m.left

def position : Input → Position
  | [] => ⟨0, 0⟩
  | m :: _ => m.position

def upTo (start rest : Input) : String :=
  String.ofList ((start.take (start.left - rest.left)).map (·.char))

def startsWith : Input → List Char → Bool
  | _, [] => true
  | [], _ :: _ => false
  | m :: rest, c :: cs => m.char == c && startsWith rest cs

-- What is left from the first character on that fails the test.
def skipWhile (p : Char → Bool) : Input → Input
  | [] => []
  | m :: rest => if p m.char then skipWhile p rest else m :: rest

end Input

end SuiteDraft
