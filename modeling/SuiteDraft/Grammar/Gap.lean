import SuiteDraft.Source.Mark

/-!
The gaps between the words of a source: blanks and comments. A gap remembers whether it breaks the
line, for a line break may take the place of a semicolon.
-/

namespace SuiteDraft.Grammar

-- The blanks of the C library, which alone are looked through for a line break.
def isPlainBlank (c : Char) : Bool :=
  let n := c.toNat
  (9 ≤ n && n ≤ 13) || n == 32 || n == 0x1680 || (0x2000 ≤ n && n ≤ 0x2006) ||
    (0x2008 ≤ n && n ≤ 0x200A) || n == 0x2028 || n == 0x2029 || n == 0x205F || n == 0x3000

-- The blanks of the grammar: those, the spaces that do not break, and three marks of no width.
def isGapBlank (c : Char) : Bool :=
  let n := c.toNat
  isPlainBlank c || n == 0xA0 || n == 0x2007 || n == 0x202F || n == 0xFEFF || n == 0x2060 ||
    n == 0x200B

def endsLine (c : Char) : Bool := c == '\n' || c == '\r' || c == '\u2028' || c == '\u2029'

/-- A gap: whether it breaks the line, and what follows it. -/
structure Gap where
  breaks : Bool
  rest : Input

/-- Where in a gap one stands: among blanks, right after a slash at `start`, in a line comment, or in
a block comment that began at `start`, right after a star or not. -/
inductive GapState where
  | blank
  | slash (start : Input)
  | line
  | block (start : Input) (star : Bool)

/-- The rest of a gap. It breaks the line if a line feed stands among its blanks, unless a blank
that is not plain comes before it; a comment is no blank and clears the way again. A block comment
that is never closed is none. -/
def gapFrom (state : GapState) (breaks clear : Bool) : Input → Gap
  | [] =>
    match state with
    | .slash start | .block start _ => ⟨breaks, start⟩
    | _ => ⟨breaks, []⟩
  | m :: rest =>
    match state with
    | .blank =>
      if isGapBlank m.char then
        gapFrom .blank (breaks || (clear && m.char == '\n')) (clear && isPlainBlank m.char) rest
      else if m.char == '/' then gapFrom (.slash (m :: rest)) breaks clear rest
      else ⟨breaks, m :: rest⟩
    | .slash start =>
      if m.char == '/' then gapFrom .line breaks clear rest
      else if m.char == '*' then gapFrom (.block start false) breaks clear rest
      else ⟨breaks, start⟩
    | .line =>
      if endsLine m.char then gapFrom .blank (breaks || m.char == '\n') true rest
      else gapFrom .line breaks clear rest
    | .block start star =>
      if star && m.char == '/' then gapFrom .blank breaks true rest
      else gapFrom (.block start (m.char == '*')) breaks clear rest

def gap (s : Input) : Gap := gapFrom .blank false true s

def afterGap (s : Input) : Input := (gap s).rest

-- What follows the gap before a statement or an operand, where the lines that begin with a mark of
-- an old comment are comments too.
def afterMarks : Nat → Input → Input
  | 0, s => s
  | n + 1, s =>
    let s := afterGap s
    if s.startsWith "<!--".toList || s.startsWith "-->".toList then
      afterMarks n (s.skipWhile fun c => !(c == '\n' || c == '\u2028' || c == '\u2029'))
    else s

end SuiteDraft.Grammar
