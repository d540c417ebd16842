import SuiteDraft.Grammar.Parser

/-!
The words of the grammar: names, numbers, the pieces of string and template literals, patterns
between slashes, and the text between markup tags.
-/

namespace SuiteDraft.Grammar

-- A scan: what is left after a word, if the source begins with one.
abbrev Scan := Input → Option Input

def exactly (text : String) : Scan := fun s =>
  let cs := text.toList
  if s.startsWith cs then some (s.drop cs.length) else none

def charIf (p : Char → Bool) : Scan
  | [] => none
  | m :: rest => if p m.char then some rest else none

def Scan.andThen (a b : Scan) : Scan := fun s => (a s).bind b

def Scan.orSkip (a : Scan) : Scan := fun s => some ((a s).getD s)

def longest (scans : List Scan) : Scan := fun s =>
  (scans.filterMap (· s)).foldl
    (fun best r =>
      match best with
      | none => some r
      | some b => if r.left < b.left then some r else some b)
    none

-- Reads between `least` and `least + more` characters that pass the test.
def between (p : Char → Bool) (least more : Nat) : Scan := fun s =>
  let run := (s.take (least + more)).takeWhile fun m => p m.char
  if least ≤ run.length then some (s.drop run.length) else none

def run1 (p : Char → Bool) : Scan := (charIf p).andThen fun s => some (s.skipWhile p)

def isHexDigit (c : Char) : Bool :=
  c.isDigit || ('a' ≤ c && c ≤ 'f') || ('A' ≤ c && c ≤ 'F')

/-! ### Names -/

-- A character that no name holds, digits apart: controls, spaces, and the marks of the grammar.
def isNameBreak (c : Char) : Bool :=
  c.toNat < 32 || isGapBlank c || ":;`\"'@#.,|^&<=>+-*/\\%?!~()[]\x7b\x7d".toList.contains c

def nameEscape : Scan :=
  (exactly "\\u").andThen <| longest [
    between isHexDigit 4 0,
    ((exactly "\x7b").andThen (run1 isHexDigit)).andThen (exactly "\x7d")]

-- One character of a name; a digit only when it is not the first.
def nameChar (first : Bool) : Scan
  | [] => none
  | m :: rest =>
    if m.sound && !isNameBreak m.char && !(first && m.char.isDigit) then some rest
    else nameEscape (m :: rest)

def nameRest : Nat → Input → Input
  | 0, s => s
  | n + 1, s =>
    match nameChar false s with
    | some rest => nameRest n rest
    | none => s

def name : Scan := fun s => (nameChar true s).map (nameRest s.left)

def hyphenated : Scan := fun s =>
  let isStart (c : Char) : Bool := c.isAlpha || c == '_' || c == '$'
  let isPart (c : Char) : Bool := isStart c || c.isDigit
  (charIf isStart s).bind fun s =>
    (exactly "-" (s.skipWhile isPart)).map (·.skipWhile fun c => isPart c || c == '-')

/-! ### Numbers -/

-- Groups of digits between single underscores, at most `n` of them.
def digitGroups (p : Char → Bool) : Nat → Input → Input
  | 0, s => s
  | n + 1, s =>
    let s := s.skipWhile p
    match (exactly "_" s).bind (charIf p) with
    | some rest => digitGroups p n rest
    | none => s

def digits (p : Char → Bool) : Scan :=
  (charIf p).andThen fun s => some (digitGroups p (s.left + 1) s)

def based (lower upper : String) (p : Char → Bool) : Scan :=
  (longest [exactly lower, exactly upper]).andThen (digits p)

def wholeNumber : Scan := longest [
  based "0x" "0X" isHexDigit,
  based "0b" "0B" fun c => c == '0' || c == '1',
  based "0o" "0O" fun c => '0' ≤ c && c ≤ '7',
  digits Char.isDigit]

def exponent : Scan :=
  (charIf fun c => c == 'e' || c == 'E').andThen <|
    ((charIf fun c => c == '+' || c == '-').orSkip).andThen (digits Char.isDigit)

-- The part before a point or a power: a zero, or digits that begin with no zero or with one.
def leadingPart : Scan := longest [
  exactly "0",
  ((exactly "0").orSkip).andThen <| (charIf fun c => '1' ≤ c && c ≤ '9').andThen <|
    Scan.orSkip <| ((exactly "_").orSkip).andThen (digits Char.isDigit)]

def number : Scan := longest [
  wholeNumber,
  wholeNumber.andThen (exactly "n"),
  leadingPart.andThen <| (exactly ".").andThen <|
    ((digits Char.isDigit).orSkip).andThen exponent.orSkip,
  (exactly ".").andThen <| (digits Char.isDigit).andThen exponent.orSkip,
  leadingPart.andThen exponent]

/-! ### Strings and templates -/

def escape : Scan := (exactly "\\").andThen <| longest [
  charIf fun c => !(c == 'x' || c == 'u' || ('0' ≤ c && c ≤ '7')),
  between (fun c => '0' ≤ c && c ≤ '7') 1 2,
  (exactly "x").andThen (between isHexDigit 2 0),
  (exactly "u").andThen (between isHexDigit 4 0),
  ((exactly "u\x7b").andThen (run1 isHexDigit)).andThen (exactly "\x7d"),
  (charIf fun c => c == '\r' || c == '?').andThen
    (charIf fun c => c == '\n' || c == '\u2028' || c == '\u2029')]

def stringText (quote : Char) : Scan :=
  run1 fun c => !(c == quote || c == '\\' || c == '\n' || c == '\r')

-- The rest of plain text in a template literal; `some` only ends what has begun.
def templateRest : Input → Input
  | [] => []
  | m :: rest =>
    if m.char == '`' || m.char == '\\' then m :: rest
    else if m.char == '$' && Input.startsWith rest ['\x7b'] then m :: rest
    else templateRest rest

def templateText : Scan := fun s =>
  let rest := templateRest s
  if rest.left < s.left then some rest else none

/-! ### Patterns between slashes -/

-- The rest of a pattern, up to its closing slash: `inClass` between square brackets, `escaped`
-- right after a backslash.
def patternRest (inClass escaped : Bool) : Input → Option Input
  | [] => none
  | m :: rest =>
    if m.char == '\n' || !m.sound then none
    else if escaped then patternRest inClass false rest
    else if m.char == '\\' then patternRest inClass true rest
    else if inClass then patternRest (m.char != ']') false rest
    else if m.char == '/' then some (m :: rest)
    else patternRest (m.char == '[') false rest

def pattern : Scan := fun s =>
  (exactly "/" s).bind fun body =>
    (patternRest false false body).bind fun rest =>
      if rest.left < body.left then
        (exactly "/" rest).map (·.skipWhile fun c => 'a' ≤ c && c ≤ 'z')
      else none

/-! ### Markup -/

def characterReference : Scan :=
  ((exactly "&").andThen <| longest [
    ((exactly "#").andThen (charIf fun c => c == 'x' || c == 'X')).andThen
      (between isHexDigit 1 5),
    (exactly "#").andThen (between Char.isDigit 1 4),
    between Char.isAlpha 1 29]).andThen (exactly ";")

def endsMarkupText (c : Char) : Bool :=
  c == '<' || c == '>' || c == '\x7b' || c == '\x7d' || c == '&'

-- Whether text between tags says something, that is, holds more than line feeds and the blanks
-- after them.
def saysSomething (afterBreak : Bool) : List Char → Bool
  | [] => false
  | c :: rest =>
    if c == '\n' then saysSomething true rest
    else if afterBreak && isPlainBlank c then saysSomething true rest
    else true

def markupText : Scan := fun s =>
  let text := s.takeWhile fun m => !endsMarkupText m.char
  if saysSomething false (text.map (·.char)) then some (s.drop text.length) else none

def attributeText (quote : Char) : Scan := run1 fun c => !(c == quote || c == '&')

namespace Parser

def word : Parser String := fun s =>
  let start := afterGap s
  (name start).map fun rest => (start.upTo rest, rest)

def keyword (w : String) : Parser Unit := do
  guard ((← word) == w)

def peekWord : Parser String := fun s => some (((word s).map (·.1)).getD "", s)

-- What `p` reads if the word `w` comes next, which then begins nothing else.
def whenWord (w : String) (p : Parser Tree) : Parser (List Tree) := do
  if (← peekWord) == w then return [← p] else return []

def wordNode (kind : Kind) (w : String) : Parser Tree := fun s =>
  match keyword w s with
  | none => none
  | some ((), rest) => some (build kind (afterGap s) rest [], rest)

end Parser

end SuiteDraft.Grammar
