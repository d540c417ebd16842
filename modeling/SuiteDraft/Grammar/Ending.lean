import SuiteDraft.Grammar.Parser

/-!
Where a statement may end without a semicolon: at the end of the source, before a closing brace, and
at a line break, unless what follows the break would go on with the statement.
-/

namespace SuiteDraft.Grammar

/-- What stands before a place where a statement might end: a value, the head of a function without
its body, or something else. -/
inductive Before where
  | value
  | head
  | other
  deriving DecidableEq

-- A letter, as far as telling a word from the start of a longer one.
def isLetter (c : Char) : Bool := c.isAlpha || 128 ≤ c.toNat

def isRelationWord (s : Input) : Bool :=
  let ends (word : List Char) : Bool :=
    s.startsWith word && !((s.drop word.length).head?.any fun m => isLetter m.char)
  ends "in".toList || ends "instanceof".toList

-- Whether a statement may end at a line break that is followed by `s`.
def endsAtBreak (before : Before) (s : Input) : Bool :=
  match s with
  | [] => true
  | m :: rest =>
    let followedBy (c : Char) : Bool := rest.head?.any (·.char == c)
    match m.char with
    | '`' | ',' | '.' | ';' | '*' | '%' | '>' | '<' | '=' | '?' | '^' | '|' | '&' | '/' | ':' =>
      false
    | '\x7b' => before != .head
    | '(' | '[' => before != .value
    | '+' => followedBy '+'
    | '-' => followedBy '-'
    | '!' => !followedBy '='
    | 'i' => !isRelationWord s
    | _ => true

/-- Whether a statement may end here without a semicolon. A closing brace before a colon belongs to
a pattern with a type, unless a value stands before it. -/
def endsHere (before : Before) (s : Input) : Bool :=
  let g := gap s
  if g.breaks then endsAtBreak before g.rest
  else
    match g.rest with
    | [] => true
    | m :: rest =>
      m.char == '\x7d' &&
        (before == .value || !Input.startsWith (Input.skipWhile isPlainBlank rest) [':'])

namespace Parser

def ending (before : Before) : Parser Unit :=
  symbol ";" <|> stop
where
  -- Reads nothing, where a statement may end without a semicolon.
  stop : Parser Unit := fun s => if endsHere before s then some ((), s) else none

def goesOn (before : Before) : Parser Unit := fun s =>
  if endsHere before s then none else some ((), s)

end Parser

end SuiteDraft.Grammar
