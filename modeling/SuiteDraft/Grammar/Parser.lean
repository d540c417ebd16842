import SuiteDraft.Grammar.Gap

/-!
Parsers: functions from what is left of a source to a value and what is left after it. Every word is
read after the gap before it, and every node holds the text from its first word to its last.
-/

namespace SuiteDraft.Grammar

def Parser (α : Type) : Type := Input → Option (α × Input)

namespace Parser

variable {α β : Type}

instance : Monad Parser where
  pure a := fun s => some (a, s)
  bind p f := fun s =>
    match p s with
    | none => none
    | some (a, rest) => f a rest

instance : Alternative Parser where
  failure := fun _ => none
  orElse p q := fun s =>
    match p s with
    | none => q () s
    | found => found

def rest : Parser Input := fun s => some (s, s)

def next : Parser Input := fun s => some (afterGap s, s)

def peek : Parser (Option Char) := fun s => some ((afterGap s).head?.map (·.char), s)

def orNone (p : Parser (List α)) : Parser (List α) := p <|> pure []

-- Skips the comments of an old form that may stand before a statement or an operand.
def skipMarks : Parser Unit := fun s => some ((), afterMarks s.left s)

def sees (p : Parser α) : Parser Bool := fun s => some ((p s).isSome, s)

def manyUpTo : Nat → Parser α → Parser (List α)
  | 0, _ => pure []
  | n + 1, p => fun s =>
    match p s with
    | none => some ([], s)
    | some (a, rest) =>
      match manyUpTo n p rest with
      | none => none
      | some (as, rest) => some (a :: as, rest)

def many (p : Parser α) : Parser (List α) := fun s => manyUpTo (s.left + 1) p s

def sepBy1 (p : Parser α) (sep : Parser β) : Parser (List α) := do
  return (← p) :: (← many (sep *> p))

def sepBy (p : Parser α) (sep : Parser β) : Parser (List α) := orNone (sepBy1 p sep)

def symbol (text : String) : Parser Unit := fun s =>
  let s := afterGap s
  let cs := text.toList
  if s.startsWith cs then some ((), s.drop cs.length) else none

def adjacent (text : String) : Parser Unit := fun s =>
  let cs := text.toList
  if s.startsWith cs then some ((), s.drop cs.length) else none

def notFollowedBy (cs : List Char) : Parser Unit := fun s =>
  match s with
  | [] => some ((), s)
  | m :: _ => if m.char ∈ cs then none else some ((), s)

-- Reads the characters `text` after the gap, unless one of `cs` follows them.
def symbolNot (text : String) (cs : List Char) : Parser Unit := symbol text *> notFollowedBy cs

def build (kind : Kind) (start rest : Input) (children : List Tree) : Tree :=
  .node { kind, start := start.position, text := start.upTo rest } children

def close (kind : Kind) (start : Input) (children : List Tree) : Parser Tree := fun s =>
  some (build kind start s children, s)

def node (kind : Kind) (p : Parser (List Tree)) : Parser Tree := fun s =>
  let start := afterGap s
  match p start with
  | none => none
  | some (children, rest) => some (build kind start rest children, rest)

def nodeHere (kind : Kind) (p : Parser (List Tree)) : Parser Tree := fun start =>
  match p start with
  | none => none
  | some (children, rest) => some (build kind start rest children, rest)

-- The node without children for what `scan` leaves of the source after the gap.
def leaf (kind : Kind) (scan : Input → Option Input) : Parser Tree := fun s =>
  let start := afterGap s
  match scan start with
  | none => none
  | some rest => some (build kind start rest [], rest)

-- The node without children for what `scan` leaves of the source right here.
def leafHere (kind : Kind) (scan : Input → Option Input) : Parser Tree := fun start =>
  match scan start with
  | none => none
  | some rest => some (build kind start rest [], rest)

def field (f : Field) (p : Parser Tree) : Parser Tree := do
  return (← p).inField f

def one (p : Parser Tree) : Parser (List Tree) := do
  return [← p]

def all : List (Parser (List Tree)) → Parser (List Tree)
  | [] => pure []
  | p :: ps => do
    let ts ← p
    return ts ++ (← all ps)

end Parser

end SuiteDraft.Grammar
