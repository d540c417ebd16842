import SuiteDraft.Grammar.Operand

/-!
Operations: the operators before, after and between operands, assignments and choices.
-/

namespace SuiteDraft.Grammar

open SuiteDraft.Grammar.Parser

/-! ### One operand -/

def unaryWords : List String := ["typeof", "void", "delete"]

def prefixed (r : Reader) (flow : Flow) (kind : String) (sign : Parser Unit) : Parser Tree :=
  node (other kind) (sign *> one (field (.other "argument") (r.read (.unary flow))))

def yieldExpression (r : Reader) (flow : Flow) : Parser Tree :=
  node (other "yield_expression") do
    keyword "yield"
    orNone (flow.goesOn *> optional (symbol "*") *> one (r.expression flow))

def computingSigns : List String := [
  "+=", "-=", "*=", "/=", "%=", "^=", "&=", "|=", ">>=", ">>>=", "<<=", "**=", "&&=", "||=", "??="]

def isTarget (t : Tree) : Bool := isAssignable t || t.kind == other "parenthesized_expression"

def assignedOrPlain (r : Reader) (flow : Flow) : Parser Tree := do
  let start ← next
  let t ← r.read (.access flow)
  (do
    guard (isTarget t)
    let kind ← (assignSign *> pure "assignment_expression")
      <|> (computingSigns.foldr (fun sign p => symbol sign <|> p) failure
        *> pure "augmented_assignment_expression")
    close (other kind) start [t.inField .left, ← field (.other "right") (r.expression flow)])
  <|> (do
    flow.goesOn
    symbol "++" <|> symbol "--"
    close (other "update_expression") start [t.inField (.other "argument")])
  <|> pure t

def unary.read (r : Reader) (flow : Flow) : Parser Tree := do
  skipMarks
  match ← peek with
  | none => failure
  | some '!' => prefixed r flow "unary_expression" (symbol "!")
  | some '~' => prefixed r flow "unary_expression" (symbol "~")
  | some '+' => prefixed r flow "update_expression" (symbol "++")
      <|> prefixed r flow "unary_expression" (symbolNot "+" ['+'])
  | some '-' => prefixed r flow "update_expression" (symbol "--")
      <|> prefixed r flow "unary_expression" (symbolNot "-" ['-'])
  | some _ =>
    let w ← peekWord
    if unaryWords.contains w then prefixed r flow "unary_expression" (keyword w)
    else if w == "await" then
      node (other "await_expression") (keyword w *> one (r.read (.unary flow)))
    else if w == "yield" then yieldExpression r flow
    else assignedOrPlain r flow

/-! ### Two operands -/

-- The operators between operands, the longer before their beginnings, each with how tightly it
-- binds.
def operators : List (String × Nat) := [
  (">>>", 9), ("===", 7), ("!==", 7), ("**", 12), ("&&", 3), ("||", 2), ("??", 1), (">>", 9),
  ("<<", 9), ("<=", 8), (">=", 8), ("==", 7), ("!=", 7), ("+", 10), ("-", 10), ("*", 11), ("/", 11),
  ("%", 11), ("&", 6), ("^", 5), ("|", 4), ("<", 8), (">", 8)]

def operatorWords : List (String × Nat) := [("instanceof", 8), ("in", 8)]

def operator (level : Nat) : Parser Nat := do
  let s ← next
  match operators.find? fun o => s.startsWith o.1.toList with
  | some (sign, l) => guard (level ≤ l) *> symbol sign *> pure l
  | none =>
    let w ← word
    match operatorWords.lookup w with
    | some l => guard (level ≤ l) *> pure l
    | none => failure

def casting (r : Reader) (flow : Flow) (start : Input) (left : Tree) : Parser Tree := do
  let w ← word
  guard (w == "as" || w == "satisfies")
  let type ← r.type { ends := flow.ends, inValue := true }
  close (other (if w == "as" then "as_expression" else "satisfies_expression")) start [left, type]

def moreOperations (r : Reader) (flow : Flow) (level : Nat) (start : Input) :
    Nat → Tree → Parser Tree
  | 0, left => pure left
  | n + 1, left =>
    (do
      flow.goesOn
      let t ← casting r flow start left <|> do
        let l ← operator level
        let right ← r.read (.operation flow (l + 1))
        close (other "binary_expression") start
          [left.inField .left, right.inField (.other "right")]
      moreOperations r flow level start n t)
    <|> pure left

-- Operands and the operators that bind them at least as tightly as `level`.
def operation.read (r : Reader) (flow : Flow) (level : Nat) : Parser Tree := do
  let start ← next
  moreOperations r flow level start start.left (← r.read (.unary flow))

/-! ### Choices -/

-- The sign of a choice; the mark of an optional parameter and the sign of a chain are none.
def choiceSign : Parser Unit := do
  symbolNot "?" ['?']
  let s ← rest
  let after := s.skipWhile isPlainBlank
  guard (!(after.head?.any fun m => m.char == ':' || m.char == ')' || m.char == ','))
  guard (!after.startsWith ['.'] || ((after.drop 1).head?.any (·.char.isDigit)))

def expression.read (r : Reader) (flow : Flow) : Parser Tree := do
  skipMarks
  let start ← next
  let condition ← r.read (.operation flow 0)
  choice start condition false <|> choice start condition true <|> pure condition
where
  -- A choice; its first value may be read without taking the colon for that of a result's type.
  choice (start : Input) (condition : Tree) (bareArrows : Bool) : Parser Tree := do
    guard (bareArrows || !flow.bareArrows)
    choiceSign
    let yes ← field (.other "consequence") (r.expression { bareArrows })
    symbol ":"
    let no ← field (.other "alternative") (r.expression flow)
    close (other "ternary_expression") start [condition.inField (.other "condition"), yes, no]

end SuiteDraft.Grammar
