import SuiteDraft.Grammar.Statement

/-!
The whole grammar: the rules tied together, and the tree of a source. Every source has a tree; where
it does not follow the grammar, a fault stands in the tree.
-/

namespace SuiteDraft.Grammar

open SuiteDraft.Grammar.Parser

def step (r : Reader) : Rule → Parser Tree
  | .statement => statement.read r
  | .block => block.read r
  | .expression flow => expression.read r flow
  | .operation flow level => operation.read r flow level
  | .unary flow => unary.read r flow
  | .access flow => access.read r flow true
  | .maker flow => access.read r flow false
  | .pattern => pattern.read r
  | .parameters => parameters.read r
  | .type flow => type.read r flow
  | .simpleType flow => simpleType.read r flow
  | .objectType => objectType.read r
  | .markup => markup.read r

-- Reads a rule that refers to other rules at most `depth` deep.
def parse (dialect : Dialect) : Nat → Rule → Parser Tree
  | 0, _ => failure
  | depth + 1, rule => step ⟨dialect, parse dialect depth⟩ rule

-- How deep the rules of a source can go: no character takes more than so many.
def depthFor (s : Input) : Nat := 20 * (s.left + 1)

def scriptLine : Parser (List Tree) :=
  orNone (one (leaf (other "hash_bang_line") fun s =>
    (exactly "#!" s).map (·.skipWhile (· != '\n'))))

def faultAt (s : Input) : Tree := .node { kind := .fault, start := s.position } []

-- The statements of a source, and a fault after them if they are not all of it.
def program (dialect : Dialect) : Parser (List Tree) := do
  let start ← rest
  let script ← scriptLine
  let statements ← many (parse dialect (depthFor start) .statement)
  skipMarks
  match ← next with
  | [] => return script ++ statements
  | s => return script ++ statements ++ [faultAt s]

/-- The tree of a source. A source with a NUL in it has a fault there and nothing else. -/
def treeOf (dialect : Dialect) (s : Input) : Tree :=
  let children :=
    match s.dropWhile (·.char != '\x00') with
    | m :: rest => [faultAt (m :: rest)]
    | [] => ((program dialect s).map (·.1)).getD []
  build .program s [] children

end SuiteDraft.Grammar
