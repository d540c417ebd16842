import SuiteDraft.Grammar.Literal

/-!
What goes with a call: arguments and type arguments; and what is written like a call without being
one: chains of names, and decorators.
-/

namespace SuiteDraft.Grammar

open SuiteDraft.Grammar.Parser

def spread (r : Reader) : Parser Tree :=
  node (other "spread_element") (symbol "..." *> one (r.expression .inside))

def arguments (r : Reader) : Parser Tree :=
  node .arguments (within "(" ")" (places (one (spread r <|> r.expression .inside))))

def typeArguments (r : Reader) : Parser Tree :=
  node (other "type_arguments") (within "<" ">" (commaList (one (r.type .inside))))

def typeField : Field := .other "type"

def typeArgumentsField : Field := .other "type_arguments"

def typeAfterColon (r : Reader) (flow : TypeFlow) : Parser Tree :=
  field typeField (node (other "type_annotation") (symbol ":" *> one (r.type flow)))

def moreNames (link : Kind) (property : Parser Tree) (start : Input) : Nat → Tree → Parser Tree
  | 0, object => pure object
  | n + 1, object =>
    (do
      symbol "."
      let name ← field .property property
      let t ← close link start [object.inField .object, name]
      moreNames link property start n t)
    <|> pure object

def dottedName (first link : Kind) (property : Parser Tree) : Parser Tree := do
  let start ← next
  moreNames link property start start.left (← nameNode first)

def decoration (r : Reader) : Parser Tree := do
  let start ← next
  let callee ← dottedName .identifier .memberExpression propertyNode
  let types ← orNone (one (field typeArgumentsField (typeArguments r)))
  match ← optional (field .arguments (arguments r)) with
  | none => return callee
  | some args => close .callExpression start (callee.inField .function :: types ++ [args])

def decorator (r : Reader) : Parser Tree :=
  node (other "decorator") do
    symbol "@"
    one <| node (other "parenthesized_expression") (one (within "(" ")" (decoration r)))
      <|> decoration r

def decorators (r : Reader) : Parser (List Tree) := many (field (.other "decorator") (decorator r))

end SuiteDraft.Grammar
