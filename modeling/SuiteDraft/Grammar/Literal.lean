import SuiteDraft.Grammar.Rule

/-!
Literals: numbers, strings, templates and patterns; and the names of properties, which may be
literals too.
-/

namespace SuiteDraft.Grammar

open SuiteDraft.Grammar.Parser

def numberLiteral : Parser Tree := leaf .number number

def patternLiteral : Parser Tree := leaf (other "regex") pattern

def stringIn (quote : Char) : Parser Tree :=
  let mark := String.ofList [quote]
  node .string do
    symbol mark
    let pieces ← many
      (leafHere .stringFragment (stringText quote) <|> leafHere .escapeSequence escape)
    adjacent mark
    return pieces

def stringLiteral : Parser Tree := stringIn '"' <|> stringIn '\''

def wordLiteral : Parser Tree :=
  wordNode .trueWord "true" <|> wordNode .falseWord "false" <|> wordNode (other "null") "null"

def expressions (r : Reader) (flow : Flow) : Parser Tree := do
  let start ← next
  let first ← r.expression flow
  match ← many (symbol "," *> r.expression flow) with
  | [] => return first
  | others => close (other "sequence_expression") start (first :: others)

def templateLiteral (r : Reader) : Parser Tree :=
  node .templateString do
    symbol "`"
    let pieces ← many <|
      leafHere .stringFragment templateText
        <|> leafHere .escapeSequence escape
        <|> nodeHere .templateSubstitution (do
          adjacent "$\x7b"
          let e ← expressions r .inside
          symbol "\x7d"
          return [e])
    adjacent "`"
    return pieces

def computedName (r : Reader) : Parser Tree :=
  node (other "computed_property_name") (one (within "[" "]" (r.expression .inside)))

def propertyName (r : Reader) : Parser Tree :=
  propertyNode <|> stringLiteral <|> numberLiteral <|> computedName r

end SuiteDraft.Grammar
