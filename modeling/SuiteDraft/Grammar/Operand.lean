import SuiteDraft.Grammar.Markup
import SuiteDraft.Grammar.Member

/-!
Operands: names, literals, functions, classes, markup and what stands in brackets; and what is asked
of them: properties, calls and items.
-/

namespace SuiteDraft.Grammar

open SuiteDraft.Grammar.Parser

/-! ### Objects and arrays -/

-- A property of an object: several of another object's, a method, a value under a name, or a name
-- that is the value as well.
def property (r : Reader) : Parser Tree :=
  spread r
    <|> method r false
    <|> node (other "pair") (do
      let key ← field .key (propertyName r)
      symbol ":"
      return [key, ← field .value (r.expression .inside)])
    <|> nameNode (other "shorthand_property_identifier")

def objectLiteral (r : Reader) : Parser Tree :=
  node (other "object") (within "\x7b" "\x7d" (places (one (property r))))

def arrayLiteral (r : Reader) : Parser Tree :=
  node .array (within "[" "]" (places (one (spread r <|> r.expression .inside))))

def assignSign : Parser Unit := symbolNot "=" ['=', '>']

def destructuringAssignment (r : Reader) (flow : Flow) : Parser Tree := do
  let start ← next
  let left ← field .left (destructuring r)
  assignSign
  close (other "assignment_expression") start [left, ← field (.other "right") (r.expression flow)]

def literalOrAssignment (r : Reader) (flow : Flow) (literal : Parser Tree) : Parser Tree :=
  (do
    let t ← literal
    guard (!(← sees assignSign))
    return t)
  <|> destructuringAssignment r flow

/-! ### Functions -/

def asyncMark (flow : Flow) : Parser Unit := do
  keyword "async"
  flow.goesOn

def functionExpression (r : Reader) (flow : Flow) : Parser Tree := do
  let start ← next
  let _ ← optional (asyncMark flow)
  keyword "function"
  let star ← optional (symbol "*")
  let name ← orNone (one (field .name (nameNode .identifier)))
  let head ← signature r .inside
  let body ← field .body r.block
  close (if star.isSome then .generatorFunction else .functionExpression) start
    (name ++ head ++ [body])

def arrowHead (r : Reader) (flow : Flow) : Parser (List Tree) :=
  one (field .parameter (nameNode .identifier))
    <|> if flow.bareArrows then do
          let types ← orNone (one (typeParameters r))
          return types ++ [← field .parameters r.parameters]
        else signature r .inside

def arrowFunction (r : Reader) (flow : Flow) : Parser Tree := node .arrowFunction do
  let head ← (asyncMark flow *> arrowHead r flow <* symbol "=>") <|> arrowHead r flow <* symbol "=>"
  return head ++ [← field .body (r.block <|> r.expression flow)]

/-! ### Words that begin an operand -/

def newExpression (r : Reader) (flow : Flow) : Parser Tree :=
  node (other "meta_property") (keyword "new" *> symbol "." *> keyword "target" *> pure [])
    <|> node (other "new_expression") (do
      keyword "new"
      flow.goesOn
      let made ← field (.other "constructor") (r.read (.maker flow))
      let types ← orNone (one (field typeArgumentsField (typeArguments r)))
      let args ← orNone (one (field .arguments (arguments r)))
      return made :: types ++ args)

-- What is imported in the middle of an expression, or what is known of the module itself.
def importWord : Parser Tree :=
  node (other "meta_property") (keyword "import" *> symbol "." *> keyword "meta" *> pure [])
    <|> do
      let t ← wordNode (other "import") "import"
      let c ← peek
      guard (c == some '(' || c == some '.')
      return t

def nameOrArrow (r : Reader) (flow : Flow) : Parser Tree :=
  (do
    guard (!operandWords.contains (← peekWord))
    arrowFunction r flow)
  <|> operandName

def wordOperand (r : Reader) (flow : Flow) (w : String) : Parser Tree :=
  match w with
  | "function" => functionExpression r flow
  | "class" => classExpression r
  | "async" => functionExpression r flow <|> arrowFunction r flow <|> operandName
  | "new" => newExpression r flow <|> nameOrArrow r flow
  | "import" => importWord
  | "this" => wordNode (other "this") "this"
  | "super" => wordNode (other "super") "super"
  | "true" | "false" | "null" => wordLiteral
  | _ => nameOrArrow r flow

def parenthesized (r : Reader) : Parser Tree :=
  node (other "parenthesized_expression") <| within "(" ")" do
    let e ← expressions r .inside
    let type ← orNone (one (typeAfterColon r .inside))
    return e :: type

def typeAssertion (r : Reader) (flow : Flow) : Parser Tree := node (other "type_assertion") do
  let types ← typeArguments r
  return [types, ← r.read (.unary flow)]

def operand (r : Reader) (flow : Flow) : Parser Tree := do
  match ← peek with
  | none => failure
  | some '(' => arrowFunction r flow <|> parenthesized r
  | some '[' => literalOrAssignment r flow (arrayLiteral r)
  | some '\x7b' => literalOrAssignment r flow (objectLiteral r)
  | some '"' | some '\'' => stringLiteral
  | some '`' => templateLiteral r
  | some '/' => patternLiteral
  | some '@' => classExpression r
  | some '#' => propertyNode <* (do guard (← sees (keyword "in")))
  | some '<' =>
    arrowFunction r flow <|>
      match r.dialect with
      | .markup => r.markup
      | .plain => typeAssertion r flow
  | some c =>
    if c.isDigit || c == '.' then numberLiteral else wordOperand r flow (← peekWord)

/-! ### What is asked of an operand -/

def startsOperand (s : Input) : Bool :=
  (name s).isSome || s.head?.any fun m =>
    m.char.isDigit || "\"'`[\x7b(!~+-/<@#".toList.contains m.char

def chainSign : Parser Tree :=
  field (.other "optional_chain") <| node (other "optional_chain") do
    symbolNot "?." "0123456789".toList
    return []

def chainStep (r : Reader) (calls : Bool) (start : Input) (t : Tree) : Parser Tree := do
  let sign ← chainSign
  match ← peek with
  | some '[' =>
    let index ← field (.other "index") (within "[" "]" (expressions r .inside))
    close (other "subscript_expression") start [t.inField .object, sign, index]
  | some '(' | some '<' =>
    guard calls
    let types ← orNone (one (field typeArgumentsField (typeArguments r)))
    let args ← field .arguments (arguments r)
    close .callExpression start (t.inField .function :: types ++ [args])
  | _ =>
    let property ← field .property propertyNode
    close .memberExpression start [t.inField .object, sign, property]

def typedStep (r : Reader) (calls : Bool) (start : Input) (t : Tree) : Parser Tree := do
  let types ← field typeArgumentsField (typeArguments r)
  notFollowedBy ['>', '=']
  if calls && (← peek) == some '(' then
    let args ← field .arguments (arguments r)
    close .callExpression start [t.inField .function, types, args]
  else
    guard (calls && !startsOperand (← next))
    close (other "instantiation_expression") start [t, types]

def accessStep (r : Reader) (flow : Flow) (calls : Bool) (start : Input) (t : Tree) :
    Parser Tree := do
  flow.goesOn
  match ← peek with
  | some '.' =>
    symbolNot "." ['.']
    let property ← field .property propertyNode
    close .memberExpression start [t.inField .object, property]
  | some '?' => chainStep r calls start t
  | some '[' =>
    let index ← field (.other "index") (within "[" "]" (expressions r .inside))
    close (other "subscript_expression") start [t.inField .object, index]
  | some '(' =>
    guard calls
    let args ← field .arguments (arguments r)
    close .callExpression start [t.inField .function, args]
  | some '`' =>
    let args ← field .arguments (templateLiteral r)
    close .callExpression start [t.inField .function, args]
  | some '<' => typedStep r calls start t
  | some '!' =>
    symbolNot "!" ['=']
    close (other "non_null_expression") start [t]
  | _ => failure

def moreAccess (r : Reader) (flow : Flow) (calls : Bool) (start : Input) : Nat → Tree → Parser Tree
  | 0, t => pure t
  | n + 1, t =>
    (do moreAccess r flow calls start n (← accessStep r flow calls start t)) <|> pure t

def access.read (r : Reader) (flow : Flow) (calls : Bool) : Parser Tree := do
  let start ← next
  moreAccess r flow calls start start.left (← operand r flow)

end SuiteDraft.Grammar
