import SuiteDraft.Grammar.Signature

/-!
Types. A type is made of simple types by unions, intersections and conditions; a simple type may be
followed by brackets that make an array of it or look a member up.
-/

namespace SuiteDraft.Grammar

open SuiteDraft.Grammar.Parser

def TypeFlow.goesOn (flow : TypeFlow) : Parser Unit :=
  if flow.ends then Parser.goesOn (if flow.inValue then .value else .other) else pure ()

def plainTypes : List String := [
  "any", "number", "boolean", "string", "symbol", "void", "unknown", "never", "object"]

def typeWords : List String := [
  "typeof", "keyof", "infer", "unique", "readonly", "abstract", "new"]

def lastName : Parser Tree := symbol "." *> field .name (nameNode (other "type_identifier"))

def typeName : Parser Tree := inModule <|> nameNode (other "type_identifier")
where
  inModule : Parser Tree := node (other "nested_type_identifier") do
    let start ← next
    let link : Parser Tree := nameNode .propertyIdentifier <* (do guard (← sees lastName))
    let path ← moreNames (other "nested_identifier") link start start.left
      (← nameNode .identifier)
    return [path.inField (.other "module"), ← lastName]

def namedType (r : Reader) (flow : TypeFlow) : Parser Tree := do
  let start ← next
  guard (!(typeWords.contains (← peekWord)))
  let name ← typeName
  match ← optional (flow.goesOn *> typeArguments r) with
  | none =>
    if plainTypes.contains name.text then close (other "predefined_type") start [] else return name
  | some args => close (other "generic_type") start [name.inField .name, args]

def wordedType (kind : String) (w : String) (p : Parser Tree) : Parser Tree :=
  node (other kind) (keyword w *> one p)

def typeQuery (r : Reader) : Parser Tree := wordedType "type_query" "typeof" do
  let start ← next
  let t ← (node .callExpression do
      let f ← field .function (wordNode (other "import") "import")
      return [f, ← field .arguments (arguments r)])
    <|> dottedName .identifier .memberExpression propertyNode
  match ← optional (typeArguments r) with
  | none => return t
  | some args => close (other "instantiation_expression") start [t.inField .function, args]

def inferredType (r : Reader) (flow : TypeFlow) : Parser Tree := node (other "infer_type") do
  keyword "infer"
  let name ← nameNode (other "type_identifier")
  let bound ← orNone (one (keyword "extends" *> r.read (.simpleType flow)))
  return name :: bound

def functionType (r : Reader) (flow : TypeFlow) : Parser Tree := node (other "function_type") do
  let types ← orNone (one (typeParameters r))
  let params ← field .parameters r.parameters
  symbol "=>"
  return types ++ [params, ← field (.other "return_type") (resultType r flow)]

def constructorType (r : Reader) (flow : TypeFlow) : Parser Tree :=
  node (other "constructor_type") do
    let _ ← optional (keyword "abstract")
    keyword "new"
    let types ← orNone (one (typeParameters r))
    let params ← field .parameters r.parameters
    symbol "=>"
    return types ++ [params, ← field typeField (r.type flow)]

def tupleMember (r : Reader) : Parser Tree := labelled <|> spread <|> plain
where
  labelled : Parser Tree := do
    let start ← next
    let name ← restPattern (nameNode .identifier) <|> nameNode .identifier
    let mark ← optional (symbol "?")
    let type ← typeAfterColon r .inside
    close (if mark.isSome then .optionalParameter else .requiredParameter) start
      [name.inField .name, type]
  spread : Parser Tree := node (other "rest_type") (symbol "..." *> one (r.type .inside))
  plain : Parser Tree := do
    let start ← next
    let t ← r.type .inside
    match ← optional (symbol "?") with
    | none => return t
    | some () => close (other "optional_type") start [t]

def templateType (r : Reader) : Parser Tree := node (other "template_literal_type") do
  symbol "`"
  let pieces ← many <|
    leafHere .stringFragment templateText
      <|> nodeHere (other "template_type") (do
        adjacent "$\x7b"
        let t ← r.type .inside
        symbol "\x7d"
        return [t])
  adjacent "`"
  return pieces

def literalType : Parser Tree := node (other "literal_type") <| one <|
  stringLiteral <|> numberLiteral <|> wordLiteral <|> wordNode (other "undefined") "undefined"
    <|> node (other "unary_expression")
      ((symbol "-" <|> symbol "+") *> one (field (.other "argument") numberLiteral))

def importType (r : Reader) : Parser Tree := do
  let start ← next
  let f ← field .function (wordNode (other "import") "import")
  let args ← field .arguments (arguments r)
  let call ← close .callExpression start [f, args]
  moreNames .memberExpression propertyNode start start.left call

def atomicType (r : Reader) (flow : TypeFlow) : Parser Tree :=
  functionType r flow
    <|> constructorType r flow
    <|> node (other "parenthesized_type") (one (within "(" ")" (r.type .inside)))
    <|> node (other "tuple_type") (within "[" "]" (places (one (tupleMember r))))
    <|> r.objectType
    <|> templateType r
    <|> literalType
    <|> wordedType "readonly_type" "readonly" (r.read (.simpleType flow))
    <|> wordedType "index_type_query" "keyof" (r.read (.simpleType flow))
    <|> inferredType r flow
    <|> typeQuery r
    <|> node (other "predefined_type") (keyword "unique" *> keyword "symbol" *> pure [])
    <|> wordNode (other "this_type") "this"
    <|> importType r
    <|> node (other "flow_maybe_type") (symbol "?" *> one (r.read (.simpleType flow)))
    <|> node (other "existential_type") (symbol "*" *> pure [])
    <|> namedType r flow

def moreBrackets (r : Reader) (flow : TypeFlow) (start : Input) : Nat → Tree → Parser Tree
  | 0, t => pure t
  | n + 1, t =>
    (do
      flow.goesOn
      let index ← within "[" "]" (orNone (one (r.type .inside)))
      let kind := other (if index.isEmpty then "array_type" else "lookup_type")
      moreBrackets r flow start n (← close kind start (t :: index)))
    <|> pure t

def simpleType.read (r : Reader) (flow : TypeFlow) : Parser Tree := do
  let start ← next
  moreBrackets r flow start start.left (← atomicType r flow)

-- Types with the sign `sign` between, and perhaps one in front.
def joinedTypes (kind : String) (sign : String) (flow : TypeFlow) (p : Parser Tree) :
    Parser Tree := do
  let signed : Parser Unit := symbolNot sign sign.toList
  let start ← next
  let lead ← optional signed
  let first ← p
  let others ← many (flow.goesOn *> signed *> p)
  if lead.isNone && others.isEmpty then return first
  else close (other kind) start (first :: others)

def type.read (r : Reader) (flow : TypeFlow) : Parser Tree := do
  let start ← next
  let left ← joinedTypes "union_type" "|" flow
    (joinedTypes "intersection_type" "&" flow (r.read (.simpleType flow)))
  conditional start left <|> pure left
where
  conditional (start : Input) (left : Tree) : Parser Tree := do
    flow.goesOn
    keyword "extends"
    let right ← field (.other "right") (r.type flow)
    symbol "?"
    let yes ← field (.other "consequence") (r.type .inside)
    symbol ":"
    let no ← field (.other "alternative") (r.type flow)
    close (other "conditional_type") start [left.inField .left, right, yes, no]

end SuiteDraft.Grammar
