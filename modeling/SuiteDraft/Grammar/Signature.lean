import SuiteDraft.Grammar.Call

/-!
What a function takes and gives: the patterns that take values apart, parameters with types and
defaults, and the type of the result.
-/

namespace SuiteDraft.Grammar

open SuiteDraft.Grammar.Parser

-- The words that begin an operand and so are no names where an operand may stand.
def operandWords : List String := [
  "function", "class", "import", "await", "typeof", "void", "delete", "yield", "super", "true",
  "false", "null", "this"]

-- A name in the place of an operand; `undefined` is a node of its own.
def operandName : Parser Tree := do
  let start ← next
  let w ← word
  guard (!operandWords.contains w)
  close (if w == "undefined" then other "undefined" else .identifier) start []

def defaultValue (r : Reader) (f : Field) : Parser Tree := do
  symbolNot "=" ['=', '>']
  field f (r.expression .inside)

def patternOrDefault (r : Reader) (p : Parser Tree) : Parser Tree := do
  let start ← next
  let left ← p
  match ← optional (defaultValue r (.other "right")) with
  | none => return left
  | some right => close .assignmentPattern start [left.inField .left, right]

def restPattern (p : Parser Tree) : Parser Tree := node .restPattern (symbol "..." *> one p)

-- An array pattern keeps its commas, for they alone show that a place is empty.
def arrayPattern (r : Reader) : Parser Tree :=
  node .arrayPattern
    (within "[" "]" (placesApart (one (restPattern r.pattern <|> patternOrDefault r r.pattern))))

def propertyPattern (r : Reader) : Parser Tree :=
  restPattern r.pattern <|> pair <|> shorthand
where
  pair : Parser Tree := node .pairPattern do
    let key ← field .key (propertyName r)
    symbol ":"
    return [key, ← field .value (patternOrDefault r r.pattern)]
  shorthand : Parser Tree := do
    let start ← next
    let left ← nameNode .shorthandPattern <|> r.pattern
    match ← optional (defaultValue r (.other "right")) with
    | some right => close .objectAssignmentPattern start [left.inField .left, right]
    | none => guard (left.kind == .shorthandPattern) *> pure left

def objectPattern (r : Reader) : Parser Tree :=
  node .objectPattern (within "\x7b" "\x7d" (places (one (propertyPattern r))))

def destructuring (r : Reader) : Parser Tree := objectPattern r <|> arrayPattern r

def isAssignable (t : Tree) : Bool :=
  match t.kind with
  | .identifier | .memberExpression => true
  | .other k => k == "undefined" || k == "subscript_expression" || k == "non_null_expression"
  | _ => false

def assignable (r : Reader) : Parser Tree := do
  guard (name (← next)).isSome
  let t ← r.read (.access .inside)
  guard (isAssignable t)
  return t

def pattern.read (r : Reader) : Parser Tree := destructuring r <|> assignable r

def accessWords : List String := ["public", "private", "protected"]

-- The word `w` in front of something that begins with a name or a bracket.
def modifier (w : String) : Parser Unit := do
  keyword w
  let s ← next
  guard ((name s).isSome || (s.head?.any fun m => "\x7b[.".toList.contains m.char))

def parameterModifiers : Parser (List Tree) := do
  let access ← orNone (one (node (other "accessibility_modifier")
    (do accessWords.foldr (fun w p => modifier w <|> p) failure; return [])))
  let override ← orNone (one (node (other "override_modifier") (do modifier "override"; return [])))
  let _ ← optional (modifier "readonly")
  return access ++ override

def parameter (r : Reader) : Parser Tree := do
  let start ← next
  let before ← decorators r
  let modifiers ← parameterModifiers
  let target ← field .pattern <|
    destructuring r <|> restPattern (destructuring r <|> operandName)
      <|> wordNode (other "this") "this" <|> operandName
  let mark ← optional (symbol "?")
  let types ← orNone (one (typeAfterColon r .inside))
  let value ← orNone (one (defaultValue r .value))
  close (if mark.isSome then .optionalParameter else .requiredParameter) start
    (before ++ modifiers ++ target :: types ++ value)

def parameters.read (r : Reader) : Parser Tree :=
  node (other "formal_parameters") (within "(" ")" (orNone (commaList (one (parameter r)))))

def typeParameter (r : Reader) : Parser Tree :=
  node (other "type_parameter") do
    let _ ← optional (modifier "const")
    let name ← field .name (nameNode (other "type_identifier"))
    let bound ← orNone <| one <| field (.other "constraint") <| node (other "constraint") do
      keyword "extends" <|> symbol ":"
      one (r.type .inside)
    let value ← orNone <| one <| field .value <| node (other "default_type") do
      symbol "="
      one (r.type .inside)
    return name :: bound ++ value

def typeParameters (r : Reader) : Parser Tree :=
  field (.other "type_parameters") <| node (other "type_parameters")
    (within "<" ">" (commaList (one (typeParameter r))))

-- What a function says about its argument: that it is of a type.
def typePredicate (r : Reader) (flow : TypeFlow) : Parser Tree :=
  node (other "type_predicate") do
    let name ← field .name (nameNode .identifier)
    keyword "is"
    return [name, ← field typeField (r.type flow)]

def assertion (r : Reader) (flow : TypeFlow) : Parser Tree :=
  node (other "asserts") do
    keyword "asserts"
    one (typePredicate r flow <|> nameNode .identifier)

-- The type of a result: a type, or what the function says or makes sure of.
def resultType (r : Reader) (flow : TypeFlow) : Parser Tree :=
  typePredicate r flow <|> assertion r flow <|> r.type flow

def resultAfterColon (r : Reader) (flow : TypeFlow) : Parser Tree :=
  field (.other "return_type")
    (node (other "type_annotation") (symbol ":" *> one (resultType r flow)))

-- The head of a function: type parameters, parameters and the type of the result.
def signature (r : Reader) (flow : TypeFlow) : Parser (List Tree) := do
  let types ← orNone (one (typeParameters r))
  let params ← field .parameters r.parameters
  let result ← orNone (one (resultAfterColon r flow))
  return types ++ params :: result

end SuiteDraft.Grammar
