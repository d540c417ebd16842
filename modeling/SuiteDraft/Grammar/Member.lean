import SuiteDraft.Grammar.Types

/-!
The members of classes and of object types, and the classes themselves.
-/

namespace SuiteDraft.Grammar

open SuiteDraft.Grammar.Parser

-- The words that may stand in front of a member's name, and may be its name as well.
def memberWords : List String := accessWords ++ [
  "static", "override", "readonly", "abstract", "declare", "async", "get", "set", "accessor"]

def startsName (s : Input) : Bool :=
  (name s).isSome || s.head?.any fun m => m.char.isDigit || "\"'[#*.".toList.contains m.char

-- A word in front of a member's name; where a line break may end a member, one ends it.
def memberModifier (ends : Bool) : Parser Unit := do
  guard (memberWords.contains (← word))
  let s ← rest
  let g := gap s
  guard (!(ends && g.breaks && endsAtBreak .other g.rest) && startsName g.rest)

def memberModifiers (ends : Bool) : Parser Unit := do
  let _ ← many (memberModifier ends)
  let _ ← optional (symbol "*")

def method (r : Reader) (ends : Bool) : Parser Tree := node .methodDefinition do
  memberModifiers ends
  let name ← field .name (propertyName r)
  let _ ← optional (symbol "?")
  let head ← signature r .inside
  return name :: head ++ [← field .body r.block]

def typeAfterSign (r : Reader) (sign : String) : Parser Tree :=
  field typeField <| node (other "mapped_type_annotation") do
    symbol sign
    one (r.type { ends := true })

def indexSignature (r : Reader) : Parser Tree := node (other "index_signature") do
  let _ ← optional (optional (symbol "-" <|> symbol "+") *> keyword "readonly")
  let name ← within "[" "]" (keyed <|> mapped)
  let type ← typeAfterColon r { ends := true } <|> typeAfterSign r "-?:"
    <|> typeAfterSign r "+?:" <|> typeAfterSign r "?:"
  return name ++ [type]
where
  keyed : Parser (List Tree) := do
    let name ← field .name (nameNode .identifier)
    symbol ":"
    return [name, ← field (.other "index_type") (r.type .inside)]
  mapped : Parser (List Tree) := one <| node (other "mapped_type_clause") do
    let name ← field .name (nameNode (other "type_identifier"))
    keyword "in"
    let type ← field typeField (r.type .inside)
    let renamed ← orNone (one (keyword "as" *> field .exportedName (r.type .inside)))
    return name :: type :: renamed

-- A member that is only declared: a method without a body, or a property.
def memberSignature (r : Reader) : Parser Tree := do
  let start ← next
  memberModifiers true
  let name ← field .name (propertyName r)
  let _ ← optional (symbol "?")
  (do close (other "method_signature") start (name :: (← signature r { ends := true })))
    <|> do
      let type ← orNone (one (typeAfterColon r { ends := true }))
      close (other "property_signature") start (name :: type)

def constructSignature (r : Reader) : Parser Tree := node (other "construct_signature") do
  let _ ← optional (keyword "abstract")
  keyword "new"
  signature r { ends := true }

def typeMember (r : Reader) : Parser Tree :=
  indexSignature r
    <|> constructSignature r
    <|> node (other "call_signature") (signature r { ends := true })
    <|> memberSignature r

def objectType.read (r : Reader) : Parser Tree :=
  let separator : Parser Unit := symbol "," <|> ending .other
  node (other "object_type") <| within "\x7b" "\x7d" do
    let _ ← optional (symbol "," <|> symbol ";")
    let members ← sepBy (typeMember r) separator
    let _ ← optional separator
    return members

def classField (r : Reader) : Parser Tree := do
  let start ← next
  memberModifiers true
  let name ← field .name (propertyName r)
  let _ ← optional (symbol "?" <|> symbol "!")
  let type ← orNone (one (typeAfterColon r { ends := true }))
  let value ← orNone (one (symbolNot "=" ['=', '>'] *> field .value (r.expression .outside)))
  let t ← close (other "public_field_definition") start (name :: type ++ value)
  symbol "," <|> ending (if value.isEmpty then .other else .value)
  return t

def classSignature (r : Reader) : Parser Tree := do
  let start ← next
  memberModifiers true
  let name ← field .name (propertyName r)
  let _ ← optional (symbol "?")
  let t ← close (other "method_signature") start (name :: (← signature r { ends := true }))
  symbol "," <|> ending .head
  return t

def classMember (r : Reader) : Parser (List Tree) :=
  (do symbol ";"; return [])
    <|> one (node (other "class_static_block") (keyword "static" *> one (field .body r.block)))
    <|> one (indexSignature r <* (symbol "," <|> ending .other))
    <|> do
      let before ← decorators r
      let t ← method r true <|> classSignature r <|> classField r
      return before ++ [t]

def classBody (r : Reader) : Parser Tree :=
  node (other "class_body") (within "\x7b" "\x7d" (List.flatten <$> many (classMember r)))

def baseClass (r : Reader) : Parser (List Tree) := do
  let value ← field .value (r.read (.access .inside))
  let types ← orNone (one (field typeArgumentsField (typeArguments r)))
  return value :: types

def heritage (r : Reader) : Parser Tree := node (other "class_heritage") do
  let bases ← orNone <| one <| node (other "extends_clause")
    (keyword "extends" *> (List.flatten <$> sepBy1 (baseClass r) (symbol ",")))
  let promises ← orNone <| one <| node (other "implements_clause")
    (keyword "implements" *> sepBy1 (r.type .inside) (symbol ","))
  guard (!(bases.isEmpty && promises.isEmpty))
  return bases ++ promises

def className : Parser Tree := do
  guard (!(["extends", "implements"].contains (← peekWord)))
  field .name (nameNode (other "type_identifier"))

def classTail (r : Reader) : Parser (List Tree) := do
  let types ← orNone (one (typeParameters r))
  let heritage ← orNone (one (heritage r))
  return types ++ heritage ++ [← field .body (classBody r)]

def classDeclaration (r : Reader) : Parser Tree := do
  let start ← next
  let before ← decorators r
  let abstract ← optional (keyword "abstract")
  keyword "class"
  let name ← className
  let kind := if abstract.isSome then "abstract_class_declaration" else "class_declaration"
  close (other kind) start (before ++ name :: (← classTail r))

def classExpression (r : Reader) : Parser Tree := node (other "class") do
  let before ← decorators r
  keyword "class"
  let name ← orNone (one className)
  return before ++ name ++ (← classTail r)

end SuiteDraft.Grammar
