import SuiteDraft.Grammar.Operation

/-!
Declarations: variables, functions, classes, types and the names that hold them together.
-/

namespace SuiteDraft.Grammar

open SuiteDraft.Grammar.Parser

/-! ### Variables -/

def declarator (r : Reader) : Parser Tree := node .variableDeclarator do
  let name ← field .name (destructuring r <|> nameNode .identifier)
  let _ ← optional (symbol "!")
  let type ← orNone (one (typeAfterColon r { ends := true }))
  let value ← orNone (one (assignSign *> field .value (r.expression .outside)))
  return name :: type ++ value

def variablesAfter (r : Reader) (kind : String) (w : String) : Parser Tree := do
  let start ← next
  keyword w
  if w == "let" then Flow.outside.goesOn
  let declarators ← sepBy1 (declarator r) (symbol ",")
  let valued := declarators.getLast?.any fun d => (d.child? .value).isSome
  ending (if valued then .value else .other)
  close (other kind) start declarators

def variableDeclaration (r : Reader) : Parser Tree :=
  variablesAfter r "variable_declaration" "var"
    <|> variablesAfter r "lexical_declaration" "let"
    <|> variablesAfter r "lexical_declaration" "const"

/-! ### Functions -/

def functionDeclaration (r : Reader) : Parser Tree := do
  let start ← next
  let _ ← optional (asyncMark .outside)
  keyword "function"
  let star ← optional (symbol "*")
  let name ← field .name (nameNode .identifier)
  let head ← signature r { ends := true }
  if (← peek) == some '\x7b' then
    let body ← field .body r.block
    close (if star.isSome then .generatorFunctionDeclaration else .functionDeclaration) start
      (name :: head ++ [body])
  else
    ending .head
    close (other "function_signature") start (name :: head)

/-! ### Types -/

def typeDeclaration (r : Reader) : Parser Tree := node (other "type_alias_declaration") do
  keyword "type"
  Flow.outside.goesOn
  let name ← field .name (nameNode (other "type_identifier"))
  let params ← orNone (one (typeParameters r))
  symbol "="
  let value ← field .value (r.type { ends := true })
  ending .other
  return name :: params ++ [value]

def interfaceDeclaration (r : Reader) : Parser Tree := node (other "interface_declaration") do
  keyword "interface"
  let name ← field .name (nameNode (other "type_identifier"))
  let params ← orNone (one (typeParameters r))
  let bases ← orNone <| one <| node (other "extends_type_clause")
    (keyword "extends" *> sepBy1 (namedType r .inside) (symbol ","))
  return name :: params ++ bases ++ [← field .body r.objectType]

def enumDeclaration (r : Reader) : Parser Tree := node (other "enum_declaration") do
  let _ ← optional (keyword "const")
  keyword "enum"
  let name ← field .name (nameNode .identifier)
  return [name, ← field .body body]
where
  body : Parser Tree :=
    node (other "enum_body") (within "\x7b" "\x7d" (orNone (commaList (one member))))
  member : Parser Tree := do
    let start ← next
    let name ← field .name (propertyName r)
    match ← optional (assignSign *> field .value (r.expression .inside)) with
    | none => return name
    | some value => close (other "enum_assignment") start [name, value]

/-! ### Namespaces -/

def moduleDeclaration (r : Reader) (kind w : String) : Parser Tree := node (other kind) do
  keyword w
  Flow.outside.goesOn
  let name ← field .name
    (stringLiteral <|> dottedName .identifier (other "nested_identifier") propertyNode)
  return name :: (← orNone (one (field .body r.block)))

def importAlias : Parser Tree := node (other "import_alias") do
  keyword "import"
  let name ← nameNode .identifier
  symbol "="
  let target ← dottedName .identifier (other "nested_identifier") propertyNode
  ending .other
  return [name, target]

/-! ### Declarations -/

-- A declaration by the word that it begins with, except one that is only announced.
def plainDeclaration (r : Reader) (w : String) : Parser Tree :=
  match w with
  | "var" | "let" => variableDeclaration r
  | "const" => enumDeclaration r <|> variableDeclaration r
  | "function" | "async" => functionDeclaration r
  | "class" | "abstract" => classDeclaration r
  | "interface" => interfaceDeclaration r
  | "enum" => enumDeclaration r
  | "type" => typeDeclaration r
  | "namespace" => moduleDeclaration r "internal_module" "namespace"
  | "module" => moduleDeclaration r "module" "module"
  | "import" => importAlias
  | _ => failure

def ambientDeclaration (r : Reader) : Parser Tree := node (other "ambient_declaration") do
  keyword "declare"
  Flow.outside.goesOn
  one (keyword "global" *> r.block) <|> (do
    keyword "module" *> symbol "."
    let name ← propertyNode
    symbol ":"
    let type ← r.type { ends := true }
    ending .other
    return [name, type])
  <|> do one (plainDeclaration r (← peekWord))

def declaration (r : Reader) : Parser Tree := do
  let w ← peekWord
  if w == "declare" then ambientDeclaration r
  else if w.isEmpty then classDeclaration r
  else plainDeclaration r w

end SuiteDraft.Grammar
