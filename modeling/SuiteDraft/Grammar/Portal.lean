import SuiteDraft.Grammar.Declaration

/-!
What a module takes in and gives out: imports and exports.
-/

namespace SuiteDraft.Grammar

open SuiteDraft.Grammar.Parser

/-! ### Specifiers -/

def portalName : Parser Tree := nameNode .identifier <|> stringLiteral

-- A name, perhaps with another one by which it goes on the other side.
def specifier (kind : String) : Parser Tree :=
  node (other kind) ((keyword "type" <|> keyword "typeof") *> names <|> names)
where
  names : Parser (List Tree) := do
    let name ← field .name portalName
    let renamed ← orNone (one (keyword "as" *> field .exportedName portalName))
    let c ← peek
    guard (c == some ',' || c == some '\x7d')
    return name :: renamed

def specifiers (kind : Kind) (item : String) : Parser Tree :=
  node kind <| within "\x7b" "\x7d" do
    let items ← orNone (commaList (one (specifier item)))
    let _ ← optional (symbol ",")
    return items

def fromClause : Parser Tree := keyword "from" *> field .source stringLiteral

def portalAttribute (r : Reader) : Parser (List Tree) := orNone do
  Parser.goesOn .other
  one (node (other "import_attribute") (keyword "with" *> one (objectLiteral r)))

/-! ### Imports -/

def namespaceImport : Parser Tree :=
  node (other "namespace_import") (symbol "*" *> keyword "as" *> one (nameNode .identifier))

def namedImports : Parser Tree := specifiers (other "named_imports") "import_specifier"

def importClause : Parser Tree := node (other "import_clause") <|
  one namespaceImport <|> one namedImports <|> do
    let main ← nameNode .identifier
    return main :: (← orNone (symbol "," *> one (namespaceImport <|> namedImports)))

def requireClause : Parser Tree := node (other "import_require_clause") do
  let name ← nameNode .identifier
  symbol "="
  keyword "require"
  return [name, ← field .source (within "(" ")" stringLiteral)]

def importStatement (r : Reader) : Parser Tree := node (other "import_statement") do
  keyword "import"
  let parts ← (keyword "type" <|> keyword "typeof") *> body <|> body
  let how ← portalAttribute r
  ending .other
  return parts ++ how
where
  body : Parser (List Tree) :=
    (do return [← importClause, ← fromClause])
      <|> one requireClause
      <|> one (field .source stringLiteral)

/-! ### Exports -/

-- The word by which a module gives its main value out; it is no named node.
def defaultMark : Parser Tree := do
  match ← wordNode .defaultWord "default" with
  | .node label children => return .node { label with named := false } children

-- The words that begin a declaration wherever one may stand, and so are no names there.
def declarationWords : List String := ["var", "const", "enum", "interface", "abstract"]

def defaultExport (r : Reader) : Parser (List Tree) := do
  let mark ← defaultMark
  let given ← one (field .declaration (declaration r)) <|> value
  return mark :: given
where
  value : Parser (List Tree) := do
    guard (!declarationWords.contains (← peekWord))
    let t ← field .value (r.expression .outside)
    ending .value
    return [t]

def exportAll (r : Reader) : Parser (List Tree) := do
  let space ← one (node (other "namespace_export")
    (symbol "*" *> keyword "as" *> one portalName)) <|> (symbol "*" *> pure [])
  let source ← fromClause
  let how ← portalAttribute r
  ending .other
  return space ++ source :: how

def exportNames (r : Reader) : Parser (List Tree) := do
  let _ ← optional (keyword "type")
  let names ← specifiers .exportClause "export_specifier"
  let source ← orNone (one fromClause)
  let how ← portalAttribute r
  ending .other
  return names :: source ++ how

-- What is given out in one of the two old ways: as the module itself, or as a global name.
def exportWhole (r : Reader) : Parser (List Tree) :=
  (do
    assignSign
    let t ← r.expression .outside
    ending .value
    return [t])
  <|> do
    keyword "as" *> keyword "namespace"
    let name ← nameNode .identifier
    ending .other
    return [name]

def exportStatement (r : Reader) : Parser Tree := node .exportStatement do
  let before ← decorators r
  keyword "export"
  Flow.outside.goesOn
  let parts ← defaultExport r <|> exportAll r <|> exportNames r <|> exportWhole r
    <|> one (field .declaration (declaration r))
  return before ++ parts

end SuiteDraft.Grammar
