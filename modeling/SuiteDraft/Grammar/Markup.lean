import SuiteDraft.Grammar.Call

/-!
Markup: elements with attributes and children. The name that closes an element need not be the one
that opened it, and a fragment is an element whose tags have no name.
-/

namespace SuiteDraft.Grammar

open SuiteDraft.Grammar.Parser

def markupName (kind : Kind) : Parser Tree := leaf kind (longest [hyphenated, name])

def namespacedName : Parser Tree := node .jsxNamespaceName do
  let space ← markupName .identifier
  symbol ":"
  return [space, ← markupName .identifier]

-- The name of an element: a plain one, one in a namespace, or a chain of names.
def elementName : Parser Tree := do
  let start ← next
  match ← optional namespacedName with
  | some t => return t
  | none =>
    let head ← markupName .identifier
    moreNames .memberExpression (nameNode .propertyIdentifier) start
      (if head.text.toList.contains '-' then 0 else start.left) head

def markupExpression (r : Reader) : Parser Tree :=
  node .jsxExpression
    (within "\x7b" "\x7d" (orNone (one (spread r <|> expressions r .inside))))

-- A string as the value of an attribute: without escapes, but with character references.
def attributeString (quote : Char) : Parser Tree :=
  let mark := String.ofList [quote]
  node .string do
    symbol mark
    let pieces ← many <|
      leafHere .stringFragment (attributeText quote)
        <|> leafHere .characterReference characterReference
    adjacent mark
    return pieces

def markupAttribute (r : Reader) : Parser Tree := node .jsxAttribute do
  let name ← namespacedName <|> markupName .propertyIdentifier
  let value ← orNone <| one <| symbol "=" *>
    (attributeString '"' <|> attributeString '\'' <|> markupExpression r <|> r.markup)
  return name :: value

-- The inside of an opening tag: a name and attributes, or nothing.
def tagContent (r : Reader) : Parser (List Tree) := orNone do
  let name ← field .name elementName
  let types ← orNone (one (field typeArgumentsField (typeArguments r)))
  let attributes ← many (field (.other "attribute") (markupExpression r <|> markupAttribute r))
  return name :: types ++ attributes

def closingTag : Parser Tree := node (other "jsx_closing_element") do
  symbol "</"
  let name ← orNone (one (field .name elementName))
  symbol ">"
  return name

def markupChild (r : Reader) : Parser Tree :=
  leafHere .jsxText markupText
    <|> leaf .characterReference characterReference
    <|> markupExpression r
    <|> (do
      guard (!(← next).startsWith "</".toList)
      r.markup)

def markup.read (r : Reader) : Parser Tree := do
  let start ← next
  symbol "<"
  let content ← tagContent r
  (do
    symbol "/>"
    close .jsxSelfClosingElement start content)
  <|> do
    symbol ">"
    let opening ← close (other "jsx_opening_element") start content
    let children ← many (markupChild r)
    let closing ← field (.other "close_tag") closingTag
    close .jsxElement start (opening.inField .openTag :: children ++ [closing])

end SuiteDraft.Grammar
