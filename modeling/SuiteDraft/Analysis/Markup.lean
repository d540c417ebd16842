import SuiteDraft.Analysis.Literal
import SuiteDraft.Analysis.Role

/-!
The records of markup elements: tag, attributes, bound events, test id, first text and role.
-/

namespace SuiteDraft.Markup

/-- What the attributes of an opening tag say. -/
structure Attributes where
  properties : Keyed PropertyValue := []
  events : Keyed String := []
  stableId : Option String := none
  deriving DecidableEq

-- The value of an expression in braces: a name is marked as one, a literal stands for itself, and
-- all else is `dynamic`.
def expressionValue (inner : List Tree) : Except LiteralError PropertyValue :=
  match inner with
  | [] => .ok (.text "dynamic")
  | expr :: _ =>
    match expr.kind with
    | .identifier => .ok (.text ("expr:" ++ expr.text))
    | .string => do return .text ((← Literal.value? expr).getD "")
    | .number | .trueWord | .falseWord => .ok (.text expr.text)
    | _ => .ok (.text "dynamic")

def attributeValue (value : Option Tree) : Except LiteralError PropertyValue :=
  match value with
  | none => .ok (.flag true)
  | some v =>
    match v.kind with
    | .string => do return .text ((← Literal.value? v).getD "")
    | .jsxExpression => expressionValue v.meaningful
    | _ => .ok (.text "unknown")

def boundName? (value : Option Tree) : Option String :=
  match value with
  | some v =>
    if v.kind = .jsxExpression then
      match v.meaningful with
      | expr :: _ => if expr.kind = .identifier then some expr.text else none
      | [] => none
    else none
  | none => none

-- The text of an attribute that is a literal, with or without braces.
def literalText? (value : Option Tree) : Except LiteralError (Option String) :=
  match value with
  | some v =>
    match v.kind with
    | .string => Literal.value? v
    | .jsxExpression =>
      match v.meaningful with
      | [expr] => if expr.kind = .string then Literal.value? expr else .ok none
      | _ => .ok none
    | _ => .ok none
  | none => .ok none

-- Adds an attribute. A handler is recorded when the name begins with `on` and is bound to a name; a
-- test id when it is literal.
def Attributes.add (a : Attributes) (name : String) (value : Option Tree) :
    Except LiteralError Attributes := do
  let property ← attributeValue value
  let events := match boundName? value with
    | some handler => if name.startsWith "on" then a.events.put name handler else a.events
    | none => a.events
  let literal ← if name = "data-testid" then literalText? value else .ok none
  return { properties := a.properties.put name property, events, stableId := literal.or a.stableId }

-- Adds one child of an opening tag. Spreads and names in a namespace say nothing.
def Attributes.addChild (a : Attributes) (child : Tree) : Except LiteralError Attributes :=
  if child.kind = .jsxAttribute then
    match child.meaningful with
    | name :: rest =>
      if name.kind = .jsxNamespaceName then .ok a else a.add name.text rest.head?
    | [] => .ok a
  else .ok a

def attributes (opening : Tree) : Except LiteralError Attributes :=
  opening.namedChildren.foldlM Attributes.addChild {}

-- The characters of a piece of text: literal text, or a reference with its character.
def textPiece? (t : Tree) : Option (List Char) :=
  match t.kind with
  | .jsxText => some t.text.toList
  | .characterReference => some (Text.resolveReferences t.text).toList
  | _ => none

-- The text of a run without the blanks at its ends; nothing when it is all blank.
def runText? (run : List Char) : Option String :=
  let text := Text.trim run
  if text.isEmpty then none else some (String.ofList text)

-- The first text among nodes that follow a run: pieces of text join the run, any other node ends
-- it.
def firstText? (run : List Char) : List Tree → Option String
  | [] => runText? run
  | c :: cs =>
    match textPiece? c with
    | some piece => firstText? (run ++ piece) cs
    | none => (runText? run).or (firstText? [] cs)

-- The opening tag of an element; an element that closes itself is its own.
def openingTag? (t : Tree) : Option Tree :=
  if t.kind = .jsxElement then t.child? .openTag else some t

def isElement (t : Tree) : Bool := t.kind == .jsxElement || t.kind == .jsxSelfClosingElement

def nameNode? (t : Tree) : Option Tree := (openingTag? t).bind (·.child? .name)

def record (t name : Tree) : Except LiteralError Element := do
  let tag := String.ofList (Text.unspaced name.text.toList)
  let a ← attributes ((openingTag? t).getD t)
  let text := if t.kind = .jsxElement then firstText? [] t.namedChildren else none
  return { tag, properties := a.properties, text, stableId := a.stableId, events := a.events,
           roleHint := Role.infer tag a.properties }

/-- The record of an element; a fragment and a node that is no element have none. -/
def element? (t : Tree) : Except LiteralError (Option Element) :=
  if isElement t then
    match nameNode? t with
    | some name => do return some (← record t name)
    | none => .ok none
  else .ok none

end SuiteDraft.Markup
