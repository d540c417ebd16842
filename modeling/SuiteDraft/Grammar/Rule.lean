import SuiteDraft.Grammar.Ending
import SuiteDraft.Grammar.Lexeme
import SuiteDraft.Path.Basic

/-!
The rules of the grammar that refer to one another, and the two dialects in which it is read. The
modules after this one say how each rule reads, given parsers for all of them; the last one ties the
knot.
-/

namespace SuiteDraft.Grammar

/-- With markup, or with angle brackets as type assertions instead. -/
inductive Dialect where
  | markup
  | plain
  deriving DecidableEq

def plainSuffixes : List String := [".ts", ".mts", ".cts"]

def Dialect.ofPath (path : String) : Dialect :=
  if plainSuffixes.contains (Path.ofString path).suffix then .plain else .markup

/-- Where an expression stands. -/
structure Flow where
  ends : Bool := false
  -- A colon after a parameter list is the one of an enclosing conditional.
  bareArrows : Bool := false
  deriving DecidableEq

def Flow.inside : Flow := {}

-- Where a statement may end, if a line break may end the expression.
def Flow.goesOn (flow : Flow) : Parser Unit :=
  if flow.ends then Parser.goesOn .value else pure ()

def Flow.outside : Flow := { ends := true }

/-- Where a type stands. -/
structure TypeFlow where
  ends : Bool := false
  inValue : Bool := false
  deriving DecidableEq

def TypeFlow.inside : TypeFlow := {}

/-- The rules that refer to one another. -/
inductive Rule where
  /-- A statement. -/
  | statement
  /-- Statements in braces. -/
  | block
  /-- An expression without a comma. -/
  | expression (flow : Flow)
  /-- Operands and the operators that bind them at least as tightly as `level`. -/
  | operation (flow : Flow) (level : Nat)
  /-- An operand with the operators in front of it. -/
  | unary (flow : Flow)
  /-- A name, a literal or a bracketed expression with what is called or asked of it. -/
  | access (flow : Flow)
  /-- What `new` is put in front of: the same, but nothing is called. -/
  | maker (flow : Flow)
  /-- The target of a binding or of an assignment. -/
  | pattern
  /-- Parameters in round brackets. -/
  | parameters
  /-- A type. -/
  | type (flow : TypeFlow)
  /-- A type without a union, an intersection or a condition. -/
  | simpleType (flow : TypeFlow)
  /-- Members in braces that are only declared. -/
  | objectType
  /-- A markup element. -/
  | markup
  deriving DecidableEq

/-- A way to read every rule, in a dialect. -/
structure Reader where
  dialect : Dialect
  read : Rule → Parser Tree

namespace Reader

variable (r : Reader)

def statement : Parser Tree := r.read .statement

def block : Parser Tree := r.read .block

def expression (flow : Flow) : Parser Tree := r.read (.expression flow)

def pattern : Parser Tree := r.read .pattern

def parameters : Parser Tree := r.read .parameters

def type (flow : TypeFlow) : Parser Tree := r.read (.type flow)

def objectType : Parser Tree := r.read .objectType

def markup : Parser Tree := r.read .markup

end Reader

abbrev other (name : String) : Kind := .other name

namespace Parser

def within {α : Type} (opening closing : String) (p : Parser α) : Parser α := do
  symbol opening
  let a ← p
  symbol closing
  return a

-- What `p` reads, again and again with commas between; a place may be empty.
def places (p : Parser (List Tree)) : Parser (List Tree) := do
  return (← sepBy1 (orNone p) (symbol ",")).flatten

-- A comma that tells one place from the next; it is no named node.
def comma : Parser Tree := do
  match ← leaf (other ",") (exactly ",") with
  | .node label children => return .node { label with named := false } children

-- What `p` reads, again and again with the commas between; a place may be empty.
def placesApart (p : Parser (List Tree)) : Parser (List Tree) := do
  let first ← orNone p
  let others ← many do
    let mark ← comma
    return mark :: (← orNone p)
  return first ++ others.flatten

-- What `p` reads, once or more with commas between, and perhaps one comma at the end.
def commaList (p : Parser (List Tree)) : Parser (List Tree) := do
  let items ← sepBy1 p (symbol ",")
  let _ ← optional (symbol ",")
  return items.flatten

def nameNode (kind : Kind) : Parser Tree := leaf kind name

def propertyNode : Parser Tree :=
  leaf (other "private_property_identifier") ((exactly "#").andThen name)
    <|> nameNode .propertyIdentifier

end Parser

end SuiteDraft.Grammar
