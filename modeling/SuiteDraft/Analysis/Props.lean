import SuiteDraft.Analysis.Literal

/-!
The props of a component: the names that its first parameter takes from its caller.
-/

namespace SuiteDraft.Props

-- The name that one entry of an object pattern takes: a shorthand field, the key of a renamed
-- field, a shorthand field with a default, or the name of the rest.
def entryName? (entry : Tree) : Except LiteralError (Option String) :=
  match entry.kind with
  | .shorthandPattern => .ok (some entry.text)
  | .pairPattern =>
    match entry.child? .key with
    | some key =>
      match key.kind with
      | .propertyIdentifier => .ok (some key.text)
      | .string => Literal.value? key
      | _ => .ok none
    | none => .ok none
  | .objectAssignmentPattern =>
    match entry.child? .left with
    | some left =>
      if left.kind = .shorthandPattern || left.kind = .identifier then .ok (some left.text)
      else .ok none
    | none => .ok none
  | .restPattern => .ok ((entry.meaningful.find? (·.kind == .identifier)).map (·.text))
  | _ => .ok none

mutual

/-- The names that a pattern takes: its own when it is a name, those of its entries when it is an
object pattern; a default does not count. -/
def ofPattern : Tree → Except LiteralError (List String)
  | .node l cs =>
    match l.kind with
    | .identifier => .ok [l.text]
    | .assignmentPattern => ofLeft cs
    | .objectPattern => do
      let names ← (Tree.node l cs).meaningful.mapM entryName?
      return names.filterMap id
    | _ => .ok []

def ofLeft : List Tree → Except LiteralError (List String)
  | [] => .ok []
  | c :: cs => if c.label.field == some .left then ofPattern c else ofLeft cs

end

-- The pattern of a parameter, which a parameter with a type or a default holds in a field.
def parameterPattern? (parameter : Tree) : Option Tree :=
  if parameter.kind = .requiredParameter || parameter.kind = .optionalParameter then
    parameter.child? .pattern
  else some parameter

def firstPattern? (fn : Tree) : Option Tree :=
  match fn.child? .parameter with
  | some single => some single
  | none =>
    match fn.child? .parameters with
    | some parameters => parameters.meaningful.head?.bind parameterPattern?
    | none => none

def ofFunction (fn : Tree) : Except LiteralError (List String) :=
  match firstPattern? fn with
  | some pattern => ofPattern pattern
  | none => .ok []

end SuiteDraft.Props
