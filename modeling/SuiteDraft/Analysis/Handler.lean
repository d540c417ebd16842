import SuiteDraft.Analysis.Call
import SuiteDraft.Analysis.Effect

/-!
Handlers and the states that they set: a call of a setter belongs to the function around it, under
the name by which that function is known.
-/

namespace SuiteDraft.Handler

def enclosingFunction? (p : Place) : Option Place := p.ancestors.find? (·.kind.isFunction)

def variableName? (declarator : Tree) : Option String :=
  if declarator.kind = .variableDeclarator then
    match declarator.child? .name with
    | some binding => if binding.kind = .identifier then some binding.text else none
    | none => none
  else none

/-- The name of the variable that holds `useCallback` of a function which stands among the arguments
`args`. -/
def callbackName? (fn args : Place) : Option String := do
  let call ← args.parent?
  guard (call.node.isCallOf "useCallback")
  let first ← call.callArguments.head?
  guard (first.address = fn.address)
  variableName? (← call.parent?).node

def ownName? (fn : Tree) : Option String :=
  if fn.kind = .arrowFunction then none else (fn.child? .name).map (·.text)

-- The name that a function has from where it stands: the variable that it initialises, or the one
-- that holds its `useCallback`.
def positionName? (fn : Place) : Option String := do
  let parent ← fn.parent?
  if parent.kind = .variableDeclarator then variableName? parent.node
  else if parent.kind = .arguments then callbackName? fn parent
  else none

def name? (fn : Place) : Option String := (ownName? fn.node).or (positionName? fn)

-- A call of a function by its bare name: the name and the call.
def bareCall? (p : Place) : Option (String × Place) :=
  if p.kind = .callExpression then p.node.bareCallee?.map fun name => (name, p) else none

def setterCall? (setters : List String) (call : String × Place) : Option (String × String) := do
  guard (call.1 ∈ setters)
  let fn ← enclosingFunction? call.2
  return (← name? fn, call.1)

def record (map : Keyed (List String)) (call : String × String) : Keyed (List String) :=
  let known := (map.get? call.1).getD []
  map.put call.1 (if call.2 ∈ known then known else known ++ [call.2])

/-- The setters that each handler calls, in the order of the source, from the calls by bare name. -/
def setterMap (states : List StatePair) (calls : List (String × Place)) : Keyed (List String) :=
  (calls.filterMap (setterCall? (states.map (·.setterName)))).foldl record []

end SuiteDraft.Handler
