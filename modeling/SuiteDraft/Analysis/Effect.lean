import SuiteDraft.Analysis.Call
import SuiteDraft.Analysis.Literal
import SuiteDraft.Component.Basic
import SuiteDraft.Tree.Walk

/-!
States, effects and the network calls of effects.
-/

namespace SuiteDraft

namespace Effect

-- The state that a declarator such as `[value, setValue] = useState()` declares.
def state? (t : Tree) : Option StatePair :=
  if t.kind = .variableDeclarator then
    match t.child? .name, t.child? .value with
    | some pattern, some value =>
      if pattern.kind = .arrayPattern && value.isCallOf "useState" then
        match pattern.meaningful with
        | [v, s] =>
          if v.kind = .identifier && s.kind = .identifier then some ⟨v.text, s.text⟩ else none
        | _ => none
      else none
    | _, _ => none
  else none

def isEffect (t : Tree) : Bool := t.isCallOf "useEffect"

def dependencies (effect : Tree) : List String :=
  match effect.callArguments with
  | _ :: second :: _ =>
    if second.kind = .array then
      (second.meaningful.filter (·.kind == .identifier)).map (·.text)
    else []
  | _ => []

def clientMethod? (call : Tree) : Option String :=
  match call.child? .function with
  | some callee =>
    if callee.kind = .memberExpression then
      match callee.plainMember? with
      | some (object, property) => if object.text = "axios" then some property.text else none
      | none => none
    else none
  | none => none

-- The address of a network call: the value of its first argument, when that is a literal.
def url (call : Tree) : Except LiteralError String :=
  match call.callArguments with
  | first :: _ => do return (← Literal.value? first).getD unknownUrl
  | [] => .ok unknownUrl

def networkCall? (t : Tree) : Except LiteralError (Option NetworkCall) :=
  if t.kind = .callExpression then
    match clientMethod? t with
    | some method => do return some { kind := .axios, method := some method, url := ← url t }
    | none =>
      if t.bareCallee? = some "fetch" then do return some { kind := .fetch, url := ← url t }
      else .ok none
  else .ok none

-- Adds a name to those already known, unless it is among them.
def addName (known : List String) (name : String) : List String :=
  if name ∈ known then known else known ++ [name]

def callbackBody? (effect : Place) : Option Place :=
  match effect.callArguments with
  | first :: _ => if first.kind.isFunctionValue then first.child? .body else none
  | [] => none

end Effect

/-- The network calls met so far, and whether either way of reaching the network is among them. -/
structure Network where
  apis : List NetworkCall := []
  usesFetch : Bool := false
  usesAxios : Bool := false

namespace Network

def record (n : Network) (call : NetworkCall) : Network :=
  match call.kind with
  | .fetch => { n with apis := n.apis ++ [call], usesFetch := true }
  | .axios => { n with apis := n.apis ++ [call], usesAxios := true }

-- Visits a node: the network call that it is, if it is one, is recorded.
def visit (n : Network) (p : Place) : Except LiteralError Network := do
  match ← Effect.networkCall? p.node with
  | some call => return n.record call
  | none => return n

def visitEffect (n : Network) (effect : Place) : Except LiteralError Network :=
  match Effect.callbackBody? effect with
  | some body => Place.walk visit n [body]
  | none => .ok n

end Network

end SuiteDraft
