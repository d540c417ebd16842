import SuiteDraft.Analysis.Handler
import SuiteDraft.Analysis.Markup

/-!
The facts of a component as they are collected in a walk over its scope. Which calls set a state is
known only after the walk, so that calls by bare name are kept with their places.
-/

namespace SuiteDraft

/-- What has been collected so far. -/
structure Facts where
  elements : List Element := []
  states : List StatePair := []
  hasEffects : Bool := false
  effectDependencies : List String := []
  network : Network := {}
  calls : List (String × Place) := []

namespace Facts

def visitElement (facts : Facts) (p : Place) : Except LiteralError Facts := do
  let element ← Markup.element? p.node
  return { facts with elements := facts.elements ++ element.toList }

-- Records an effect: that there is one, the names that it depends on and the network calls of its
-- callback.
def visitEffect (facts : Facts) (p : Place) : Except LiteralError Facts := do
  let network ← facts.network.visitEffect p
  return { facts with
    hasEffects := true
    effectDependencies :=
      (Effect.dependencies p.node).foldl Effect.addName facts.effectDependencies
    network }

-- Records a call: the effect that it is, if it is one, and the call itself when it is by bare name.
def visitCall (facts : Facts) (p : Place) : Except LiteralError Facts := do
  let facts ← if Effect.isEffect p.node then facts.visitEffect p else .ok facts
  return { facts with calls := facts.calls ++ (Handler.bareCall? p).toList }

/-- Visits a node. -/
def visit (facts : Facts) (p : Place) : Except LiteralError Facts :=
  match p.kind with
  | .jsxElement | .jsxSelfClosingElement => facts.visitElement p
  | .variableDeclarator =>
    .ok { facts with states := facts.states ++ (Effect.state? p.node).toList }
  | .callExpression => facts.visitCall p
  | _ => .ok facts

def toComponent (facts : Facts) (name : String) (props : List String) : Component where
  name
  elements := facts.elements
  states := facts.states
  hasEffects := facts.hasEffects
  props
  usesFetch := facts.network.usesFetch
  usesAxios := facts.network.usesAxios
  apis := facts.network.apis
  effectDependencies := facts.effectDependencies
  eventToSetterMap := Handler.setterMap facts.states facts.calls

end Facts

end SuiteDraft
