import SuiteDraft.Component.Basic
import SuiteDraft.Json.Basic
import SuiteDraft.Text.Case

/-!
Reading a component from JSON. A field may stand under its camel-case or its snake-case name, and
the camel-case one counts when both are there; a missing field has its default, an unknown one is
left out of account, and a value of a wrong kind refuses the whole.
-/

namespace SuiteDraft

namespace Json

-- A field under the first of two names, or else under the second.
def field? (j : Json) (name other : String) : Option Json :=
  (j.member? name).or (j.member? other)

def asText? : Json → Option String
  | string s => some s
  | _ => none

def asOptionalText? : Json → Option (Option String)
  | null => some none
  | string s => some (some s)
  | _ => none

def flagWords : List (String × Bool) := [
  ("true", true), ("t", true), ("yes", true), ("y", true), ("on", true), ("1", true),
  ("false", false), ("f", false), ("no", false), ("n", false), ("off", false), ("0", false)]

def numberAsFlag? (units : Int) (places : Nat) : Option Bool :=
  if units = 0 then some false
  else if units = Int.ofNat (Nat.pow 10 places) then some true
  else none

def asFlag? : Json → Option Bool
  | bool b => some b
  | number units places => numberAsFlag? units places
  | string s => flagWords.lookup (Text.lowerLatin s)
  | _ => none

def asList? {α : Type} (read : Json → Option α) : Json → Option (List α)
  | array items => items.mapM read
  | _ => none

def asKeyed? {α : Type} (read : Json → Option α) : Json → Option (Keyed α)
  | object members => members.mapM fun m => (read m.2).map fun v => (m.1, v)
  | _ => none

def fieldOr? {α : Type} (j : Json) (name other : String) (absent : α) (read : Json → Option α) :
    Option α :=
  match j.field? name other with
  | none => some absent
  | some value => read value

def isObject : Json → Bool
  | object _ => true
  | _ => false

end Json

def PropertyValue.ofJson? : Json → Option PropertyValue
  | .bool b => some (.flag b)
  | .string s => some (.text s)
  | .number units places => (Json.numberAsFlag? units places).map .flag
  | _ => none

def Element.ofJson? (j : Json) : Option Element := do
  let tag ← (← j.member? "type").asText?
  let properties ← j.fieldOr? "properties" "properties" [] (Json.asKeyed? PropertyValue.ofJson?)
  let text ← j.fieldOr? "text" "text" none Json.asOptionalText?
  let stableId ← j.fieldOr? "stableId" "stable_id" none Json.asOptionalText?
  let events ← j.fieldOr? "events" "events" [] (Json.asKeyed? Json.asText?)
  let roleHint ← j.fieldOr? "roleHint" "role_hint" none Json.asOptionalText?
  return { tag, properties, text, stableId, events, roleHint }

def StatePair.ofJson? (j : Json) : Option StatePair := do
  let valueName ← (← j.field? "valueName" "value_name").asText?
  let setterName ← (← j.field? "setterName" "setter_name").asText?
  return { valueName, setterName }

def CallKind.ofName? : String → Option CallKind
  | "fetch" => some .fetch
  | "axios" => some .axios
  | _ => none

def NetworkCall.ofJson? (j : Json) : Option NetworkCall := do
  let kind ← CallKind.ofName? (← (← j.member? "kind").asText?)
  let method ← j.fieldOr? "method" "method" none Json.asOptionalText?
  let url ← j.fieldOr? "url" "url" unknownUrl Json.asText?
  return { kind, method, url }

def Component.ofJson? (j : Json) : Option Component := do
  guard j.isObject
  let name ← j.fieldOr? "name" "name" anonymousName Json.asText?
  let elements ← j.fieldOr? "elements" "elements" [] (Json.asList? Element.ofJson?)
  let states ← j.fieldOr? "states" "states" [] (Json.asList? StatePair.ofJson?)
  let hasEffects ← j.fieldOr? "hasEffects" "has_effects" false Json.asFlag?
  let props ← j.fieldOr? "props" "props" [] (Json.asList? Json.asText?)
  let usesFetch ← j.fieldOr? "usesFetch" "uses_fetch" false Json.asFlag?
  let usesAxios ← j.fieldOr? "usesAxios" "uses_axios" false Json.asFlag?
  let apis ← j.fieldOr? "apis" "apis" [] (Json.asList? NetworkCall.ofJson?)
  let effectDependencies ←
    j.fieldOr? "effectDependencies" "effect_dependencies" [] (Json.asList? Json.asText?)
  let eventToSetterMap ←
    j.fieldOr? "eventToSetterMap" "event_to_setter_map" []
      (Json.asKeyed? (Json.asList? Json.asText?))
  return { name, elements, states, hasEffects, props, usesFetch, usesAxios, apis,
           effectDependencies, eventToSetterMap }

end SuiteDraft
