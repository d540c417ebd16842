import SuiteDraft.Component.Basic
import SuiteDraft.Json.Basic

/-!
The JSON form of a component: every field, in a fixed order, under its camel-case name.
-/

namespace SuiteDraft

def PropertyValue.toJson : PropertyValue → Json
  | flag b => .bool b
  | text s => .string s

def Element.toJson (e : Element) : Json := .object [
  ("type", .string e.tag),
  ("properties", .object (e.properties.map fun p => (p.1, p.2.toJson))),
  ("text", .ofText? e.text),
  ("stableId", .ofText? e.stableId),
  ("events", .object (e.events.map fun p => (p.1, .string p.2))),
  ("roleHint", .ofText? e.roleHint)]

def StatePair.toJson (s : StatePair) : Json := .object [
  ("valueName", .string s.valueName),
  ("setterName", .string s.setterName)]

def NetworkCall.toJson (c : NetworkCall) : Json := .object [
  ("kind", .string c.kind.name),
  ("method", .ofText? c.method),
  ("url", .string c.url)]

def Component.toJson (c : Component) : Json := .object [
  ("name", .string c.name),
  ("elements", .array (c.elements.map Element.toJson)),
  ("states", .array (c.states.map StatePair.toJson)),
  ("hasEffects", .bool c.hasEffects),
  ("props", .ofTexts c.props),
  ("usesFetch", .bool c.usesFetch),
  ("usesAxios", .bool c.usesAxios),
  ("apis", .array (c.apis.map NetworkCall.toJson)),
  ("effectDependencies", .ofTexts c.effectDependencies),
  ("eventToSetterMap", .object (c.eventToSetterMap.map fun p => (p.1, .ofTexts p.2)))]

end SuiteDraft
