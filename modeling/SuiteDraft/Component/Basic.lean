import SuiteDraft.Keyed

/-!
What is known of a component after its source has been read: its markup elements, its states, its
props, the network calls of its effects and the states that its handlers set.
-/

namespace SuiteDraft

def anonymousName : String := "Anonymous"

def unknownUrl : String := "unknown"

/-- The value of an attribute: `flag true` when it is bare; otherwise a literal text, or `expr:`
and a name, or one of the words `dynamic` and `unknown`. -/
inductive PropertyValue where
  | flag (value : Bool)
  | text (value : String)
  deriving DecidableEq, Inhabited

/-- A markup element: its tag, its attributes, its first text, its test id, the handlers bound to
its events and the role that it plays. -/
structure Element where
  tag : String
  properties : Keyed PropertyValue := []
  text : Option String := none
  stableId : Option String := none
  events : Keyed String := []
  roleHint : Option String := none
  deriving DecidableEq, Inhabited

/-- A state: the name of its value and the name of the function that sets it. -/
structure StatePair where
  valueName : String
  setterName : String
  deriving DecidableEq, Inhabited

/-- The two ways of reaching the network that are recognised. -/
inductive CallKind where
  | fetch
  | axios
  deriving DecidableEq, Inhabited

/-- A network call: only a call through the client names its method. -/
structure NetworkCall where
  kind : CallKind
  method : Option String := none
  url : String := unknownUrl
  deriving DecidableEq, Inhabited

/-- What is known of a component. -/
structure Component where
  name : String := anonymousName
  elements : List Element := []
  states : List StatePair := []
  hasEffects : Bool := false
  props : List String := []
  usesFetch : Bool := false
  usesAxios : Bool := false
  apis : List NetworkCall := []
  effectDependencies : List String := []
  eventToSetterMap : Keyed (List String) := []
  deriving DecidableEq, Inhabited

def CallKind.name : CallKind → String
  | fetch => "fetch"
  | axios => "axios"

end SuiteDraft
