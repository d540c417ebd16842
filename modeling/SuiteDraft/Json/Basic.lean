/-!
JSON values. A number is a whole number of units of a decimal place, so that every number that JSON
can write is exact; an object keeps the order of its members.
-/

namespace SuiteDraft

/-- A JSON value; `number m p` is `m` divided by ten to the power `p`. -/
inductive Json where
  | null
  | bool (value : Bool)
  | number (units : Int) (places : Nat)
  | string (text : String)
  | array (items : List Json)
  | object (members : List (String × Json))
  deriving Inhabited

namespace Json

def member? (j : Json) (name : String) : Option Json :=
  match j with
  | object members => members.lookup name
  | _ => none

def ofText? : Option String → Json
  | none => null
  | some s => string s

def ofTexts (texts : List String) : Json := array (texts.map string)

end Json

end SuiteDraft
