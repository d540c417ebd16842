import SuiteDraft.Component.Basic

/-!
The roles of elements, as assistive technology knows them: the one that an attribute gives, or else
the one that goes with the tag.
-/

namespace SuiteDraft.Role

def ofTag : String → Option String
  | "button" => some "button"
  | "a" => some "link"
  | "img" => some "image"
  | "input" => some "textbox"
  | "textarea" => some "textbox"
  | _ => none

-- The role that a `role` attribute gives, among those that a query can ask for.
def ofAttribute : String → Option String
  | "button" => some "button"
  | "link" => some "link"
  | "textbox" => some "textbox"
  | "img" => some "image"
  | "image" => some "image"
  | _ => none

-- Whether the text of an attribute stands for something that is computed.
def isComputed (value : String) : Bool :=
  value.startsWith "expr:" || value == "dynamic" || value == "unknown"

-- Whether a textbox keeps its role under the given `type` attribute.
def keepsTextbox : Option PropertyValue → Bool
  | none => true
  | some (.text value) => value == "text"
  | some (.flag _) => false

-- The role before the `type` attribute is looked at: an explicit literal one, or that of the tag.
def declared (tag : String) (properties : Keyed PropertyValue) : Option String :=
  match properties.get? "role" with
  | some (.text value) => if isComputed value then ofTag tag else ofAttribute value
  | _ => ofTag tag

def infer (tag : String) (properties : Keyed PropertyValue) : Option String :=
  match declared tag properties with
  | some "textbox" => if keepsTextbox (properties.get? "type") then some "textbox" else none
  | role => role

end SuiteDraft.Role
