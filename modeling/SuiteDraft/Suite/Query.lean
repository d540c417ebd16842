import SuiteDraft.Component.Basic
import SuiteDraft.Json.Writer
import SuiteDraft.Suite.Pattern
import SuiteDraft.Text.Case

/-!
How a test finds an element on the screen: by its role, by its test id or by its text, in this order
of preference.
-/

namespace SuiteDraft

/-- A way to find an element on the screen. -/
inductive Query where
  | byRole (role : String) (name? : Option String)
  | byTestId (id : String)
  | byText (text : String)
  deriving DecidableEq, Inhabited

namespace Query

def render : Query → String
  | byRole role none => "screen.getByRole(" ++ Json.quote role ++ ")"
  | byRole role (some name) =>
    "screen.getByRole(" ++ Json.quote role ++ ", \x7b name: " ++ Pattern.literal name ++ " \x7d)"
  | byTestId id => "screen.getByTestId(" ++ Json.quote id ++ ")"
  | byText text => "screen.getByText(" ++ Pattern.literal text ++ ")"

-- The word by which the screen knows a role, among the roles that it can be asked for.
def screenRole : String → Option String
  | "button" => some "button"
  | "link" => some "link"
  | "textbox" => some "textbox"
  | "image" => some "img"
  | _ => none

def isNamedByText (role : String) : Bool := role == "button" || role == "link"

def present (text : Option String) : Option String := text.filter (!·.isEmpty)

-- The query of an element by its role, if the screen can be asked for it.
def ofRole? (e : Element) : Option Query := do
  let role ← e.roleHint
  let word ← screenRole role
  return .byRole word (if isNamedByText role then present e.text else none)

def ofElement? (e : Element) : Option Query :=
  ofRole? e <|> (present e.stableId).map byTestId <|> (present e.text).map byText

-- The query of an element by its test id, unless it plays the role; failing both, the query for
-- anything that plays the role.
def ofIdUnless (role : String) (e : Element) : Query :=
  if e.roleHint = some role then .byRole role none
  else ((present e.stableId).map byTestId).getD (.byRole role none)

end Query

def repeatedWords : List String := ["user", "todo", "item", "row", "card"]

-- A test id that most likely belongs to one of many items: one of the words alone, or at an end of
-- the id and cut off by a hyphen.
def isRepeatedId (id : Option String) : Bool :=
  let id := Text.lowerLatin (id.getD "")
  repeatedWords.any fun word =>
    id == word || id.endsWith ("-" ++ word) || id.startsWith (word ++ "-")

end SuiteDraft
