import SuiteDraft.Component.Basic
import SuiteDraft.Json.Basic
import SuiteDraft.Text.Case

/-!
The row of data that a mocked network call answers with: a sample for every name that the markup
reads.
-/

namespace SuiteDraft

def sample (name : String) : String := "Sample " ++ Text.capitalize name

def PropertyValue.boundName? : PropertyValue → Option String
  | .text value => (value.dropPrefix? "expr:").map (·.toString)
  | .flag _ => none

namespace Row

-- The names that the properties of the elements read, in order, repetitions included.
def boundNames (elements : List Element) : List String :=
  elements.flatMap fun e => e.properties.filterMap (·.2.boundName?)

def ofNames (names : List String) : Keyed Json :=
  names.foldl (fun row name => row.put name (.string (sample name))) []

def fallback : Keyed Json := [("id", .number 1 0), ("username", .string "Eve")]

def ofElements (elements : List Element) : Keyed Json :=
  match boundNames elements with
  | [] => fallback
  | names => ofNames names

end Row

end SuiteDraft
