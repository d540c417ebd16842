import SuiteDraft.Analysis.Facts
import SuiteDraft.Analysis.Location
import SuiteDraft.Analysis.Props
import SuiteDraft.Log
import SuiteDraft.Text.Quoted
import SuiteDraft.Tree.Fault

/-!
The analysis of a tree: locate the component, collect the facts of its scope, and say what could not
be done.
-/

namespace SuiteDraft

/-- What an analysis says along the way, and what comes of it. -/
structure Report where
  log : List LogRecord := []
  outcome : Except Failure Component

namespace Analysis

def announce (path : String) (location : Location) : LogRecord :=
  if location.roots.isEmpty then
    ⟨.warning, .analysis, "Could not anchor component " ++ Text.quoted location.name ++ " in " ++
      path ++ "; analyzing the whole file"⟩
  else
    ⟨.debug, .analysis, "Resolved component " ++ location.name ++ " in " ++ path ++ " (" ++
      toString location.roots.length ++ " scope roots)"⟩

def props (location : Location) : Except LiteralError (List String) :=
  match location.roots with
  | fn :: _ => Props.ofFunction fn.node
  | [] => .ok []

-- The component at a location whose scope begins at the places `starts`.
def component (location : Location) (starts : List Place) : Except LiteralError Component := do
  let facts ← Place.walkAll Facts.visit {} starts
  return facts.toComponent location.name (← props location)

end Analysis

/-- Analyses the tree of the file `path`; a tree with a fault is rejected. -/
def Report.ofTree (path : String) (tree : Tree) : Report :=
  match tree.faultPosition? with
  | some p => { outcome := .error (.rejected ⟨path, .malformed p⟩) }
  | none =>
    let location := Location.ofRoot ⟨tree, []⟩
    { log := [Analysis.announce path location]
      outcome := (Analysis.component location (location.starts ⟨tree, []⟩)).mapError .literal }

end SuiteDraft
