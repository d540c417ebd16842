import SuiteDraft.Path.Basic

/-!
Which names a scan looks at: the files that may hold a component, and the directories that never do.
-/

namespace SuiteDraft

def occursIn (part s : List Char) : Bool :=
  match s with
  | [] => part.isEmpty
  | c :: rest => part.isPrefixOf (c :: rest) || occursIn part rest

def componentSuffixes : List String := [".jsx", ".tsx", ".js"]

-- A file that may hold a component: its suffix says so and nothing in its name marks a test.
def Path.isComponentFile (p : Path) : Bool :=
  let name := p.name.toList
  componentSuffixes.contains p.suffix
    && !occursIn ".test.".toList name && !occursIn ".spec.".toList name

def ignoredDirectories : List String := [
  ".git", "node_modules", "venv", ".venv", "__pycache__", "__tests__", "dist", "build", ".next",
  "coverage", ".idea", ".vscode", "out", "android", "ios"]

end SuiteDraft
