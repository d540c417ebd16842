import SuiteDraft.Discovery.Candidate
import SuiteDraft.Files.Change
import SuiteDraft.Ignore.Relocation
import SuiteDraft.Ignore.Rule
import SuiteDraft.Source.Glyph

/-!
The scope of a scan: the repository that a path lies in, and the rules of all the ignore files in
it.
-/

namespace SuiteDraft

/-- Why a scan comes to nothing. -/
inductive ScanError where
  /-- Links lead to one another. -/
  | endlessLinks
  /-- An ignore file cannot be read. -/
  | file (error : FileError)
  /-- A line of an ignore file cannot be a rule. -/
  | rule (error : Ignore.RuleError)
  deriving DecidableEq

/-- A repository's root and the rules of its ignore files. -/
structure Scope where
  root : Path
  rules : List Ignore.Rule

namespace Scope

def fileName : String := ".gitignore"

def upward (p : Path) : List Path :=
  (List.range (p.parts.length + 1)).map fun n => ⟨p.anchor, p.parts.take (p.parts.length - n)⟩

-- The root of the repository that a path lies in: the nearest folder with a `.git`, or else the
-- path itself.
def rootOf (d : Disk) (p : Path) : Except ScanError Path := do
  let here ← (d.resolve p).mapError fun _ => ScanError.endlessLinks
  return ((upward here).find? fun q => d.holds (q.child ".git")).getD here

-- The lines of a text: a carriage return ends one as well, alone or before a line feed.
def linesOf : List Char → List (List Char)
  | [] => [[]]
  | '\r' :: '\n' :: rest => [] :: linesOf rest
  | c :: rest =>
    if c == '\n' || c == '\r' then [] :: linesOf rest
    else
      match linesOf rest with
      | [] => [[c]]
      | line :: more => (c :: line) :: more

-- Whether an entry of the folder at `names` is a folder, perhaps behind a link.
def isFolderHere (d : Disk) (names : List String) (name : String) : Entry → Bool
  | .folder _ => true
  | .file _ => false
  | .link _ => d.holdsFolder ⟨.root, names ++ [name]⟩

-- The lines of the ignore file in a folder, put in terms of the repository's root.
def ownLines (d : Disk) (root names : List String) (entries : Folder) :
    Except ScanError (List (List Char)) :=
  match Keyed.get? entries fileName with
  | none => .ok []
  | some e =>
    if isFolderHere d names fileName e then .ok []
    else
      let p : Path := ⟨.root, names ++ [fileName]⟩
      match d.read p with
      | .error fault => .error (.file ⟨fault, p⟩)
      | .ok bytes =>
        let base := ("/".intercalate (names.drop root.length)).toList
        .ok ((linesOf ((Glyph.ofBytes bytes).map (·.char))).filterMap (Ignore.relocate · base))

mutual

def linesIn (d : Disk) (root names : List String) : Entry → Except ScanError (List (List Char))
  | .file _ => .ok []
  | .link _ => .ok []
  | .folder entries => do
    let own ← ownLines d root names entries
    return own ++ (← linesBelow d root names entries)

def linesBelow (d : Disk) (root names : List String) :
    List (String × Entry) → Except ScanError (List (List Char))
  | [] => .ok []
  | (name, e) :: rest => do
    let here ←
      if ignoredDirectories.contains name then .ok [] else linesIn d root (names ++ [name]) e
    return here ++ (← linesBelow d root names rest)

end

def ofPath (d : Disk) (p : Path) : Except ScanError Scope := do
  let root ← rootOf d p
  let lines ←
    match d.entry? root.parts with
    | none => .ok []
    | some e => linesIn d root.parts root.parts e
  let rules ← (Ignore.rulesOf lines).mapError .rule
  return ⟨root, rules⟩

/-- The verdict on a path, which is asked by its way from the root; a folder ends in a slash. -/
def isIgnored (d : Disk) (scope : Scope) (p : Path) : Bool :=
  let way := ((p.relativeTo? scope.root).getD p).toString
  Ignore.isIgnored scope.rules (way ++ if d.holdsFolder p then "/" else "").toList

end Scope

end SuiteDraft
