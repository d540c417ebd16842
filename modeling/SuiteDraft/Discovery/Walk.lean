import SuiteDraft.Discovery.Scope
import SuiteDraft.Text.Order

/-!
The component files below a folder: in each folder its own files come first, then those of the
folders in it, all in the order of their names. What is ignored is neither taken nor gone into.
-/

namespace SuiteDraft.Discovery

def enters (ignored : Path → Bool) (names : List String) (name : String) : Bool :=
  !ignoredDirectories.contains name && !ignored ⟨.root, names ++ [name]⟩

def takes (ignored : Path → Bool) (p : Path) : Bool := p.isComponentFile && !ignored p

def ownFiles (d : Disk) (ignored : Path → Bool) (names : List String) (entries : Folder) :
    List Path :=
  let files := entries.filter fun e => !Scope.isFolderHere d names e.1 e.2
  ((inOrder (·.1) files).map fun e => (⟨.root, names ++ [e.1]⟩ : Path)).filter (takes ignored)

mutual

-- The component files in an entry and below it; a link is not followed.
def filesIn (d : Disk) (ignored : Path → Bool) (names : List String) : Entry → List Path
  | .file _ => []
  | .link _ => []
  | .folder entries =>
    ownFiles d ignored names entries
      ++ (inOrder (·.1) (filesBelow d ignored names entries)).flatMap (·.2)

def filesBelow (d : Disk) (ignored : Path → Bool) (names : List String) :
    List (String × Entry) → List (String × List Path)
  | [] => []
  | (name, e) :: rest =>
    if enters ignored names name then
      (name, filesIn d ignored (names ++ [name]) e) :: filesBelow d ignored names rest
    else filesBelow d ignored names rest

end

-- The component files below the folder at `root` that are not ignored.
def filesUnder (d : Disk) (ignored : Path → Bool) (root : List String) : List Path :=
  ((d.entry? root).map (filesIn d ignored root)).getD []

def components (d : Disk) (p : Path) : Except ScanError (List Path) := do
  let root ← (d.resolve p).mapError fun _ => ScanError.endlessLinks
  let scope ← Scope.ofPath d root
  return filesUnder d (scope.isIgnored d) root.parts

end SuiteDraft.Discovery
