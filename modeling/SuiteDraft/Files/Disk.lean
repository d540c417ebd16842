import SuiteDraft.Files.Fault
import SuiteDraft.Keyed
import SuiteDraft.Path.Basic

/-!
A disk: a tree of folders that hold files, links and other folders. Everything on it is reached by
the names from its root.
-/

namespace SuiteDraft

/-- What stands under a name: a file with its bytes, a link with the path that it leads to, or a
folder. -/
inductive Entry where
  | file (bytes : List UInt8)
  | link (target : String)
  | folder (entries : List (String × Entry))

abbrev Folder := Keyed Entry

/-- A disk, and the names from its root to the folder where one stands. -/
structure Disk where
  root : Folder := []
  current : List String := []

namespace Entry

instance : Inhabited Entry := ⟨folder []⟩

def isFolder : Entry → Bool
  | folder _ => true
  | _ => false

def entries : Entry → Folder
  | folder es => es
  | _ => []

def at? : Entry → List String → Option Entry
  | e, [] => some e
  | e, name :: rest =>
    match Keyed.get? e.entries name with
    | none => none
    | some child => child.at? rest

-- The entry with `change` done to its folder at the end of names; names that lead nowhere change
-- nothing.
def changeAt (change : Folder → Folder) : List String → Entry → Entry
  | [], folder es => folder (change es)
  | name :: rest, folder es =>
    match Keyed.get? es name with
    | none => folder es
    | some child => folder (Keyed.put es name (changeAt change rest child))
  | _, e => e

mutual

-- The files of an entry that stands at the end of names, each with the names that lead to it.
def files (names : List String) : Entry → List (List String × List UInt8)
  | file bytes => [(names, bytes)]
  | link _ => []
  | folder es => filesOf names es

def filesOf (names : List String) : List (String × Entry) → List (List String × List UInt8)
  | [] => []
  | (name, e) :: rest => files (names ++ [name]) e ++ filesOf names rest

end

end Entry

namespace Disk

def files (d : Disk) : List (List String × List UInt8) := Entry.filesOf [] d.root

def entry? (d : Disk) (names : List String) : Option Entry := (Entry.folder d.root).at? names

-- The disk with `change` done to the folder at the end of names.
def changeAt (d : Disk) (names : List String) (change : Folder → Folder) : Disk :=
  { d with root := ((Entry.folder d.root).changeAt change names).entries }

-- The disk with an entry at the end of names, in place of the one that was there.
def put (d : Disk) (names : List String) (e : Entry) : Disk :=
  d.changeAt names.dropLast fun es => Keyed.put es (names.getLastD "") e

def remove (d : Disk) (names : List String) : Disk :=
  d.changeAt names.dropLast fun es => es.filter (·.1 != names.getLastD "")

end Disk

end SuiteDraft
