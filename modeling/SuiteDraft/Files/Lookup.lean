import SuiteDraft.Files.Disk

/-!
Finding things on a disk by paths. A link on the way is followed; two dots lead to the folder that
holds the one reached so far; and a path leads through folders only.
-/

namespace SuiteDraft

/-- What a path leads to: an entry, or a free place in a folder; both with the names from the root.
-/
inductive Found where
  | present (names : List String) (entry : Entry)
  | absent (names : List String)

namespace Disk

def maxLinks : Nat := 40

/-- Goes along names from the folder at `done`. At a link it goes on as `onLink` says; a link at the
end is left alone unless `follow` is set. -/
def along (d : Disk) (follow : Bool) (onLink : List String → List String → Except Fault Found)
    (done : List String) : List String → Except Fault Found
  | [] => .ok (((d.entry? done).map (Found.present done)).getD (.absent done))
  | name :: rest =>
    if name = ".." then along d follow onLink done.dropLast rest
    else
      match d.entry? (done ++ [name]) with
      | none => if rest.isEmpty then .ok (.absent (done ++ [name])) else .error .missing
      | some (.file bytes) =>
        if rest.isEmpty then .ok (.present (done ++ [name]) (.file bytes))
        else .error .notDirectory
      | some (.folder _) => along d follow onLink (done ++ [name]) rest
      | some (.link target) =>
        if rest.isEmpty && !follow then .ok (.present (done ++ [name]) (.link target))
        else
          let t := Path.ofString target
          onLink (if t.anchor = .here then done else []) (t.parts ++ rest)

def locateWithin (d : Disk) (follow : Bool) : Nat → List String → List String → Except Fault Found
  | 0 => along d follow fun _ _ => .error .tooManyLinks
  | n + 1 => along d follow (locateWithin d follow n)

def origin (d : Disk) (p : Path) : List String := if p.anchor = .here then d.current else []

def locate (d : Disk) (follow : Bool) (p : Path) : Except Fault Found :=
  locateWithin d follow maxLinks (d.origin p) p.parts

def follow (d : Disk) (p : Path) : Except Fault Entry := do
  match ← d.locate true p with
  | .present _ e => .ok e
  | .absent _ => .error .missing

def holds (d : Disk) (p : Path) : Bool := (d.follow p).isOk

def holdsFolder (d : Disk) (p : Path) : Bool :=
  match d.follow p with
  | .ok e => e.isFolder
  | .error _ => false

def read (d : Disk) (p : Path) : Except Fault (List UInt8) := do
  match ← d.follow p with
  | .file bytes => .ok bytes
  | _ => .error .isDirectory

/-- Goes along names from those at `done` and replaces links, while those of `opened` are being
followed. A link that comes back to itself ends the way: it and the names after it stay as they are.
The result tells whether the way was not ended so. -/
def alongReal (d : Disk)
    (onLink : List (List String) → List String → List String → List String × Bool)
    (opened : List (List String)) (done : List String) : List String → List String × Bool
  | [] => (done, true)
  | name :: rest =>
    if name = ".." then alongReal d onLink opened done.dropLast rest
    else
      let here := done ++ [name]
      match d.entry? here with
      | some (.link target) =>
        if opened.contains here then (here ++ rest, false)
        else
          let t := Path.ofString target
          match onLink (here :: opened) (if t.anchor = .here then done else []) t.parts with
          | (names, true) => alongReal d onLink opened names rest
          | (names, false) => (names ++ rest, false)
      | _ => alongReal d onLink opened here rest

def realWithin (d : Disk) :
    Nat → List (List String) → List String → List String → List String × Bool
  | 0 => alongReal d fun _ done names => (done ++ names, false)
  | n + 1 => alongReal d (realWithin d n)

-- The names with each double dot taken out together with the name before it.
def withoutDots (names : List String) : List String :=
  names.foldl (fun done n => if n = ".." then done.dropLast else done ++ [n]) []

/-- The path from the root, without links and double dots, that leads to the same place; the names
after one that leads nowhere stay as they are. Links that lead to one another have none. -/
def resolve (d : Disk) (p : Path) : Except Fault Path :=
  let real : Path := ⟨.root, withoutDots (realWithin d 1000 [] (d.origin p) p.parts).1⟩
  match d.locate true real with
  | .error .tooManyLinks => .error .tooManyLinks
  | _ => .ok real

-- The path from the root with the double dots taken out by the text alone.
def absolute (d : Disk) (p : Path) : Path :=
  let whole := Path.join ⟨.root, d.current⟩ p
  { whole with parts := withoutDots whole.parts }

end Disk

end SuiteDraft
