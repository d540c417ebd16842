/-!
Paths of files in a normal form: repeated slashes and single dots are dropped, two dots are kept,
and a path that begins with exactly two slashes stays apart from one that begins with one.
-/

namespace SuiteDraft

/-- Where a path starts. -/
inductive Anchor where
  | here
  | root
  | doubleRoot
  deriving DecidableEq, Inhabited

/-- A path: where it starts and the names along it. -/
structure Path where
  anchor : Anchor := .here
  parts : List String := []
  deriving DecidableEq, Inhabited

-- The pieces of a text between the characters `sep`, the empty ones included.
def splitAt (sep : Char) : List Char → List (List Char)
  | [] => [[]]
  | c :: rest =>
    if c == sep then [] :: splitAt sep rest
    else
      match splitAt sep rest with
      | [] => [[c]]
      | first :: others => (c :: first) :: others

namespace Path

-- The names of a text: what stands between slashes, without the empty names and the single dots.
def partsOf (s : List Char) : List String :=
  ((splitAt '/' s).filter fun piece => !piece.isEmpty && piece != ['.']).map String.ofList

def ofString (s : String) : Path :=
  let cs := s.toList
  let anchor := match cs with
    | '/' :: '/' :: '/' :: _ => Anchor.root
    | '/' :: '/' :: _ => Anchor.doubleRoot
    | '/' :: _ => Anchor.root
    | _ => Anchor.here
  ⟨anchor, partsOf cs⟩

def Anchor.slashes : Anchor → String
  | .here => ""
  | .root => "/"
  | .doubleRoot => "//"

-- The text of a path; the path of no names that starts here is a single dot.
def toString (p : Path) : String :=
  let s := Anchor.slashes p.anchor ++ "/".intercalate p.parts
  if s.isEmpty then "." else s

instance : ToString Path := ⟨toString⟩

def name (p : Path) : String := p.parts.getLastD ""

def parent (p : Path) : Path := ⟨p.anchor, p.parts.dropLast⟩

-- A path below a path; one that starts at a root stands for itself.
def join (p q : Path) : Path :=
  match q.anchor with
  | .here => ⟨p.anchor, p.parts ++ q.parts⟩
  | _ => q

def child (p : Path) (name : String) : Path := ⟨p.anchor, p.parts ++ [name]⟩

-- Splits a name before its last dot, when there is something before the dot and something after it.
def splitName (name : String) : String × String :=
  let cs := name.toList
  let tail := cs.reverse.takeWhile (· != '.')
  let before := (cs.take (cs.length - tail.length)).dropLast
  if tail.length = cs.length || tail.isEmpty || before.isEmpty then (name, "")
  else (String.ofList before, String.ofList ('.' :: tail.reverse))

def stem (p : Path) : String := (splitName p.name).1

-- The last dot of the last name and what follows it; empty when nothing stands before the dot or
-- after it.
def suffix (p : Path) : String := (splitName p.name).2

def relativeTo? (p base : Path) : Option Path :=
  if p.anchor = base.anchor && base.parts.isPrefixOf p.parts then
    some ⟨.here, p.parts.drop base.parts.length⟩
  else none

example : (ofString "a//b/./c.tsx").toString = "a/b/c.tsx" := by decide +kernel
example : (ofString "///x").toString = "/x" := by decide +kernel
example : (ofString "..ts").suffix = ".ts" := by decide +kernel
example : (ofString ".ts").suffix = "" := by decide +kernel
example : (ofString "C.").stem = "C." := by decide +kernel

end Path

end SuiteDraft
