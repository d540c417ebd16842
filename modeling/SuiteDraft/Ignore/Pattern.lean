/-!
Patterns of paths, as a sequence of atoms that each read a part of a path, and a matcher that is
anchored at the start of the path and free at its end.
-/

namespace SuiteDraft.Ignore

/-- An item of a character class: the characters from `first` to `last`. -/
structure ClassItem where
  first : Char
  last : Char
  deriving DecidableEq

/-- What one character of a path must be. -/
inductive CharTest where
  /-- This character. -/
  | exactly (c : Char)
  /-- Any character within a name. -/
  | withinName
  /-- A member of a class, or no member of it. -/
  | oneOf (negated : Bool) (items : List ClassItem)
  deriving DecidableEq

def CharTest.holds (c : Char) : CharTest → Bool
  | exactly d => c == d
  | withinName => c != '/'
  | oneOf negated items => negated != items.any fun i => i.first ≤ c && c ≤ i.last

/-- A part of a pattern. -/
inductive Atom where
  /-- One character. -/
  | one (test : CharTest)
  /-- Characters within a name, any number of them. -/
  | run
  /-- Directories in front, any number of them. -/
  | lead
  /-- Directories in the middle, any number of them. -/
  | gap
  /-- The end of a name. -/
  | close
  deriving DecidableEq

def afterRun : List Char → List (List Char)
  | [] => [[]]
  | c :: rest => (c :: rest) :: if c == '/' then [] else afterRun rest

def afterSlashes : List Char → List (List Char)
  | [] => []
  | c :: rest =>
    (if c == '/' then [rest] else []) ++ if c == '\n' then [] else afterSlashes rest

-- What is left after characters of the first line, any number of them.
def afterLine : List Char → List (List Char)
  | [] => [[]]
  | c :: rest => (c :: rest) :: if c == '\n' then [] else afterLine rest

def Atom.rests (s : List Char) : Atom → List (List Char)
  | one test =>
    match s with
    | [] => []
    | c :: rest => if test.holds c then [rest] else []
  | run => afterRun s
  | lead =>
    s :: match s with
      | [] => []
      | c :: rest => if c == '\n' then [] else afterSlashes rest
  | gap =>
    s :: match s with
      | '/' :: c :: rest => if c == '\n' then [] else afterLine rest
      | _ => []
  | close =>
    match s with
    | [] => [[]]
    | ['\n'] => [['\n']]
    | '/' :: rest => [rest]
    | _ => []

def readsAtoms : List Atom → List Char → Bool
  | [], _ => true
  | a :: as, s => (a.rests s).any (readsAtoms as)

/-- A pattern: every path, every path with a slash in it, or the paths that atoms read. -/
inductive Pattern where
  | everything
  | nested
  | atoms (as : List Atom)
  deriving DecidableEq

def Pattern.holds (path : List Char) : Pattern → Bool
  | everything => path.any (· != '\n')
  | nested => path.contains '/'
  | atoms as => readsAtoms as path

end SuiteDraft.Ignore
