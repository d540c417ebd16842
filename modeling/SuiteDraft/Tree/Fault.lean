import SuiteDraft.Tree.Basic

/-!
Faults of a tree. A source that does not follow the grammar still has a tree: nodes of the kind
`fault` hold what could not be read, and missing nodes stand where a word was wanted.
-/

namespace SuiteDraft.Tree

def isFault (t : Tree) : Bool := t.kind == .fault || t.label.missing

mutual

def hasFault : Tree → Bool
  | node l cs => isFault (node l cs) || hasFaultIn cs

def hasFaultIn : List Tree → Bool
  | [] => false
  | c :: cs => hasFault c || hasFaultIn cs

end

theorem sizes_children_append_lt (t : Tree) (stack : List Tree) :
    sizes (t.children ++ stack) < sizes (t :: stack) := by
  rw [sizes_append, sizes, size_eq]
  omega

/-- Searches the nodes on a stack for a fault: the one on top, and in its stead its children, the
first of them on top. A node that has no fault at or below it is not entered. -/
def searchFault? : List Tree → Option Tree
  | [] => none
  | t :: stack =>
    if isFault t then some t
    else if hasFault t then searchFault? (t.children ++ stack)
    else searchFault? stack
termination_by stack => sizes stack
decreasing_by
  · exact sizes_children_append_lt t stack
  · exact Nat.lt_add_of_pos_left (by rw [size_eq]; exact Nat.succ_pos _)

/-- The first fault of a tree: the node itself, or the first one below it. -/
def firstFault? (t : Tree) : Option Tree := searchFault? [t]

def faultPosition? (t : Tree) : Option Position :=
  if t.hasFault then some ((t.firstFault?.getD t).label.start) else none

end SuiteDraft.Tree
