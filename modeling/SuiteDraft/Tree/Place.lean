import SuiteDraft.Tree.Basic

/-!
A node in its place: the node together with its parents up to the root, each with the index of the
child through which the way leads. Two nodes of one tree are the same when their indices agree, not
when they look alike.
-/

namespace SuiteDraft

/-- A parent, and which of its children is meant. -/
structure Frame where
  parent : Tree
  index : Nat

/-- A node and the frames above it, the nearest first. -/
structure Place where
  node : Tree
  above : List Frame := []

namespace Place

def kind (p : Place) : Kind := p.node.kind

def text (p : Place) : String := p.node.text

def parent? (p : Place) : Option Place :=
  match p.above with
  | [] => none
  | f :: rest => some ⟨f.parent, rest⟩

def ancestors (p : Place) : List Place := go p.above
where
  go : List Frame → List Place
    | [] => []
    | f :: rest => ⟨f.parent, rest⟩ :: go rest

def childrenFrom (parent : Tree) (above : List Frame) : Nat → List Tree → List Place
  | _, [] => []
  | i, c :: cs => ⟨c, ⟨parent, i⟩ :: above⟩ :: childrenFrom parent above (i + 1) cs

def children (p : Place) : List Place := childrenFrom p.node p.above 0 p.node.children

def namedChildren (p : Place) : List Place := p.children.filter (·.node.named)

def child? (p : Place) (f : Field) : Option Place :=
  p.children.find? fun c => c.node.label.field == some f

def meaningful (p : Place) : List Place := p.children.filter (·.node.isMeaningful)

-- The indices that lead from the root to the node, from the node upwards.
def address (p : Place) : List Nat := p.above.map (·.index)

theorem node_childrenFrom (parent : Tree) (above : List Frame) (i : Nat) (cs : List Tree) :
    (childrenFrom parent above i cs).map (·.node) = cs := by
  induction cs generalizing i with
  | nil => rfl
  | cons c cs ih => simp [childrenFrom, ih]

theorem node_children (p : Place) : p.children.map (·.node) = p.node.children :=
  node_childrenFrom ..

end Place

end SuiteDraft
