import SuiteDraft.Tree.Place

/-!
The walk over a tree: the nodes that are still to be visited wait on a stack, and a visit may change
what has been collected so far or fail.
-/

namespace SuiteDraft.Place

def load (stack : List Place) : Nat := Tree.sizes (stack.map (·.node))

theorem load_cons (p : Place) (stack : List Place) :
    load (p :: stack) = p.node.size + load stack := rfl

theorem load_namedChildren_append (p : Place) (stack : List Place) :
    load (p.namedChildren ++ stack) < load (p :: stack) := by
  have hchildren : p.namedChildren.map (·.node) = p.node.children.filter (·.named) := by
    rw [namedChildren, ← node_children, List.filter_map]
    rfl
  have hle := Tree.sizes_filter_le (·.named) p.node.children
  rw [load_cons, load, List.map_append, Tree.sizes_append, hchildren, Tree.size_eq]
  unfold load
  omega

/-- Visits the nodes on a stack: the one on top, and in its stead its named children, the first of
them on top. -/
def walk {σ ε : Type} (visit : σ → Place → Except ε σ) (state : σ) : List Place → Except ε σ
  | [] => .ok state
  | p :: stack => do walk visit (← visit state p) (p.namedChildren ++ stack)
termination_by stack => load stack
decreasing_by exact load_namedChildren_append p stack

def walkAll {σ ε : Type} (visit : σ → Place → Except ε σ) (state : σ) (roots : List Place) :
    Except ε σ :=
  roots.foldlM (fun state root => walk visit state [root]) state

end SuiteDraft.Place
