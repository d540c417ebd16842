import SuiteDraft.Tree.Basic

/-!
# Trees without positions

Where a node starts is said of its source and not of its tree. Two trees that agree once their
positions are left out have the same shape and the same texts.
-/

namespace SuiteDraft.Tree

mutual

def decEq : (t u : Tree) → Decidable (t = u)
  | node l cs, node m ds =>
    if hlabel : l = m then
      match decEqAll cs ds with
      | isTrue hchildren => isTrue (by rw [hlabel, hchildren])
      | isFalse hchildren => isFalse fun h => hchildren (Tree.node.inj h).2
    else isFalse fun h => hlabel (Tree.node.inj h).1

def decEqAll : (cs ds : List Tree) → Decidable (cs = ds)
  | [], [] => isTrue rfl
  | [], _ :: _ => isFalse nofun
  | _ :: _, [] => isFalse nofun
  | c :: cs, d :: ds =>
    match decEq c d with
    | isTrue hfirst =>
      match decEqAll cs ds with
      | isTrue hrest => isTrue (by rw [hfirst, hrest])
      | isFalse hrest => isFalse fun h => hrest (List.cons.inj h).2
    | isFalse hfirst => isFalse fun h => hfirst (List.cons.inj h).1

end

instance : DecidableEq Tree := decEq

mutual

/-- The tree with every position left out. -/
def unplaced : Tree → Tree
  | node l cs => node { l with start := ⟨0, 0⟩ } (unplacedAll cs)

/-- The trees of a list with every position left out. -/
def unplacedAll : List Tree → List Tree
  | [] => []
  | c :: cs => unplaced c :: unplacedAll cs

end

variable (t : Tree)

theorem unplacedAll_eq_map (cs : List Tree) : unplacedAll cs = cs.map unplaced := by
  induction cs with
  | nil => rfl
  | cons c cs ih => rw [unplacedAll, ih, List.map_cons]

@[simp] theorem unplaced_node (l : Label) (cs : List Tree) :
    unplaced (.node l cs) = .node { l with start := ⟨0, 0⟩ } (cs.map unplaced) := by
  rw [unplaced, unplacedAll_eq_map]

@[simp] theorem children_unplaced : t.unplaced.children = t.children.map unplaced := by
  cases t with
  | node l cs => rw [unplaced_node]; rfl

@[simp] theorem kind_unplaced : t.unplaced.kind = t.kind := by
  cases t with
  | node l cs => rfl

@[simp] theorem text_unplaced : t.unplaced.text = t.text := by
  cases t with
  | node l cs => rfl

@[simp] theorem named_unplaced : t.unplaced.named = t.named := by
  cases t with
  | node l cs => rfl

@[simp] theorem field_unplaced : t.unplaced.label.field = t.label.field := by
  cases t with
  | node l cs => rfl

theorem filter_map_unplaced {p : Tree → Bool} (hp : ∀ t, p t.unplaced = p t) (cs : List Tree) :
    (cs.map unplaced).filter p = (cs.filter p).map unplaced := by
  rw [List.filter_map]
  exact congrArg _ (List.filter_congr fun c _ => hp c)

@[simp] theorem meaningful_unplaced : t.unplaced.meaningful = t.meaningful.map unplaced := by
  rw [meaningful, children_unplaced, filter_map_unplaced fun c => by simp [isMeaningful]]
  rfl

@[simp] theorem child?_unplaced (f : Field) : t.unplaced.child? f = (t.child? f).map unplaced := by
  rw [child?, children_unplaced, List.find?_map]
  congr 2
  funext c
  rw [Function.comp_apply, field_unplaced]

@[simp] theorem childText_unplaced (f : Field) : t.unplaced.childText f = t.childText f := by
  unfold childText
  rw [child?_unplaced]
  cases t.child? f with
  | none => rfl
  | some c => exact text_unplaced c

end SuiteDraft.Tree
