import Mathlib.Data.List.Infix
import Mathlib.Logic.Relation
import SuiteDraft.Tree.Walk

/-!
# The order of a document

The nodes at and below a place that are reached through named children, enumerated as a document
shows them: each node before its own children, and the children from the first to the last.
Identity and order of nodes are those of their paths from the root, never those of their looks.
-/

namespace SuiteDraft.Place

/-- A place is reached from another by going down through named children. -/
def Reaches : Place → Place → Prop := Relation.ReflTransGen fun p q => q ∈ p.namedChildren

/-- The indices that lead from the root to the node. -/
def path (p : Place) : List Nat := p.address.reverse

/-- A node stands before another in the document: it lies above it, or the way to it turns off at
an earlier child. -/
def Precedes (p q : Place) : Prop := p.path < q.path

/-- The way to a node turns off at an earlier child than the way to another, so that all that is
below the one stands before all that is below the other. -/
def TurnsOffBefore (p q : Place) : Prop :=
  ∃ base j k u v, j < k ∧ p.path = base ++ j :: u ∧ q.path = base ++ k :: v

/-! ## Paths -/

theorem path_child (node : Tree) (f : Frame) (above : List Frame) :
    path ⟨node, f :: above⟩ = path ⟨f.parent, above⟩ ++ [f.index] := by
  simp only [path, address, List.map_cons, List.reverse_cons]

theorem path_of_above {q : Place} {f : Frame} {above : List Frame} (h : q.above = f :: above) :
    q.path = path ⟨f.parent, above⟩ ++ [f.index] := by
  rw [← path_child q.node f above, ← h]

theorem Precedes.of_turnsOffBefore {p q : Place} (h : p.TurnsOffBefore q) : p.Precedes q := by
  rcases h with ⟨base, j, k, u, v, hjk, hp, hq⟩
  rw [Precedes, hp, hq]
  exact List.append_left_lt (List.Lex.rel hjk)

theorem Precedes.of_above {p q : Place} {i : Nat} (h : p.path ++ [i] <+: q.path) :
    p.Precedes q := by
  rcases h with ⟨rest, hrest⟩
  have hlt : p.path ++ [] < p.path ++ (i :: rest) := List.append_left_lt List.Lex.nil
  rw [List.append_nil] at hlt
  rw [Precedes, ← hrest, List.append_assoc]
  exact hlt

/-- A node that stands before another lies above it, or the way to it turns off before. -/
theorem Precedes.path_prefix_or {p q : Place} (h : p.Precedes q) :
    p.path <+: q.path ∨ p.TurnsOffBefore q := by
  have hlex : ∀ a b : List Nat, a < b → a <+: b ∨ ∃ base j k u v, j < k ∧ a = base ++ j :: u ∧
      b = base ++ k :: v := by
    intro a b hab
    induction hab with
    | nil => exact .inl List.nil_prefix
    | rel hjk => exact .inr ⟨[], _, _, _, _, hjk, rfl, rfl⟩
    | @cons i a b hab ih =>
      rcases ih with hprefix | ⟨base, j, k, u, v, hjk, rfl, rfl⟩
      · exact .inl (List.cons_prefix_cons.mpr ⟨rfl, hprefix⟩)
      · exact .inr ⟨i :: base, j, k, u, v, hjk, rfl, rfl⟩
  exact hlex p.path q.path h

theorem TurnsOffBefore.extend {p q p' q' : Place} (h : p.TurnsOffBefore q)
    (hp : p.path <+: p'.path) (hq : q.path <+: q'.path) : p'.TurnsOffBefore q' := by
  rcases h with ⟨base, j, k, u, v, hjk, hpath, hqath⟩
  rcases hp with ⟨u', hu⟩
  rcases hq with ⟨v', hv⟩
  refine ⟨base, j, k, u ++ u', v ++ v', hjk, ?_, ?_⟩
  · rw [← hu, hpath, List.append_assoc, List.cons_append]
  · rw [← hv, hqath, List.append_assoc, List.cons_append]

theorem Precedes.ne {p q : Place} (h : p.Precedes q) : p ≠ q := by
  rintro rfl
  exact List.lt_irrefl p.path h

theorem Precedes.asymm {p q : Place} (h : p.Precedes q) : ¬ q.Precedes p := fun h' =>
  List.lt_irrefl p.path (List.lt_trans h h')

/-- A list of places in the order of the document is given by its members. -/
theorem eq_of_pairwise_precedes {a b : List Place} (ha : a.Pairwise Precedes)
    (hb : b.Pairwise Precedes) (hmem : ∀ p, p ∈ a ↔ p ∈ b) : a = b := by
  have hperm : a.Perm b :=
    (List.perm_ext_iff_of_nodup (ha.imp Precedes.ne) (hb.imp Precedes.ne)).mpr hmem
  exact hperm.eq_of_pairwise (fun p q _ _ hpq hqp => absurd hqp hpq.asymm) ha hb

/-! ## Children -/

theorem mem_childrenFrom_iff {parent : Tree} {above : List Frame} {i : Nat} {cs : List Tree}
    {q : Place} : q ∈ childrenFrom parent above i cs ↔
      ∃ j, cs[j]? = some q.node ∧ q.above = ⟨parent, i + j⟩ :: above := by
  induction cs generalizing i with
  | nil => simp [childrenFrom]
  | cons c cs ih =>
    rw [childrenFrom, List.mem_cons, ih]
    constructor
    · rintro (rfl | ⟨j, hnode, habove⟩)
      · exact ⟨0, rfl, rfl⟩
      · exact ⟨j + 1, hnode, by rw [habove, Nat.add_assoc, Nat.add_comm 1 j]⟩
    · rintro ⟨j, hnode, habove⟩
      cases j with
      | zero =>
        rcases q with ⟨node, above'⟩
        cases hnode
        cases habove
        exact .inl rfl
      | succ j => exact .inr ⟨j, hnode, by rw [habove, Nat.add_assoc, Nat.add_comm 1 j]⟩

theorem mem_children_iff {p q : Place} :
    q ∈ p.children ↔ ∃ j, p.node.children[j]? = some q.node ∧ q.above = ⟨p.node, j⟩ :: p.above := by
  rw [children, mem_childrenFrom_iff]
  simp only [Nat.zero_add]

theorem childrenFrom_pairwise (parent : Tree) (above : List Frame) (i : Nat) (cs : List Tree) :
    (childrenFrom parent above i cs).Pairwise TurnsOffBefore := by
  induction cs generalizing i with
  | nil => exact List.Pairwise.nil
  | cons c cs ih =>
    refine List.pairwise_cons.mpr ⟨fun q hq => ?_, ih (i + 1)⟩
    rcases mem_childrenFrom_iff.mp hq with ⟨j, -, habove⟩
    refine ⟨path ⟨parent, above⟩, i, i + 1 + j, [], [], by omega, path_child c ⟨parent, i⟩ above, ?_⟩
    exact path_of_above habove

theorem path_of_mem_children {p q : Place} (h : q ∈ p.children) : ∃ j, q.path = p.path ++ [j] := by
  rcases mem_children_iff.mp h with ⟨j, -, habove⟩
  exact ⟨j, path_of_above habove⟩

theorem mem_children_of_mem_namedChildren {p q : Place} (h : q ∈ p.namedChildren) :
    q ∈ p.children := List.mem_of_mem_filter h

theorem namedChildren_pairwise (p : Place) : p.namedChildren.Pairwise TurnsOffBefore :=
  (childrenFrom_pairwise p.node p.above 0 p.node.children).filter _

theorem size_lt_of_mem_namedChildren {p c : Place} (h : c ∈ p.namedChildren) :
    c.node.size < p.node.size := by
  rcases List.append_of_mem h with ⟨a, b, hab⟩
  have hload := load_namedChildren_append p []
  rw [hab, List.append_nil, load, load, List.map_append, Tree.sizes_append, List.map_cons,
    List.map_cons, Tree.sizes, Tree.sizes, List.map_nil, Tree.sizes] at hload
  omega

/-- What holds of a place when it holds of its named children holds of every place. -/
@[elab_as_elim]
theorem induction {motive : Place → Prop}
    (step : ∀ p, (∀ c ∈ p.namedChildren, motive c) → motive p) (p : Place) : motive p := by
  -- A place carries its whole way up, so the induction is on the size of the node alone.
  have aux : ∀ n (p : Place), p.node.size = n → motive p := by
    intro n
    induction n using Nat.strong_induction_on with
    | h n ih =>
      intro p hn
      refine step p fun c hc => ih c.node.size ?_ c rfl
      rw [← hn]
      exact size_lt_of_mem_namedChildren hc
  exact aux p.node.size p rfl

/-! ## Containment -/

/-- A place is at or below another, however the way to it leads. -/
def Contains : Place → Place → Prop := Relation.ReflTransGen fun p q => q ∈ p.children

theorem Contains.of_mem_children {p q : Place} (h : q ∈ p.children) : p.Contains q :=
  Relation.ReflTransGen.single h

theorem Reaches.contains {p q : Place} (h : p.Reaches q) : p.Contains q :=
  Relation.ReflTransGen.mono (fun _ _ => mem_children_of_mem_namedChildren) p q h

theorem path_prefix_of_contains {p q : Place} (h : p.Contains q) : p.path <+: q.path := by
  induction h with
  | refl => exact List.prefix_refl _
  | tail _ hc ih =>
    rcases path_of_mem_children hc with ⟨j, hj⟩
    exact ih.trans (hj ▸ List.prefix_append _ [j])

theorem path_ne_of_contains_child {p q r : Place} (h : p.Contains q) (hr : r ∈ q.children) :
    r.path ≠ p.path := by
  intro hpath
  rcases path_of_mem_children hr with ⟨j, hj⟩
  have hle := (path_prefix_of_contains h).length_le
  rw [← hpath, hj, List.length_append, List.length_singleton] at hle
  omega

/-- A place in a tree is given by its path. -/
theorem Contains.eq_of_path_eq {root p q : Place} (hp : root.Contains p) (hq : root.Contains q)
    (h : p.path = q.path) : p = q := by
  -- The last step to `p` fixes the last step to `q`: one index, and one parent by induction.
  induction hp generalizing q with
  | refl =>
    rcases hq.cases_tail with rfl | ⟨r, hr, hqr⟩
    · rfl
    · exact absurd h.symm (path_ne_of_contains_child hr hqr)
  | @tail p' p hp' hpp' ih =>
    rcases hq.cases_tail with rfl | ⟨r, hr, hqr⟩
    · exact absurd h (path_ne_of_contains_child hp' hpp')
    · rcases mem_children_iff.mp hpp' with ⟨j, hj, hpabove⟩
      rcases mem_children_iff.mp hqr with ⟨k, hk, hqabove⟩
      rw [path_of_above hpabove, path_of_above hqabove] at h
      rcases List.append_inj' h rfl with ⟨hpath, hindex⟩
      rcases ih hr hpath with rfl
      obtain rfl : j = k := List.singleton_inj.mp hindex
      rw [hj] at hk
      rcases p with ⟨pnode, pabove⟩
      rcases q with ⟨qnode, qabove⟩
      cases hk
      cases hpabove.trans hqabove.symm
      rfl

/-- In a tree, the nodes whose paths go on from a node's path are those below it. -/
theorem Contains.of_path_prefix {root p q : Place} (hp : root.Contains p) (hq : root.Contains q)
    (h : p.path <+: q.path) : p.Contains q := by
  induction hq with
  | refl =>
    have hlength := h.length_le.antisymm (path_prefix_of_contains hp).length_le
    exact hp.eq_of_path_eq .refl (h.eq_of_length hlength) ▸ .refl
  | @tail r q hr hqr ih =>
    rcases path_of_mem_children hqr with ⟨j, hj⟩
    rw [hj, List.prefix_concat_iff] at h
    rcases h with h | h
    · exact hp.eq_of_path_eq (hr.tail hqr) (h.trans hj.symm) ▸ .refl
    · exact (ih h).tail hqr

theorem parent?_of_mem_children {p q : Place} (h : q ∈ p.children) : q.parent? = some p := by
  rcases mem_children_iff.mp h with ⟨j, -, habove⟩
  rw [parent?, habove]

theorem ancestors_of_mem_children {p q : Place} (h : q ∈ p.children) :
    q.ancestors = p :: p.ancestors := by
  rcases mem_children_iff.mp h with ⟨j, -, habove⟩
  rw [ancestors, habove]
  rfl

/-- The nodes above a node of a tree are in the tree. -/
theorem Contains.of_mem_ancestors {tree : Tree} {p q : Place} (hp : Contains ⟨tree, []⟩ p)
    (hq : q ∈ p.ancestors) : Contains ⟨tree, []⟩ q := by
  induction hp with
  | refl => exact absurd hq List.not_mem_nil
  | tail hr hc ih =>
    rw [ancestors_of_mem_children hc, List.mem_cons] at hq
    rcases hq with rfl | hq
    · exact hr
    · exact ih hq

theorem Contains.mem_children_of_parent? {tree : Tree} {p q : Place} (hp : Contains ⟨tree, []⟩ p)
    (hq : p.parent? = some q) : Contains ⟨tree, []⟩ q ∧ p ∈ q.children := by
  rcases hp.cases_tail with rfl | ⟨r, hr, hc⟩
  · cases hq
  · rw [parent?_of_mem_children hc] at hq
    cases hq
    exact ⟨hr, hc⟩

/-! ## The enumeration -/

mutual

/-- A node and the nodes below it that are reached through named children, in their places, each
before its own children. -/
def nodesAt (above : List Frame) : Tree → List Place
  | .node l cs => ⟨.node l cs, above⟩ :: nodesFrom (.node l cs) above 0 cs

/-- The nodes of the named children of `parent` from an index on, in their places. -/
def nodesFrom (parent : Tree) (above : List Frame) : Nat → List Tree → List Place
  | _, [] => []
  | i, c :: cs =>
    if c.named then nodesAt (⟨parent, i⟩ :: above) c ++ nodesFrom parent above (i + 1) cs
    else nodesFrom parent above (i + 1) cs

end

/-- The node and the nodes below it that are reached through named children, in their places. -/
def nodes (p : Place) : List Place := nodesAt p.above p.node

theorem nodesFrom_eq (parent : Tree) (above : List Frame) (i : Nat) (cs : List Tree) :
    nodesFrom parent above i cs =
      ((childrenFrom parent above i cs).filter (·.node.named)).flatMap nodes := by
  induction cs generalizing i with
  | nil => rfl
  | cons c cs ih =>
    rw [nodesFrom, childrenFrom, ih, List.filter_cons]
    split
    · rw [List.flatMap_cons]
      rfl
    · rfl

theorem nodes_eq (p : Place) : p.nodes = p :: p.namedChildren.flatMap nodes := by
  rcases p with ⟨⟨l, cs⟩, above⟩
  rw [nodes, nodesAt, nodesFrom_eq]
  rfl

theorem self_mem_nodes (p : Place) : p ∈ p.nodes := by
  rw [nodes_eq]
  exact List.mem_cons_self

theorem mem_nodes_iff {p q : Place} : q ∈ p.nodes ↔ p.Reaches q := by
  constructor
  · intro hq
    induction p using Place.induction with
    | step p ih =>
      rw [nodes_eq, List.mem_cons, List.mem_flatMap] at hq
      rcases hq with rfl | ⟨c, hc, hq⟩
      · exact Relation.ReflTransGen.refl
      · exact Relation.ReflTransGen.head hc (ih c hc hq)
  · intro hq
    induction hq using Relation.ReflTransGen.head_induction_on with
    | refl => exact self_mem_nodes q
    | head hc _ ih =>
      rw [nodes_eq]
      exact List.mem_cons_of_mem _ (List.mem_flatMap.mpr ⟨_, hc, ih⟩)

theorem path_prefix_of_mem_nodes {p q : Place} (h : q ∈ p.nodes) : p.path <+: q.path :=
  path_prefix_of_contains (mem_nodes_iff.mp h).contains

/-- Two subtrees of which one turns off before the other keep their nodes in order. -/
theorem TurnsOffBefore.precedes {p q x y : Place} (h : p.TurnsOffBefore q) (hx : x ∈ p.nodes)
    (hy : y ∈ q.nodes) : x.Precedes y :=
  .of_turnsOffBefore (h.extend (path_prefix_of_mem_nodes hx) (path_prefix_of_mem_nodes hy))

theorem nodes_pairwise_flatMap {roots : List Place}
    (hroots : roots.Pairwise TurnsOffBefore) (hnodes : ∀ r ∈ roots, r.nodes.Pairwise Precedes) :
    (roots.flatMap nodes).Pairwise Precedes := by
  refine List.pairwise_flatMap.mpr ⟨hnodes, hroots.imp ?_⟩
  intro p q h x hx y hy
  exact h.precedes hx hy

/-- The enumeration follows the document. -/
theorem nodes_pairwise (p : Place) : p.nodes.Pairwise Precedes := by
  induction p using Place.induction with
  | step p ih =>
    rw [nodes_eq, List.pairwise_cons]
    -- The node stands above all that follows; the subtrees of its children turn off in order.
    refine ⟨fun q hq => ?_, nodes_pairwise_flatMap (namedChildren_pairwise p) ih⟩
    rcases List.mem_flatMap.mp hq with ⟨c, hc, hq⟩
    rcases path_of_mem_children (mem_children_of_mem_namedChildren hc) with ⟨j, hj⟩
    exact .of_above (hj ▸ path_prefix_of_mem_nodes hq)

end SuiteDraft.Place
