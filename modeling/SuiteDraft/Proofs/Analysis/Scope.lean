import SuiteDraft.Analysis.Report
import SuiteDraft.Proofs.Tree.Walk

/-!
# The scope of a component

The roots of a component lie apart and in the order of the document, also where several functions
bear its name or definitions lie within definitions. The nodes of its scope are therefore
enumerated in the order of the document, each once.
-/

namespace SuiteDraft

open Place (TurnsOffBefore)

namespace Place

theorem mem_children_of_child? {p q : Place} {f : Field} (h : p.child? f = some q) :
    q ∈ p.children := List.mem_of_find?_eq_some h

theorem mem_callArguments_iff {call arg : Place} : arg ∈ call.callArguments ↔
    ∃ args, call.child? .arguments = some args ∧ args.kind = .arguments ∧ arg ∈ args.meaningful := by
  unfold callArguments
  cases call.child? .arguments with
  | none => simp
  | some args => by_cases h : args.kind = .arguments <;> simp [h]

theorem contains_of_mem_callArguments {call arg : Place} (h : arg ∈ call.callArguments) :
    call.Contains arg := by
  rcases mem_callArguments_iff.mp h with ⟨args, hargs, -, harg⟩
  exact (Contains.of_mem_children (mem_children_of_child? hargs)).trans
    (Contains.of_mem_children (List.mem_of_mem_filter harg))

theorem contains_of_wrappedFunction? {value fn : Place} (h : value.wrappedFunction? = some fn) :
    value.Contains fn := by
  unfold wrappedFunction? at h
  split at h
  · cases h
    exact .refl
  · split at h
    · split at h
      · rename_i first rest hargs
        have hfirst : first ∈ value.callArguments := hargs ▸ List.mem_cons_self
        split at h
        · cases h
          exact contains_of_mem_callArguments hfirst
        · cases h
      · cases h
    · cases h

end Place

namespace Location

/-! ## The search for definitions -/

theorem contains_of_definition? {name : String} {site fn : Place}
    (h : definition? name site = some fn) : site.Contains fn := by
  unfold definition? at h
  split at h
  · split at h
    · cases h
      exact .refl
    · cases h
  · split at h
    · split at h
      · split at h
        · rcases Option.bind_eq_some_iff.mp h with ⟨value, hvalue, hfn⟩
          exact (Place.Contains.of_mem_children (Place.mem_children_of_child? hvalue)).trans
            (Place.contains_of_wrappedFunction? hfn)
        · cases h
      · cases h
    · cases h

/-- The search treats the nodes on its stack one after the other. -/
theorem collectDefinitions_append (name : String) (a b : List Place) :
    collectDefinitions name (a ++ b) = collectDefinitions name a ++ collectDefinitions name b := by
  -- Along the recursion of the search, for the stack grows by the children of its top.
  induction a using collectDefinitions.induct name with
  | case1 => rw [List.nil_append, collectDefinitions, List.nil_append]
  | case2 p stack fn h ih =>
    rw [List.cons_append, collectDefinitions, collectDefinitions, h]
    exact congrArg (fn :: ·) ih
  | case3 p stack h ih =>
    rw [List.cons_append, collectDefinitions, collectDefinitions, h, ← List.append_assoc]
    exact ih

theorem collectDefinitions_eq_flatMap (name : String) (stack : List Place) :
    collectDefinitions name stack = stack.flatMap (definitions name) := by
  induction stack with
  | nil => rw [collectDefinitions, List.flatMap_nil]
  | cons p stack ih =>
    rw [List.flatMap_cons, ← ih, definitions, ← collectDefinitions_append, List.singleton_append]

theorem definitions_eq_singleton {name : String} {p fn : Place} (h : definition? name p = some fn) :
    definitions name p = [fn] := by
  rw [definitions, collectDefinitions, h, collectDefinitions]

theorem definitions_eq_flatMap {name : String} {p : Place} (h : definition? name p = none) :
    definitions name p = p.namedChildren.flatMap (definitions name) := by
  rw [definitions, collectDefinitions, h, List.append_nil]
  exact collectDefinitions_eq_flatMap name p.namedChildren

theorem contains_of_mem_definitions {name : String} {p fn : Place}
    (h : fn ∈ definitions name p) : p.Contains fn := by
  induction p using Place.induction with
  | step p ih =>
    cases hp : definition? name p with
    | some site =>
      rw [definitions_eq_singleton hp, List.mem_singleton] at h
      exact h ▸ contains_of_definition? hp
    | none =>
      rw [definitions_eq_flatMap hp, List.mem_flatMap] at h
      rcases h with ⟨c, hc, h⟩
      exact (Place.Contains.of_mem_children
        (Place.mem_children_of_mem_namedChildren hc)).trans (ih c hc h)

/-- Functions that are defined under one name lie apart, in the order of the document. -/
theorem definitions_pairwise (name : String) (p : Place) :
    (definitions name p).Pairwise TurnsOffBefore := by
  induction p using Place.induction with
  | step p ih =>
    cases hp : definition? name p with
    | some site =>
      rw [definitions_eq_singleton hp]
      exact List.pairwise_singleton _ _
    | none =>
      rw [definitions_eq_flatMap hp]
      refine List.pairwise_flatMap.mpr ⟨ih, p.namedChildren_pairwise.imp ?_⟩
      intro c d hcd x hx y hy
      exact hcd.extend (Place.path_prefix_of_contains (contains_of_mem_definitions hx))
        (Place.path_prefix_of_contains (contains_of_mem_definitions hy))

theorem scope_pairwise (root : Place) (e : DefaultExport) :
    (scope root e).Pairwise TurnsOffBefore := by
  have hexported : (e.value.bind Place.wrappedFunction?).toList.Pairwise TurnsOffBefore := by
    cases e.value.bind Place.wrappedFunction? with
    | none => exact List.Pairwise.nil
    | some fn => exact List.pairwise_singleton _ fn
  unfold scope
  cases e.name with
  | none => exact hexported
  | some name =>
    dsimp only
    split
    · exact hexported
    · exact definitions_pairwise name root

theorem contains_of_ofStatement {statement value : Place}
    (h : (ofStatement statement).value = some value) : statement.Contains value := by
  unfold ofStatement at h
  split at h
  · cases h
  · split at h
    · rename_i hvalue
      cases h
      exact .of_mem_children (Place.mem_children_of_child? hvalue)
    · cases h

theorem contains_of_defaultExport {statements : List Place} {value : Place}
    (h : (defaultExport statements).value = some value) :
    ∃ statement ∈ statements, statement.Contains value := by
  unfold defaultExport at h
  split at h
  · rename_i statement hstatement
    exact ⟨statement, List.mem_of_find?_eq_some hstatement, contains_of_ofStatement h⟩
  · cases h

/-- Whatever is found to be in the scope of a component is in the file. -/
theorem contains_of_mem_scope {root fn : Place} (h : fn ∈ scope root (defaultExport root.namedChildren)) :
    root.Contains fn := by
  have hexported : fn ∈ ((defaultExport root.namedChildren).value.bind Place.wrappedFunction?).toList →
      root.Contains fn := by
    intro hfn
    rcases Option.bind_eq_some_iff.mp (Option.mem_toList.mp hfn) with ⟨value, hvalue, hfn⟩
    rcases contains_of_defaultExport hvalue with ⟨statement, hstatement, hvalue⟩
    exact ((Place.Contains.of_mem_children
      (Place.mem_children_of_mem_namedChildren hstatement)).trans hvalue).trans
        (Place.contains_of_wrappedFunction? hfn)
  unfold scope at h
  cases hname : (defaultExport root.namedChildren).name with
  | none =>
    rw [hname] at h
    exact hexported h
  | some name =>
    rw [hname] at h
    dsimp only at h
    split at h
    · exact hexported h
    · exact contains_of_mem_definitions h

theorem contains_of_mem_starts {root start : Place} (h : start ∈ (ofRoot root).starts root) :
    root.Contains start := by
  unfold starts at h
  split at h
  · exact List.mem_singleton.mp h ▸ .refl
  · exact contains_of_mem_scope h

theorem starts_pairwise (root : Place) : ((ofRoot root).starts root).Pairwise TurnsOffBefore := by
  unfold starts
  split
  · exact List.pairwise_singleton _ root
  · exact scope_pairwise root (defaultExport root.namedChildren)

end Location

namespace Analysis

/-- A place is in the scope of a file's component: it is reached from one of the roots of the
component's location, or from the root of the file when there are none. -/
def InScope (tree : Tree) (p : Place) : Prop :=
  ∃ start ∈ (Location.ofRoot ⟨tree, []⟩).starts ⟨tree, []⟩, start.Reaches p

theorem InScope.contains {tree : Tree} {p : Place} (h : InScope tree p) :
    Place.Contains ⟨tree, []⟩ p := by
  rcases h with ⟨start, hstart, hreaches⟩
  exact (Location.contains_of_mem_starts hstart).trans hreaches.contains

/-- The nodes of the scope of a file's component. -/
def scopeNodes (tree : Tree) : List Place :=
  ((Location.ofRoot ⟨tree, []⟩).starts ⟨tree, []⟩).flatMap Place.nodes

theorem mem_scopeNodes_iff {tree : Tree} {p : Place} : p ∈ scopeNodes tree ↔ InScope tree p := by
  rw [scopeNodes, InScope, List.mem_flatMap]
  simp only [Place.mem_nodes_iff]

/-- The scope is enumerated in the order of the document, without repetition. -/
theorem scopeNodes_pairwise (tree : Tree) : (scopeNodes tree).Pairwise Place.Precedes :=
  Place.nodes_pairwise_flatMap (Location.starts_pairwise ⟨tree, []⟩)
    fun r _ => Place.nodes_pairwise r

end Analysis

end SuiteDraft
