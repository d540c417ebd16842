import SuiteDraft.Proofs.Analysis.Calls
import SuiteDraft.Proofs.Analysis.Scope

/-!
# Definition sites

A site defines a function under a name when it declares one, or binds the name to one, possibly
wrapped in a call; the search for definitions finds a function there, and only there.
-/

namespace SuiteDraft

namespace Tree

/-- A function, or a call whose first argument is one. -/
def HoldsFunction (t : Tree) : Prop :=
  t.kind.isFunctionValue = true ∨ t.kind = .callExpression ∧
    ∃ first, t.callArguments.head? = some first ∧ first.kind.isFunctionValue = true

/-- A declaration of the function `name`, or a declarator that binds the name to a function. -/
def Defines (t : Tree) (name : String) : Prop :=
  (t.kind.isFunctionDeclaration = true ∧ t.childText .name = name) ∨
    t.Binds name ∧ ∃ value, t.child? .value = some value ∧ value.HoldsFunction

/-- A node is the tree itself or is reached from it through named children. -/
def Reaches : Tree → Tree → Prop := Relation.ReflTransGen fun t u => u ∈ t.namedChildren

end Tree

namespace Place

theorem node_child? (p : Place) (f : Field) : (p.child? f).map (·.node) = p.node.child? f := by
  rw [child?, Tree.child?, ← node_children, List.find?_map]
  rfl

theorem node_callArguments (call : Place) :
    call.callArguments.map (·.node) = call.node.callArguments := by
  unfold callArguments Tree.callArguments
  rw [← node_child?]
  cases call.child? .arguments with
  | none => rfl
  | some args =>
    change _ = if args.kind = .arguments then args.node.meaningful else []
    dsimp only
    split
    · rw [meaningful, Tree.meaningful, ← node_children, List.filter_map]
      rfl
    · rfl

/-- A value holds a function: it is that function, or a call of which it is the first argument. -/
inductive HoldsFunction (value : Place) : Place → Prop
  | itself (function : value.kind.isFunctionValue = true) : HoldsFunction value value
  | wrapped {fn : Place} (call : value.kind = .callExpression)
      (first : value.callArguments.head? = some fn) (function : fn.kind.isFunctionValue = true) :
      HoldsFunction value fn

theorem wrappedFunction?_eq_some_iff {value fn : Place} :
    value.wrappedFunction? = some fn ↔ value.HoldsFunction fn := by
  have notBoth (function : value.kind.isFunctionValue = true) : value.kind ≠ .callExpression := by
    intro call
    rw [call] at function
    cases function
  unfold wrappedFunction?
  constructor
  · intro found
    split at found
    · rename_i function
      cases found
      exact .itself function
    · split at found
      · rename_i call
        cases args : value.callArguments with
        | nil =>
          rw [args] at found
          cases found
        | cons first rest =>
          simp only [args, Option.ite_none_right_eq_some, Option.some.injEq] at found
          have ⟨function, first_eq⟩ := found
          refine .wrapped call ?_ (first_eq ▸ function)
          rw [args, List.head?_cons, first_eq]
      · cases found
  · intro holds
    cases holds with
    | itself function => rw [if_pos function]
    | wrapped call first function =>
      have ⟨rest, args⟩ := List.head?_eq_some_iff.mp first
      rw [if_neg fun itself => notBoth itself call, if_pos call, args]
      exact if_pos function

theorem exists_holdsFunction_iff {value : Place} :
    (∃ fn, value.HoldsFunction fn) ↔ value.node.HoldsFunction := by
  constructor
  · rintro ⟨fn, function | ⟨call, first, function⟩⟩
    · exact .inl function
    · refine .inr ⟨call, fn.node, ?_, function⟩
      rw [← node_callArguments, List.head?_map, first]
      rfl
  · rintro (function | ⟨call, node, first, function⟩)
    · exact ⟨value, .itself function⟩
    · rw [← node_callArguments, List.head?_map, Option.map_eq_some_iff] at first
      obtain ⟨fn, first, rfl⟩ := first
      exact ⟨fn, .wrapped call first function⟩

end Place

namespace Location

/-- A site defines a function under a name: it declares it, or binds the name to a value that holds
it. -/
inductive DefinedAt (name : String) (site : Place) : Place → Prop
  | declared (declaration : site.kind.isFunctionDeclaration = true)
      (named : site.node.childText .name = name) : DefinedAt name site site
  | bound {value fn : Place} (binds : site.node.Binds name) (initial : site.child? .value = some value)
      (holds : value.HoldsFunction fn) : DefinedAt name site fn

theorem definition?_eq_some_iff {name : String} {site fn : Place} :
    definition? name site = some fn ↔ DefinedAt name site fn := by
  have notBoth (declaration : site.kind.isFunctionDeclaration = true) :
      site.kind ≠ .variableDeclarator := by
    intro declarator
    rw [declarator] at declaration
    cases declaration
  unfold definition?
  constructor
  · intro found
    split at found
    · rename_i declaration
      simp only [Option.ite_none_right_eq_some, Option.some.injEq] at found
      have ⟨named, fn_eq⟩ := found
      exact fn_eq ▸ .declared declaration named
    · split at found
      · rename_i declarator
        cases name_eq : site.node.child? .name with
        | none =>
          rw [name_eq] at found
          cases found
        | some binding =>
          simp only [name_eq, Option.ite_none_right_eq_some, Bool.and_eq_true, decide_eq_true_iff]
            at found
          have ⟨plain, found⟩ := found
          have ⟨value, initial, found⟩ := Option.bind_eq_some_iff.mp found
          exact .bound ⟨declarator, binding, name_eq, plain⟩ initial
            (Place.wrappedFunction?_eq_some_iff.mp found)
      · cases found
  · intro defined
    cases defined with
    | declared declaration named => rw [if_pos declaration, if_pos named]
    | bound binds initial holds =>
      have ⟨declarator, binding, name_eq, plain⟩ := binds
      have plain_eq : (decide (binding.kind = .identifier) && decide (binding.text = name)) = true := by
        simpa using plain
      rw [if_neg fun declaration => notBoth declaration declarator,
        if_pos (show site.kind = _ from declarator), name_eq, initial]
      dsimp only
      rw [if_pos plain_eq, Option.bind_some]
      exact Place.wrappedFunction?_eq_some_iff.mpr holds

theorem exists_definedAt_iff {name : String} {site : Place} :
    (∃ fn, DefinedAt name site fn) ↔ site.node.Defines name := by
  constructor
  · rintro ⟨fn, ⟨declaration, named⟩ | ⟨binds, initial, holds⟩⟩
    · exact .inl ⟨declaration, named⟩
    · refine .inr ⟨binds, _, ?_, Place.exists_holdsFunction_iff.mp ⟨fn, holds⟩⟩
      rw [← Place.node_child?, initial]
      rfl
  · rintro (⟨declaration, named⟩ | ⟨binds, node, initial, holds⟩)
    · exact ⟨site, .declared declaration named⟩
    · rw [← Place.node_child?, Option.map_eq_some_iff] at initial
      obtain ⟨value, initial, rfl⟩ := initial
      have ⟨fn, holds⟩ := Place.exists_holdsFunction_iff.mpr holds
      exact ⟨fn, .bound binds initial holds⟩

theorem definition?_isSome_iff {name : String} {site : Place} :
    (definition? name site).isSome = true ↔ site.node.Defines name := by
  rw [Option.isSome_iff_exists, ← exists_definedAt_iff]
  exact exists_congr fun fn => definition?_eq_some_iff

/-- Below a node without definition sites the search finds nothing. -/
theorem definitions_eq_nil {name : String} {p : Place}
    (h : ∀ t, p.node.Reaches t → ¬ t.Defines name) : definitions name p = [] := by
  induction p using Place.induction with
  | step p ih =>
    have hnone : definition? name p = none :=
      Option.not_isSome_iff_eq_none.mp (mt definition?_isSome_iff.mp (h p.node .refl))
    rw [definitions_eq_flatMap hnone, List.flatMap_eq_nil_iff]
    intro c hc
    refine ih c hc fun t ht => h t (.head ?_ ht)
    rw [Tree.namedChildren, ← Place.node_children, List.filter_map]
    exact List.mem_map_of_mem hc

/-- Where there is a definition site, the search finds something. -/
theorem definitions_ne_nil {name : String} {p : Place} {site : Tree}
    (reached : p.node.Reaches site) (defines : site.Defines name) : definitions name p ≠ [] := by
  induction p using Place.induction with
  | step p ih =>
    cases hp : definition? name p with
    | some fn =>
      rw [definitions_eq_singleton hp]
      exact List.cons_ne_nil _ _
    | none =>
      rcases reached.cases_head with rfl | ⟨t, ht, hreached⟩
      · have hsome := definition?_isSome_iff.mpr defines
        rw [hp] at hsome
        cases hsome
      · rw [Tree.namedChildren, ← Place.node_children, List.filter_map] at ht
        rcases List.mem_map.mp ht with ⟨c, hc, rfl⟩
        rw [definitions_eq_flatMap hp]
        exact fun hnil => ih c hc hreached (List.flatMap_eq_nil_iff.mp hnil c hc)

theorem definitions_eq_nil_iff {name : String} {p : Place} :
    definitions name p = [] ↔ ∀ site, p.node.Reaches site → ¬ site.Defines name :=
  ⟨fun hnil _ reached defines => definitions_ne_nil reached defines hnil, definitions_eq_nil⟩

end Location

end SuiteDraft
