import SuiteDraft.Proofs.Analysis.Isolation
import SuiteDraft.Proofs.Analysis.Simulation

/-!
# Ways to export a component

A file may export the function `name` as its default by the name itself, in a clause, wrapped in a
call, or where the function is declared. Whichever way it takes, the rest of the file is analysed
alike: the export gives the name, and the functions of that name are those of the other statements.
-/

namespace SuiteDraft

open Place (Twins)

namespace Tree

/-- A statement that begins with `export default`. -/
def IsDefaultExport (statement : Tree) : Prop :=
  statement.kind = .exportStatement ∧ ∃ word ∈ statement.children, word.kind = .defaultWord

/-- A specifier `name as default`. -/
def SpecifiesDefault (specifier : Tree) (name : String) : Prop :=
  ∃ exported own, specifier.child? .exportedName = some exported ∧ exported.text = "default" ∧
    specifier.child? .name = some own ∧ own.text = name

/-- The specifiers in the clauses of a statement. -/
def specifiers (statement : Tree) : List Tree :=
  (statement.namedChildren.filter (·.kind == .exportClause)).flatMap namedChildren

/-- A statement `export { …, name as default, … }` without a source; the specifiers before do not
export a default. -/
def ClauseExports (statement : Tree) (name : String) : Prop :=
  (statement.kind = .exportStatement ∧ statement.child? .source = none) ∧
    ∃ before specifier after, statement.specifiers = before ++ specifier :: after ∧
      specifier.SpecifiesDefault name ∧ ∀ s ∈ before, ∀ other, ¬ s.SpecifiesDefault other

/-- A statement does not export anything as the default of its file. -/
def ExportsNoDefault (statement : Tree) : Prop :=
  ¬ statement.IsDefaultExport ∧ ∀ name, ¬ statement.ClauseExports name

/-- No function is defined under a name anywhere in a statement. -/
def DefinesNo (name : String) (statement : Tree) : Prop :=
  ∀ site, statement.Reaches site → ¬ site.Defines name

/-- A value that stands for the function `name`: the name itself, or a call that takes it for its
first argument, whatever is called. -/
inductive StandsFor (value : Tree) (name : String) : Prop
  | itself (kind : value.kind = .identifier) (text : value.text = name)
  | wrapped (kind : value.kind = .callExpression) {first : Tree}
      (head : value.callArguments.head? = some first) (kind' : first.kind = .identifier)
      (text : first.text = name)

/-- A statement of its own that exports the function `name` as the default: `export default` of a
value that stands for it, or a clause that exports it as the default. -/
inductive ExportsByName (statement : Tree) (name : String) : Prop
  | value (isDefault : statement.IsDefaultExport) (plain : statement.child? .declaration = none)
      {value : Tree} (holds : statement.child? .value = some value) (standsFor : value.StandsFor name)
  | clause (plain : ¬ statement.IsDefaultExport) (exports : statement.ClauseExports name)

/-- The statement is `export default` before the declaration `fn` of the function `name`; around it
stand words and comments, or at least nothing that defines the function. -/
structure ExportsInPlace (statement fn : Tree) (name : String) : Prop where
  isDefault : statement.IsDefaultExport
  declares : fn.kind.isFunctionDeclaration = true
  named : fn.named = true
  own : (fn.child? .name).map (·.text) = some name
  children : ∃ before declaration after, statement.children = before ++ declaration :: after ∧
    declaration.unplaced = (fn.inField .declaration).unplaced ∧
    (∀ c ∈ before, c.label.field ≠ some .declaration) ∧
    ∀ c ∈ before ++ after, c.named = true → c.DefinesNo name

end Tree

namespace Analysis

/-- The file `tree` consists of the statements `S`, which may start elsewhere, and exports the
function `name` as its default: in a statement at the end, or where the function is declared. -/
inductive Exports (S : List Tree) (name : String) (tree : Tree) : Prop
  | atEnd {before : List Tree} {statement : Tree} (children : tree.children = before ++ [statement])
      (same : before.map Tree.unplaced = S.map Tree.unplaced) (named : statement.named = true)
      (exports : statement.ExportsByName name) (definesNo : statement.DefinesNo name)
  | inPlace {before after before' after' : List Tree} {fn statement : Tree}
      (statements : S = before ++ fn :: after) (children : tree.children = before' ++ statement :: after')
      (same : before'.map Tree.unplaced = before.map Tree.unplaced)
      (same' : after'.map Tree.unplaced = after.map Tree.unplaced) (named : statement.named = true)
      (exports : statement.ExportsInPlace fn name)

end Analysis

theorem Tree.unplaced_inField (t : Tree) (f : Field) :
    (t.inField f).unplaced = t.unplaced.inField f := by
  cases t with
  | node l cs => rfl

namespace Location

/-! ## What a statement exports -/

variable {t : Tree} {name : String}

theorem isDefaultExport_iff : isDefaultExport t = true ↔ t.IsDefaultExport := by
  rw [isDefaultExport, Bool.and_eq_true, beq_iff_eq, List.any_eq_true, Tree.IsDefaultExport]
  simp only [beq_iff_eq]

theorem specifierDefault?_eq_some_iff : specifierDefault? t = some name ↔ t.SpecifiesDefault name := by
  unfold specifierDefault? Tree.SpecifiesDefault
  cases t.child? .exportedName with
  | none => simp
  | some exported =>
    cases t.child? .name with
    | none => simp
    | some own => by_cases h : exported.text = "default" <;> simp [h]

theorem findSome?_specifierDefault? : t.specifiers.findSome? specifierDefault? =
    (t.namedChildren.filter (·.kind == .exportClause)).findSome? clauseDefault? := by
  rw [Tree.specifiers]
  induction t.namedChildren.filter (·.kind == .exportClause) with
  | nil => rfl
  | cons clause clauses ih =>
    have hclause : clause.namedChildren.findSome? specifierDefault? = clauseDefault? clause := rfl
    rw [List.flatMap_cons, List.findSome?_append, List.findSome?_cons, ih, hclause]
    cases clauseDefault? clause <;> rfl

theorem clauseExport?_eq_some_iff : clauseExport? t = some name ↔ t.ClauseExports name := by
  rw [clauseExport?, ← findSome?_specifierDefault?, Tree.ClauseExports]
  simp only [← specifierDefault?_eq_some_iff, ← ne_eq, ← Option.eq_none_iff_forall_ne_some]
  rw [← List.findSome?_eq_some_iff, ← Option.isNone_iff_eq_none]
  by_cases h : t.kind = .exportStatement ∧ (t.child? .source).isNone = true <;> simp [h]

theorem clauseExport?_eq_none_iff : clauseExport? t = none ↔ ∀ name, ¬ t.ClauseExports name := by
  simp only [Option.eq_none_iff_forall_ne_some, ne_eq, clauseExport?_eq_some_iff]

instance : Decidable t.IsDefaultExport := decidable_of_iff _ isDefaultExport_iff

instance : Decidable (t.ClauseExports name) := decidable_of_iff _ clauseExport?_eq_some_iff

theorem definesNo_iff : t.DefinesNo name ↔ definitions name ⟨t, []⟩ = [] :=
  (definitions_eq_nil_iff (p := ⟨t, []⟩)).symm

instance : Decidable (t.DefinesNo name) := decidable_of_iff _ definesNo_iff.symm

theorem standsFor_iff : t.StandsFor name ↔ (t.kind = .identifier ∧ t.text = name) ∨
    t.kind = .callExpression ∧
      ∃ first ∈ t.callArguments.head?, first.kind = .identifier ∧ first.text = name := by
  constructor
  · intro h
    cases h with
    | itself kind text => exact .inl ⟨kind, text⟩
    | wrapped kind head kind' text => exact .inr ⟨kind, _, head, kind', text⟩
  · rintro (⟨kind, text⟩ | ⟨kind, first, head, kind', text⟩)
    · exact .itself kind text
    · exact .wrapped kind head kind' text

instance : Decidable (t.StandsFor name) := decidable_of_iff _ standsFor_iff.symm

theorem exportsByName_iff : t.ExportsByName name ↔
    (t.IsDefaultExport ∧ t.child? .declaration = none ∧ ∃ value ∈ t.child? .value, value.StandsFor name) ∨
      ¬ t.IsDefaultExport ∧ t.ClauseExports name := by
  constructor
  · intro h
    cases h with
    | value isDefault plain holds standsFor => exact .inl ⟨isDefault, plain, _, holds, standsFor⟩
    | clause plain exports => exact .inr ⟨plain, exports⟩
  · rintro (⟨isDefault, plain, value, holds, standsFor⟩ | ⟨plain, exports⟩)
    · exact .value isDefault plain holds standsFor
    · exact .clause plain exports

instance : Decidable (t.ExportsByName name) := decidable_of_iff _ exportsByName_iff.symm

theorem valueName?_of_standsFor (h : t.StandsFor name) : valueName? t = some name := by
  unfold valueName?
  cases h with
  | itself kind text => rw [if_pos kind, text]
  | wrapped kind head kind' text =>
    rw [kind, if_neg (by decide), if_neg (by decide), if_pos rfl]
    match t.callArguments, head with
    | _ :: _, rfl => exact (if_pos kind').trans (congrArg some text)

/-! ## What a file exports -/

/-- The name of a statement's own default export. -/
def statementExport? (t : Tree) : Option String :=
  if isDefaultExport t then (ofStatement ⟨t, []⟩).name else clauseExport? t

theorem name_ofStatement (p : Place) : (ofStatement p).name =
    (declaredName? p.node).or ((p.node.child? .value).bind valueName?) := by
  rw [ofStatement, ← Place.node_child?]
  cases declaredName? p.node with
  | some name => rfl
  | none =>
    cases p.child? .value with
    | none => rfl
    | some value => rfl

theorem statementExport?_of_exportsByName (h : t.ExportsByName name) :
    statementExport? t = some name := by
  cases h with
  | value isDefault plain holds standsFor =>
    rw [statementExport?, if_pos (isDefaultExport_iff.mpr isDefault), name_ofStatement,
      declaredName?, plain, holds]
    exact valueName?_of_standsFor standsFor
  | clause plain exports =>
    rw [statementExport?, if_neg (mt isDefaultExport_iff.mp plain),
      clauseExport?_eq_some_iff.mpr exports]

theorem exportsNoDefault_iff :
    t.ExportsNoDefault ↔ isDefaultExport t = false ∧ clauseExport? t = none := by
  rw [Tree.ExportsNoDefault, ← isDefaultExport_iff, Bool.not_eq_true, clauseExport?_eq_none_iff]

instance : Decidable t.ExportsNoDefault := decidable_of_iff _ exportsNoDefault_iff.symm

theorem exportsNoDefault_unplaced : t.unplaced.ExportsNoDefault ↔ t.ExportsNoDefault := by
  rw [exportsNoDefault_iff, exportsNoDefault_iff, isDefaultExport_unplaced, clauseExport?_unplaced]

/-- Among statements that export no default, one that does names the component. -/
theorem defaultExport_name {before after : List Place} {p : Place}
    (hp : statementExport? p.node = some name)
    (others : ∀ q ∈ before ++ after, q.node.ExportsNoDefault) :
    (defaultExport (before ++ p :: after)).name = some name := by
  have hnone : ∀ q ∈ before ++ after, isDefaultExport q.node = false ∧ clauseExport? q.node = none :=
    fun q hq => exportsNoDefault_iff.mp (others q hq)
  have hbefore : before.find? (fun q => isDefaultExport q.node) = none :=
    List.find?_eq_none.mpr fun q hq => by simp [hnone q (List.mem_append_left _ hq)]
  have hafter : after.find? (fun q => isDefaultExport q.node) = none :=
    List.find?_eq_none.mpr fun q hq => by simp [hnone q (List.mem_append_right _ hq)]
  have hclause : before.findSome? (fun q => clauseExport? q.node) = none :=
    List.findSome?_eq_none_iff.mpr fun q hq => (hnone q (List.mem_append_left _ hq)).2
  unfold statementExport? at hp
  unfold defaultExport
  rw [List.find?_append, hbefore, Option.none_or, List.find?_cons]
  cases hdefault : isDefaultExport p.node with
  | true =>
    rw [if_pos hdefault, name_ofStatement] at hp
    rw [name_ofStatement]
    exact hp
  | false =>
    rw [if_neg (by simp [hdefault])] at hp
    rw [hafter]
    dsimp only
    rw [List.findSome?_append, hclause, Option.none_or, List.findSome?_cons, hp]

theorem ofStatements_of_name {statements : List Place}
    (hname : (defaultExport statements).name = some name)
    (defined : statements.flatMap (definitions name) ≠ []) :
    ofStatements statements = { name := DefaultExport.componentName { name := some name }
                                roots := statements.flatMap (definitions name) } := by
  rw [ofStatements, DefaultExport.componentName, hname]
  simp only [List.isEmpty_iff, if_neg defined]
  rfl

/-! ## An export where the function is declared -/

section

variable {fn declaration : Tree}

theorem declared_of_unplaced (same : declaration.unplaced = (fn.inField .declaration).unplaced) :
    declaration.kind = fn.kind ∧ declaration.named = fn.named ∧
      declaration.label.field = some .declaration ∧
      (declaration.child? .name).map (·.text) = (fn.child? .name).map (·.text) := by
  have hname : ∀ u : Tree, (u.child? .name).map (·.text) = (u.unplaced.child? .name).map (·.text) := by
    intro u
    rw [Tree.child?_unplaced, Option.map_map]
    simp only [Function.comp_def, Tree.text_unplaced]
  rw [← Tree.kind_unplaced declaration, ← Tree.named_unplaced declaration,
    ← Tree.field_unplaced declaration, hname declaration, same, ← hname]
  cases fn with
  | node l cs => exact ⟨rfl, rfl, rfl, rfl⟩

theorem definition?_of_declaration {p : Place} (declares : p.kind.isFunctionDeclaration = true)
    (own : (p.node.child? .name).map (·.text) = some name) : definition? name p = some p := by
  rcases Option.map_eq_some_iff.mp own with ⟨own, hown, htext⟩
  rw [definition?, if_pos declares, Tree.childText, hown]
  exact if_pos htext

theorem statementExport?_of_exportsInPlace (h : t.ExportsInPlace fn name) :
    statementExport? t = some name := by
  rcases h.children with ⟨before, declaration, after, hchildren, same, hbefore, -⟩
  rcases declared_of_unplaced same with ⟨hkind, -, hfield, hname⟩
  have hdeclaration : t.child? .declaration = some declaration := by
    have hnone : before.find? (fun c => c.label.field == some .declaration) = none :=
      List.find?_eq_none.mpr fun c hc => by simpa using hbefore c hc
    rw [Tree.child?, hchildren, List.find?_append, hnone, Option.none_or, List.find?_cons, hfield,
      beq_self_eq_true]
  have hdeclared : declaredName? t = some name := by
    rw [declaredName?, hdeclaration]
    dsimp only
    rw [hkind, if_pos h.declares, hname, h.own]
  rw [statementExport?, if_pos (isDefaultExport_iff.mpr h.isDefault), name_ofStatement, hdeclared]
  rfl

/-- In such a statement the function is defined where it is declared, and nowhere else. -/
theorem definitions_of_exportsInPlace (h : t.ExportsInPlace fn name) (above : List Frame) :
    ∃ declaration j, definitions name ⟨t, above⟩ = [⟨declaration, ⟨t, j⟩ :: above⟩] ∧
      declaration.unplaced = (fn.inField .declaration).unplaced := by
  rcases h.children with ⟨before, declaration, after, hchildren, same, -, hothers⟩
  rcases declared_of_unplaced same with ⟨hkind, hnamed, -, hname⟩
  have hnone : definition? name ⟨t, above⟩ = none := by
    have hstatement : Place.kind ⟨t, above⟩ = .exportStatement := h.isDefault.1
    rw [definition?, hstatement]
    rfl
  have hdeclares : declaration.kind.isFunctionDeclaration = true := by rw [hkind, h.declares]
  have hsome : ∀ j, definition? name ⟨declaration, ⟨t, j⟩ :: above⟩ =
      some ⟨declaration, ⟨t, j⟩ :: above⟩ :=
    fun j => definition?_of_declaration hdeclares (hname.trans h.own)
  have hempty : ∀ (i : Nat) (cs : List Tree), (∀ c ∈ cs, c.named = true → c.DefinesNo name) →
      ((Place.childrenFrom t above i cs).filter (·.node.named)).flatMap (definitions name) = [] := by
    refine fun i cs hcs => List.flatMap_eq_nil_iff.mpr fun q hq => ?_
    rcases List.mem_filter.mp hq with ⟨hq, hqnamed⟩
    refine definitions_eq_nil (hcs q.node ?_ hqnamed)
    rw [← Place.node_childrenFrom t above i cs]
    exact List.mem_map_of_mem hq
  refine ⟨declaration, 0 + before.length, ?_, same⟩
  rw [definitions_eq_flatMap hnone, Place.namedChildren, Place.children, hchildren,
    Analysis.childrenFrom_append, Place.childrenFrom, List.filter_append, List.flatMap_append,
    hempty 0 before fun c hc => hothers c (List.mem_append_left _ hc),
    List.filter_cons_of_pos (by rw [hnamed]; exact h.named), List.flatMap_cons,
    hempty _ after fun c hc => hothers c (List.mem_append_right _ hc),
    definitions_eq_singleton (hsome _)]
  rfl

end

end Location

namespace Analysis

/-! ## The file and its statements -/

variable {S : List Tree} {name : String} {tree : Tree}

theorem twins_of_statementsFrom (program : tree.kind = .program) (i : Nat) (cs : List Tree) :
    List.Forall₂ (Twins fun _ => false) (statementsFrom tree i cs) (statementsAlone cs) := by
  rw [← statementsFrom_alone tree i cs, List.forall₂_map_right_iff, List.forall₂_same]
  intro p hp
  rcases Place.mem_childrenFrom_iff.mp (List.mem_of_mem_filter hp) with ⟨j, -, habove⟩
  exact Place.twins_alone program habove

theorem definitions_twins {l l' : List Place} (name : String)
    (h : List.Forall₂ (Twins fun _ => false) l l') :
    List.Forall₂ (Twins fun _ => false) (l.flatMap (Location.definitions name))
      (l'.flatMap (Location.definitions name)) :=
  forall₂_flatMap (fun _ _ _ hp => Location.definitions_rel name hp) h

/-- The location of the function `name` among statements, each on its own. -/
def locationIn (S : List Tree) (name : String) : Location where
  name := DefaultExport.componentName { name := some name }
  roots := (statementsAlone S).flatMap (Location.definitions name)

theorem statementsAlone_congr {a b : List Tree} (h : a.map Tree.unplaced = b.map Tree.unplaced) :
    statementsAlone a = statementsAlone b := by
  rw [statementsAlone, statementsAlone, h]

/-- A function with a definition site among the statements of a file is located there. -/
theorem locationIn_roots_ne_nil (defined : ∃ s ∈ S, s.named = true ∧
    ∃ site, s.Reaches site ∧ site.Defines name) : (locationIn S name).roots ≠ [] := by
  rcases defined with ⟨s, hs, hnamed, site, hreached, hdefines⟩
  have halone : ⟨s.unplaced, []⟩ ∈ statementsAlone S := by
    refine List.mem_map_of_mem (List.mem_filter.mpr ⟨List.mem_map_of_mem hs, ?_⟩)
    rw [Tree.named_unplaced, hnamed]
  have htwins : Twins (fun _ => false) ⟨s, []⟩ ⟨s.unplaced, []⟩ :=
    .outermost (Tree.alike_unplaced s) nofun nofun
  have hlength := (Location.definitions_rel name htwins).length_eq
  intro hnil
  rw [List.flatMap_eq_nil_iff.mp hnil _ halone] at hlength
  exact Location.definitions_ne_nil (p := ⟨s, []⟩) hreached hdefines (List.length_eq_zero_iff.mp hlength)

theorem locationIn_declaration {fn : Tree} (declares : fn.kind.isFunctionDeclaration = true)
    (named : fn.named = true) (own : (fn.child? .name).map (·.text) = some name) :
    (locationIn [fn] name).roots = [⟨fn.unplaced, []⟩] := by
  have hsome : Location.definition? name ⟨fn.unplaced, []⟩ = some ⟨fn.unplaced, []⟩ := by
    refine Location.definition?_of_declaration ?_ ?_
    · change fn.unplaced.kind.isFunctionDeclaration = true
      rw [Tree.kind_unplaced, declares]
    · rw [Tree.child?_unplaced, Option.map_map, ← own]
      simp only [Function.comp_def, Tree.text_unplaced]
  rw [locationIn, statementsAlone, List.map_singleton, List.filter_singleton, Tree.named_unplaced, named]
  exact (List.flatMap_singleton _ _).trans (Location.definitions_eq_singleton hsome)

theorem namedChildren_of_children {before after : List Tree} {statement : Tree}
    (children : tree.children = before ++ statement :: after) (named : statement.named = true) :
    Place.namedChildren ⟨tree, []⟩ = statementsFrom tree 0 before ++
      ⟨statement, [⟨tree, 0 + before.length⟩]⟩ ::
        statementsFrom tree (0 + before.length + 1) after := by
  rw [Place.namedChildren, Place.children, children, childrenFrom_append, Place.childrenFrom,
    List.filter_append, List.filter_cons_of_pos (by exact named)]
  rfl

theorem node_mem_of_mem_statementsFrom {i : Nat} {cs : List Tree} {p : Place}
    (h : p ∈ statementsFrom tree i cs) : p.node ∈ cs := by
  rw [← Place.node_childrenFrom tree [] i cs]
  exact List.mem_map_of_mem (List.mem_of_mem_filter h)

/-- A file locates the function that one of its statements exports. What that statement defines
itself has its twins among the statements `kept` that stand in its place in `S`. -/
theorem ofRoot_of_statement {before after : List Tree} {statement : Tree} (kept : List Tree)
    (program : tree.kind = .program) (children : tree.children = before ++ statement :: after)
    (named : statement.named = true) (exports : Location.statementExport? statement = some name)
    (noDefault : ∀ s ∈ before ++ after, s.ExportsNoDefault)
    (same : statementsAlone S = statementsAlone before ++ (statementsAlone kept ++ statementsAlone after))
    (defines : ∀ above, (∀ f ∈ above, f.parent = tree) → List.Forall₂ (Twins fun _ => false)
      (Location.definitions name ⟨statement, above⟩) (locationIn kept name).roots)
    (defined : (locationIn S name).roots ≠ []) :
    (Location.ofRoot ⟨tree, []⟩).name = (locationIn S name).name ∧
      List.Forall₂ (Twins fun _ => false) (Location.ofRoot ⟨tree, []⟩).roots
        (locationIn S name).roots := by
  have hname : (Location.defaultExport (Place.namedChildren ⟨tree, []⟩)).name = some name := by
    rw [namedChildren_of_children children named]
    refine Location.defaultExport_name exports fun q hq => noDefault q.node ?_
    rw [List.mem_append] at hq ⊢
    exact hq.imp node_mem_of_mem_statementsFrom node_mem_of_mem_statementsFrom
  have hroots : List.Forall₂ (Twins fun _ => false)
      ((Place.namedChildren ⟨tree, []⟩).flatMap (Location.definitions name))
      (locationIn S name).roots := by
    rw [namedChildren_of_children children named, locationIn, same, List.flatMap_append,
      List.flatMap_append, List.flatMap_append, List.flatMap_cons]
    refine List.rel_append ?_ (List.rel_append (defines _ fun f hf => ?_) ?_)
    · exact definitions_twins name (twins_of_statementsFrom program 0 before)
    · rw [List.mem_singleton.mp hf]
    · exact definitions_twins name (twins_of_statementsFrom program _ after)
  have hdefined : (Place.namedChildren ⟨tree, []⟩).flatMap (Location.definitions name) ≠ [] := by
    intro hnil
    rw [hnil, List.forall₂_nil_left_iff] at hroots
    exact defined hroots
  rw [Location.ofRoot_eq_ofStatements program, Location.ofStatements_of_name hname hdefined]
  exact ⟨rfl, hroots⟩

theorem noDefault_of_unplaced {a b : List Tree} (h : a.map Tree.unplaced = b.map Tree.unplaced)
    (noDefault : ∀ s ∈ b, s.ExportsNoDefault) : ∀ s ∈ a, s.ExportsNoDefault := by
  intro s hs
  have hmem : s.unplaced ∈ b.map Tree.unplaced := h ▸ List.mem_map_of_mem hs
  rcases List.mem_map.mp hmem with ⟨u, hu, hunplaced⟩
  rw [← Location.exportsNoDefault_unplaced, ← hunplaced, Location.exportsNoDefault_unplaced]
  exact noDefault u hu

/-- However a file exports a function, it locates what its other statements say of the function. -/
theorem ofRoot_of_exports (program : tree.kind = .program)
    (noDefault : ∀ s ∈ S, s.ExportsNoDefault) (defined : (locationIn S name).roots ≠ [])
    (exports : Exports S name tree) :
    (Location.ofRoot ⟨tree, []⟩).name = (locationIn S name).name ∧
      List.Forall₂ (Twins fun _ => false) (Location.ofRoot ⟨tree, []⟩).roots
        (locationIn S name).roots := by
  cases exports with
  | @atEnd before statement children same named exports definesNo =>
    refine ofRoot_of_statement [] program children named
      (Location.statementExport?_of_exportsByName exports) ?_ ?_ (fun above _ => ?_) defined
    · rw [List.append_nil]
      exact noDefault_of_unplaced same noDefault
    · rw [← statementsAlone_congr same]
      exact (List.append_nil _).symm
    · rw [Location.definitions_eq_nil (p := ⟨statement, above⟩) definesNo]
      exact .nil
  | @inPlace before after before' after' fn statement statements children same same' named exports =>
    refine ofRoot_of_statement [fn] program children named
      (Location.statementExport?_of_exportsInPlace exports) ?_ ?_ (fun above habove => ?_) defined
    · have hkept : (before' ++ after').map Tree.unplaced = (before ++ after).map Tree.unplaced := by
        rw [List.map_append, List.map_append, same, same']
      refine noDefault_of_unplaced hkept fun s hs => noDefault s ?_
      rw [statements]
      rw [List.mem_append] at hs ⊢
      exact hs.imp_right (List.mem_cons_of_mem fn)
    · rw [statements, statementsAlone_congr same, statementsAlone_congr same',
        ← statementsAlone_append, ← statementsAlone_append]
      rfl
    · rcases Location.definitions_of_exportsInPlace exports above with
        ⟨declaration, j, hdefinitions, hunplaced⟩
      have halike : Tree.Alike (fun _ => false) declaration fn.unplaced := by
        refine Tree.Alike.of_inField (f := .declaration) ?_
        rw [← Tree.unplaced_inField, ← hunplaced]
        exact Tree.alike_unplaced declaration
      rw [hdefinitions, locationIn_declaration exports.declares exports.named exports.own]
      refine .cons (.outermost halike (fun f hf => ?_) nofun) .nil
      rcases List.mem_cons.mp hf with rfl | hf
      · exact .inr exports.isDefault.1
      · exact .inl (habove f hf ▸ program)

/-- All ways to export a function agree: two files that consist of the same statements and export
the same function of theirs, each in its way, are analysed alike. -/
theorem report_of_exports {path : String} {tree tree' : Tree} (program : tree.kind = .program)
    (program' : tree'.kind = .program) (sound : tree.hasFault = false)
    (sound' : tree'.hasFault = false) (noDefault : ∀ s ∈ S, s.ExportsNoDefault)
    (defined : ∃ s ∈ S, s.named = true ∧ ∃ site, s.Reaches site ∧ site.Defines name)
    (exports : Exports S name tree) (exports' : Exports S name tree') :
    Report.ofTree path tree = Report.ofTree path tree' := by
  have hdefined := locationIn_roots_ne_nil defined
  have hcanonical : ∀ tree : Tree, tree.kind = .program → tree.hasFault = false →
      Exports S name tree → Report.ofTree path tree =
        { log := [announce path (locationIn S name)]
          outcome := (component (locationIn S name) (locationIn S name).roots).mapError .literal } := by
    intro tree program sound exports
    rcases ofRoot_of_exports program noDefault hdefined exports with ⟨hname, hroots⟩
    have hstarts : (Location.ofRoot ⟨tree, []⟩).starts ⟨tree, []⟩ =
        (Location.ofRoot ⟨tree, []⟩).roots := by
      refine if_neg fun hempty => hdefined ?_
      rw [List.isEmpty_iff.mp hempty, List.forall₂_nil_left_iff] at hroots
      exact hroots
    rw [Report.ofTree_of_sound path sound, announce_eq path hname hroots, hstarts,
      component_eq (fun _ => (absurd · Bool.false_ne_true)) hname hroots hroots]
  rw [hcanonical tree program sound exports, hcanonical tree' program' sound' exports']

/-- A file exports the function if its last statement does and the others are the given ones. -/
theorem exports_of_last {statement : Tree} (last : tree.children.getLast? = some statement)
    (same : tree.children.dropLast.map Tree.unplaced = S.map Tree.unplaced)
    (named : statement.named = true) (exports : statement.ExportsByName name)
    (definesNo : statement.DefinesNo name) : Exports S name tree := by
  obtain ⟨before, children⟩ := List.getLast?_eq_some_iff.mp last
  rw [children, List.dropLast_concat] at same
  exact .atEnd children same named exports definesNo

/-- A file exports the function where it is declared if one of its statements begins with
`export default` and ends with the declaration. -/
theorem exports_of_declaration {i : Nat} {fn statement declaration : Tree} (hfn : S[i]? = some fn)
    (hstatement : tree.children[i]? = some statement)
    (before : (tree.children.take i).map Tree.unplaced = (S.take i).map Tree.unplaced)
    (after : (tree.children.drop (i + 1)).map Tree.unplaced = (S.drop (i + 1)).map Tree.unplaced)
    (named : statement.named = true) (isDefault : statement.IsDefaultExport)
    (declares : fn.kind.isFunctionDeclaration = true) (named' : fn.named = true)
    (own : (fn.child? .name).map (·.text) = some name)
    (last : statement.children.getLast? = some declaration)
    (same : declaration.unplaced = (fn.inField .declaration).unplaced)
    (words : ∀ c ∈ statement.children.dropLast, c.named = false ∧ c.label.field = none) :
    Exports S name tree := by
  obtain ⟨hi, rfl⟩ := List.getElem?_eq_some_iff.mp hfn
  obtain ⟨hi', rfl⟩ := List.getElem?_eq_some_iff.mp hstatement
  obtain ⟨front, children⟩ := List.getLast?_eq_some_iff.mp last
  rw [children, List.dropLast_concat] at words
  refine .inPlace (by rw [List.getElem_cons_drop, List.take_append_drop])
    (by rw [List.getElem_cons_drop, List.take_append_drop]) before after named
    ⟨isDefault, declares, named', own, front, declaration, [], children, same, fun c hc => ?_, ?_⟩
  · rw [(words c hc).2]
    exact nofun
  · intro c hc hnamed
    rw [List.append_nil] at hc
    rw [(words c hc).1] at hnamed
    cases hnamed

/-- A constant and a function with a state and an element. -/
def constantAndFunction : String := "const k=1;function A()\x7bconst [v,s]=useState();return <p/>\x7d"

/-- Its statements. -/
def keptStatements : List Tree :=
  (Grammar.treeOf .markup <| .ofGlyphs <| Glyph.ofText constantAndFunction).children

/-- The function is exported by its name, in a clause or behind a wrapper. -/
def exportedByName : List Tree :=
  ["export default A", "export\x7bk,A as default\x7d", "export default f(k)(A,k)"].map fun last =>
    Grammar.treeOf .markup <| .ofGlyphs <| Glyph.ofText <| constantAndFunction ++ last

/-- The function is exported where it is declared. -/
def exportedInPlace : Tree := Grammar.treeOf .markup <| .ofGlyphs <| Glyph.ofText
  "const k=1;export default function A()\x7bconst [v,s]=useState();return <p/>\x7d"

theorem report_of_exportedInPlace :
    (∀ tree ∈ exportedByName, Exports keptStatements "A" tree) ∧ Exports keptStatements "A" exportedInPlace ∧
    (Report.ofTree "A.tsx" exportedInPlace).outcome.toOption = some
      { name := "A"
        elements := [{ tag := "p" }]
        states := [{ valueName := "v", setterName := "s" }] } ∧
    ∀ tree ∈ exportedByName, Report.ofTree "A.tsx" tree = Report.ofTree "A.tsx" exportedInPlace := by
  -- All that is evaluated stands in one fact, so that each file is parsed once.
  have facts : ((∀ s ∈ keptStatements, s.ExportsNoDefault) ∧
        ∃ s ∈ keptStatements, s.named = true ∧ ¬ s.DefinesNo "A") ∧
      (∀ tree ∈ exportedByName, (tree.kind = .program ∧ tree.hasFault = false) ∧
        tree.children.dropLast.map Tree.unplaced = keptStatements.map Tree.unplaced ∧
        ∃ statement ∈ tree.children.getLast?, statement.named = true ∧
          statement.ExportsByName "A" ∧ statement.DefinesNo "A") ∧
      exportedInPlace.hasFault = false ∧
      (∃ fn ∈ keptStatements[1]?, ∃ statement ∈ exportedInPlace.children[1]?,
        ((exportedInPlace.children.take 1).map Tree.unplaced = (keptStatements.take 1).map Tree.unplaced ∧
          (exportedInPlace.children.drop 2).map Tree.unplaced = (keptStatements.drop 2).map Tree.unplaced) ∧
        (statement.named = true ∧ statement.IsDefaultExport) ∧
        (fn.kind.isFunctionDeclaration = true ∧ fn.named = true ∧
          (fn.child? .name).map (·.text) = some "A") ∧
        ∃ declaration ∈ statement.children.getLast?,
          declaration.unplaced = (fn.inField .declaration).unplaced ∧
          ∀ c ∈ statement.children.dropLast, c.named = false ∧ c.label.field = none) ∧
      (Report.ofTree "A.tsx" exportedInPlace).outcome.toOption = some
        { name := "A"
          elements := [{ tag := "p" }]
          states := [{ valueName := "v", setterName := "s" }] } := by
    decide +kernel
  obtain ⟨⟨noDefault, s, hs, named, defined⟩, atEnd, sound, inPlace, outcome⟩ := facts
  have sites : ∃ s ∈ keptStatements, s.named = true ∧ ∃ site, s.Reaches site ∧ site.Defines "A" := by
    simp only [Tree.DefinesNo, not_forall, not_not, exists_prop] at defined
    exact ⟨s, hs, named, defined⟩
  have exportsByName : ∀ tree ∈ exportedByName, Exports keptStatements "A" tree := by
    intro tree htree
    obtain ⟨-, same, statement, last, named, exports, definesNo⟩ := atEnd tree htree
    exact exports_of_last last same named exports definesNo
  have exportsInPlace : Exports keptStatements "A" exportedInPlace := by
    obtain ⟨fn, hfn, statement, hstatement, ⟨before, after⟩, ⟨named, isDefault⟩,
      ⟨declares, named', own⟩, declaration, last, same, words⟩ := inPlace
    exact exports_of_declaration hfn hstatement before after named isDefault declares named' own last
      same words
  refine ⟨exportsByName, exportsInPlace, outcome, fun tree htree => ?_⟩
  obtain ⟨⟨program, sound'⟩, -⟩ := atEnd tree htree
  exact report_of_exports program rfl sound' sound noDefault sites (exportsByName tree htree)
    exportsInPlace

end Analysis

end SuiteDraft
