import SuiteDraft.Grammar.Program
import SuiteDraft.Proofs.Analysis.Definitions
import SuiteDraft.Proofs.Analysis.Simulation
import SuiteDraft.Proofs.Analysis.Statements

/-!
# What a component does not depend on

A statement that exports nothing and defines nothing under the name of the component may be replaced
by others of the kind: the analysis says the same and comes to the same component.
-/

namespace SuiteDraft

open Place (Twins)

namespace Location

/-- The location with every root in its statement alone. -/
def alone (location : Location) : Location :=
  { location with roots := location.roots.map Place.alone }

/-- The location in a file with these statements. -/
def ofStatements (statements : List Place) : Location :=
  let e := defaultExport statements
  let named := match e.name with
    | some name => statements.flatMap (definitions name)
    | none => []
  { name := e.componentName
    roots := if named.isEmpty then (e.value.bind Place.wrappedFunction?).toList else named }

theorem definition?_of_program {name : String} {tree : Tree} (program : tree.kind = .program) :
    definition? name ⟨tree, []⟩ = none := by
  have hkind : Place.kind ⟨tree, []⟩ = .program := program
  rw [definition?, hkind]
  rfl

theorem ofRoot_eq_ofStatements {tree : Tree} (program : tree.kind = .program) :
    ofRoot ⟨tree, []⟩ = ofStatements (Place.namedChildren ⟨tree, []⟩) := by
  rw [ofRoot, ofStatements, scope]
  cases (defaultExport (Place.namedChildren ⟨tree, []⟩)).name with
  | none => rfl
  | some name => simp only [definitions_eq_flatMap (definition?_of_program program)]

/-! ## Statements that say nothing of the component -/

theorem isDefaultExport_of_kind {t : Tree} (h : t.kind ≠ .exportStatement) :
    isDefaultExport t = false := by
  rw [isDefaultExport, beq_false_of_ne h, Bool.false_and]

theorem clauseExport?_of_kind {t : Tree} (h : t.kind ≠ .exportStatement) :
    clauseExport? t = none := by
  simp [clauseExport?, h]

theorem defaultExport_append {before others after : List Place}
    (h : ∀ p ∈ others, p.kind ≠ .exportStatement) :
    defaultExport (before ++ others ++ after) = defaultExport (before ++ after) := by
  have hfind : others.find? (fun s => isDefaultExport s.node) = none :=
    List.find?_eq_none.mpr fun p hp => by simp [isDefaultExport_of_kind (h p hp)]
  have hclause : others.findSome? (fun s => clauseExport? s.node) = none :=
    List.findSome?_eq_none_iff.mpr fun p hp => clauseExport?_of_kind (h p hp)
  unfold defaultExport
  simp only [List.find?_append, List.findSome?_append, hfind, hclause, Option.or_none]

/-- A statement exports nothing and defines nothing under the name that is exported. -/
def Foreign (exportedName : Option String) (statement : Tree) : Prop :=
  statement.kind ≠ .exportStatement ∧
    ∀ name, exportedName = some name → ∀ site, statement.Reaches site → ¬ site.Defines name

theorem foreign_iff {exportedName : Option String} {t : Tree} : Foreign exportedName t ↔
    t.kind ≠ .exportStatement ∧ ∀ name ∈ exportedName, definitions name ⟨t, []⟩ = [] := by
  simp only [definitions_eq_nil_iff]
  rfl

instance (exportedName : Option String) (t : Tree) : Decidable (Foreign exportedName t) :=
  decidable_of_iff _ foreign_iff.symm

theorem ofStatements_append {before others after : List Place}
    (h : ∀ p ∈ others, Foreign (defaultExport (before ++ after)).name p.node) :
    ofStatements (before ++ others ++ after) = ofStatements (before ++ after) := by
  have hexport : defaultExport (before ++ others ++ after) = defaultExport (before ++ after) :=
    defaultExport_append fun p hp => (h p hp).1
  rw [ofStatements, ofStatements, hexport]
  cases hname : (defaultExport (before ++ after)).name with
  | none => rfl
  | some name =>
    have hnothing : others.flatMap (definitions name) = [] :=
      List.flatMap_eq_nil_iff.mpr fun p hp => definitions_eq_nil ((h p hp).2 name hname)
    simp only [List.flatMap_append, hnothing, List.append_nil]

/-! ## Statements alone -/

section

variable (t : Tree)

theorem isDefaultExport_unplaced : isDefaultExport t.unplaced = isDefaultExport t :=
  (isDefaultExport_eq (Tree.alike_unplaced t)).symm

theorem declaredName?_unplaced : declaredName? t.unplaced = declaredName? t :=
  (declaredName?_eq (Tree.alike_unplaced t)).symm

@[simp] theorem valueName?_unplaced : valueName? t.unplaced = valueName? t :=
  (valueName?_eq (Tree.alike_unplaced t)).symm

theorem clauseExport?_unplaced : clauseExport? t.unplaced = clauseExport? t :=
  (clauseExport?_eq (Tree.alike_unplaced t)).symm

end

theorem ofStatement_alone {statement : Place} (h : statement.InProgram) :
    ofStatement statement.alone =
      { ofStatement statement with value := (ofStatement statement).value.map Place.alone } := by
  unfold ofStatement
  rw [Place.node_alone, declaredName?_unplaced, Place.child?_alone h]
  cases declaredName? statement.node with
  | some name => rfl
  | none =>
    cases statement.child? .value with
    | none => rfl
    | some value => simp

theorem defaultExport_alone {statements : List Place} (h : ∀ p ∈ statements, p.InProgram) :
    defaultExport (statements.map Place.alone) = { defaultExport statements with
      value := (defaultExport statements).value.map Place.alone } := by
  unfold defaultExport
  rw [List.find?_map, List.findSome?_map]
  simp only [Function.comp_def, Place.node_alone, isDefaultExport_unplaced, clauseExport?_unplaced]
  cases hfind : statements.find? fun s => isDefaultExport s.node with
  | none => rfl
  | some statement => exact ofStatement_alone (h statement (List.mem_of_find?_eq_some hfind))

/-- The location in a file is found in its statements alone. -/
theorem ofStatements_alone {statements : List Place} (h : ∀ p ∈ statements, p.InProgram) :
    (ofStatements statements).alone = ofStatements (statements.map Place.alone) := by
  have hexported : ((defaultExport statements).value.bind Place.wrappedFunction?).map Place.alone =
      ((defaultExport statements).value.map Place.alone).bind Place.wrappedFunction? := by
    cases hvalue : (defaultExport statements).value with
    | none => rfl
    | some value =>
      rcases contains_of_defaultExport hvalue with ⟨statement, hstatement, hcontains⟩
      have hin : value.InProgram := (h statement hstatement).of_contains hcontains
      exact (Place.wrappedFunction?_alone hin).symm
  have hdefinitions : ∀ name, (statements.flatMap (definitions name)).map Place.alone =
      (statements.map Place.alone).flatMap (definitions name) := by
    intro name
    rw [List.map_flatMap, List.flatMap_map]
    exact List.flatMap_congr fun p hp => (definitions_alone name (h p hp)).symm
  rw [ofStatements, ofStatements, defaultExport_alone h, alone]
  cases (defaultExport statements).name with
  | none => simp only [← hexported, Option.toList_map]; rfl
  | some name =>
    simp only [← hexported, Option.toList_map, ← hdefinitions, List.isEmpty_map]
    rw [apply_ite (List.map Place.alone)]
    rfl

theorem contains_of_mem_roots {statements : List Place} {fn : Place}
    (h : fn ∈ (ofStatements statements).roots) : ∃ statement ∈ statements, statement.Contains fn := by
  have hexported : fn ∈ ((defaultExport statements).value.bind Place.wrappedFunction?).toList →
      ∃ statement ∈ statements, statement.Contains fn := by
    intro hfn
    rcases Option.bind_eq_some_iff.mp (Option.mem_toList.mp hfn) with ⟨value, hvalue, hwrapped⟩
    rcases contains_of_defaultExport hvalue with ⟨statement, hstatement, hcontains⟩
    exact ⟨statement, hstatement, hcontains.trans (Place.contains_of_wrappedFunction? hwrapped)⟩
  rw [ofStatements] at h
  cases hname : (defaultExport statements).name with
  | none =>
    rw [hname] at h
    exact hexported h
  | some name =>
    rw [hname] at h
    dsimp only at h
    split at h
    · exact hexported h
    · rcases List.mem_flatMap.mp h with ⟨statement, hstatement, hfn⟩
      exact ⟨statement, hstatement, contains_of_mem_definitions hfn⟩

/-- The roots of a location in a file are the twins of the roots in their statements alone. -/
theorem roots_alone {tree : Tree} (program : tree.kind = .program) :
    List.Forall₂ (Twins fun _ => false) (ofRoot ⟨tree, []⟩).roots (ofRoot ⟨tree, []⟩).alone.roots := by
  rw [alone, List.forall₂_map_right_iff, List.forall₂_same, ofRoot_eq_ofStatements program]
  intro fn hfn
  rcases contains_of_mem_roots hfn with ⟨statement, hstatement, hcontains⟩
  rcases Place.mem_children_iff.mp (Place.mem_children_of_mem_namedChildren hstatement) with
    ⟨j, -, habove⟩
  exact (Place.twins_alone program habove).alone_of_contains
    (Place.inProgram_of_mem_namedChildren program hstatement) hcontains

end Location

namespace Analysis

/-- What is said of a located component, and what comes of it, is said of its statements alone. -/
theorem report_eq_alone {path : String} {tree : Tree} (program : tree.kind = .program)
    (sound : tree.hasFault = false) (located : (Location.ofRoot ⟨tree, []⟩).roots ≠ []) :
    Report.ofTree path tree =
      { log := [announce path (Location.ofRoot ⟨tree, []⟩).alone]
        outcome := (component (Location.ofRoot ⟨tree, []⟩).alone
          (Location.ofRoot ⟨tree, []⟩).alone.roots).mapError .literal } := by
  have hroots := Location.roots_alone program
  have hlog : announce path (Location.ofRoot ⟨tree, []⟩) =
      announce path (Location.ofRoot ⟨tree, []⟩).alone := announce_eq path rfl hroots
  have hcomponent : component (Location.ofRoot ⟨tree, []⟩) (Location.ofRoot ⟨tree, []⟩).roots =
      component (Location.ofRoot ⟨tree, []⟩).alone (Location.ofRoot ⟨tree, []⟩).alone.roots :=
    component_eq (fun _ => (absurd · Bool.false_ne_true)) rfl hroots hroots
  have hstarts : (Location.ofRoot ⟨tree, []⟩).starts ⟨tree, []⟩ =
      (Location.ofRoot ⟨tree, []⟩).roots := by
    rw [Location.starts, if_neg (by simpa using located)]
  rw [Report.ofTree_of_sound path sound, hstarts, hlog, hcomponent]

/-- The name that the default export of a file gives. -/
def exportedName? (tree : Tree) : Option String :=
  (Location.defaultExport (Place.namedChildren ⟨tree, []⟩)).name

/-- The statements `cs` of a file from an index on, in their places. -/
def statementsFrom (tree : Tree) (i : Nat) (cs : List Tree) : List Place :=
  (Place.childrenFrom tree [] i cs).filter (·.node.named)

/-- The statements of a file, each on its own. -/
def statementsAlone (cs : List Tree) : List Place :=
  ((cs.map Tree.unplaced).filter (·.named)).map fun c => ⟨c, []⟩

theorem childrenFrom_append (parent : Tree) (above : List Frame) (i : Nat) (a b : List Tree) :
    Place.childrenFrom parent above i (a ++ b) =
      Place.childrenFrom parent above i a ++ Place.childrenFrom parent above (i + a.length) b := by
  induction a generalizing i with
  | nil => rfl
  | cons c cs ih =>
    rw [List.cons_append, Place.childrenFrom, Place.childrenFrom, ih, List.cons_append,
      List.length_cons, Nat.add_assoc, Nat.add_comm 1]

theorem statementsFrom_alone (tree : Tree) (i : Nat) (cs : List Tree) :
    (statementsFrom tree i cs).map Place.alone = statementsAlone cs := by
  induction cs generalizing i with
  | nil => rfl
  | cons c cs ih =>
    rw [statementsFrom, statementsAlone, List.map_cons, Place.childrenFrom, List.filter_cons,
      List.filter_cons, Tree.named_unplaced]
    split
    · rw [List.map_cons, List.map_cons, ← statementsFrom, ih]
      rfl
    · exact ih (i + 1)

theorem statementsAlone_append (a b : List Tree) :
    statementsAlone (a ++ b) = statementsAlone a ++ statementsAlone b := by
  rw [statementsAlone, List.map_append, List.filter_append, List.map_append]
  rfl

theorem namedChildren_split {tree : Tree} (program : tree.kind = .program)
    {before middle after : List Tree} (h : tree.children = before ++ middle ++ after) :
    ∃ b m a, Place.namedChildren ⟨tree, []⟩ = b ++ m ++ a ∧ (∀ p ∈ b ++ a, p.InProgram) ∧
      (b ++ a).map Place.alone = statementsAlone (before ++ after) ∧
      ∀ p ∈ m, p.node ∈ middle := by
  have hsplit : Place.namedChildren ⟨tree, []⟩ = statementsFrom tree 0 before ++
      statementsFrom tree (0 + before.length) middle ++
        statementsFrom tree (0 + (before ++ middle).length) after := by
    rw [Place.namedChildren, Place.children, h, childrenFrom_append, childrenFrom_append,
      List.filter_append, List.filter_append]
    rfl
  refine ⟨_, _, _, hsplit, fun p hp => ?_, ?_, fun p hp => ?_⟩
  · refine Place.inProgram_of_mem_namedChildren program ?_
    rw [hsplit]
    rcases List.mem_append.mp hp with hp | hp
    · exact List.mem_append_left _ (List.mem_append_left _ hp)
    · exact List.mem_append_right _ hp
  · rw [List.map_append, statementsFrom_alone, statementsFrom_alone, statementsAlone_append]
  · rw [← Place.node_childrenFrom tree [] (0 + before.length) middle]
    exact List.mem_map_of_mem (List.mem_of_mem_filter hp)

theorem exportedName?_eq {tree : Tree} (program : tree.kind = .program)
    {before middle after : List Tree} (h : tree.children = before ++ middle ++ after)
    (foreign : ∀ t ∈ middle, t.kind ≠ .exportStatement) :
    exportedName? tree = (Location.defaultExport (statementsAlone (before ++ after))).name := by
  rcases namedChildren_split program h with ⟨b, m, a, hchildren, hin, halone, hmiddle⟩
  rw [exportedName?, hchildren, Location.defaultExport_append fun p hp => foreign _ (hmiddle p hp),
    ← halone, Location.defaultExport_alone hin]

/-- The location in a file does not show the statements that are foreign to it. -/
theorem ofRoot_alone {tree : Tree} (program : tree.kind = .program)
    {before middle after : List Tree} (h : tree.children = before ++ middle ++ after)
    (foreign : ∀ t ∈ middle, Location.Foreign (exportedName? tree) t) :
    (Location.ofRoot ⟨tree, []⟩).alone =
      Location.ofStatements (statementsAlone (before ++ after)) := by
  rcases namedChildren_split program h with ⟨b, m, a, hchildren, hin, halone, hmiddle⟩
  have hname : exportedName? tree = (Location.defaultExport (b ++ a)).name := by
    rw [exportedName?, hchildren,
      Location.defaultExport_append fun p hp => (foreign _ (hmiddle p hp)).1]
  rw [Location.ofRoot_eq_ofStatements program, hchildren,
    Location.ofStatements_append fun p hp => hname ▸ foreign _ (hmiddle p hp),
    Location.ofStatements_alone hin, halone]

/-- The file `other` is the file `tree` with the statements `others` in the place of the statement
`old`; what is kept may start elsewhere. -/
def Replaces (tree other old : Tree) (others : List Tree) : Prop :=
  ∃ before after before' after',
    tree.children = before ++ old :: after ∧ other.children = before' ++ others ++ after' ∧
    before'.map Tree.unplaced = before.map Tree.unplaced ∧
    after'.map Tree.unplaced = after.map Tree.unplaced

/-- Replacing a statement that is foreign to a located component by others that are changes nothing
in what the analysis says and what comes of it. The trees are those of whole files, whose kind is
`program`. -/
theorem report_of_replaced {path : String} {tree other old : Tree} {others : List Tree}
    (program : tree.kind = .program) (program' : other.kind = .program)
    (sound : tree.hasFault = false) (sound' : other.hasFault = false)
    (located : (Location.ofRoot ⟨tree, []⟩).roots ≠ [])
    (replaced : Replaces tree other old others)
    (foreign : ∀ t ∈ old :: others, Location.Foreign (exportedName? tree) t) :
    Report.ofTree path other = Report.ofTree path tree := by
  rcases replaced with ⟨before, after, before', after', htree, hother, hbefore, hafter⟩
  rcases List.forall_mem_cons.mp foreign with ⟨hold, hothers⟩
  have htree' : tree.children = before ++ [old] ++ after := by
    rw [htree, List.append_assoc, List.singleton_append]
  have hkept : statementsAlone (before' ++ after') = statementsAlone (before ++ after) := by
    rw [statementsAlone, List.map_append, hbefore, hafter, ← List.map_append]
    rfl
  have hname : exportedName? other = exportedName? tree := by
    rw [exportedName?_eq program' hother fun t ht => (hothers t ht).1, hkept,
      exportedName?_eq program htree' fun t ht => List.mem_singleton.mp ht ▸ hold.1]
  have hlocation : (Location.ofRoot ⟨other, []⟩).alone = (Location.ofRoot ⟨tree, []⟩).alone := by
    rw [ofRoot_alone program' hother fun t ht => hname ▸ hothers t ht, hkept,
      ofRoot_alone program htree' fun t ht => List.mem_singleton.mp ht ▸ hold]
  -- The other file is located as well, or else its whole tree would be the scope.
  have located' : (Location.ofRoot ⟨other, []⟩).roots ≠ [] := by
    intro hnil
    have hroots := congrArg Location.roots hlocation
    rw [Location.alone, hnil] at hroots
    exact located (List.map_eq_nil_iff.mp hroots.symm)
  rw [report_eq_alone program sound located, report_eq_alone program' sound' located', hlocation]

/-- Whether statements are replaced is seen from those before them and those after them. -/
theorem replaces_of_split {tree other old : Tree} {i n : Nat} (hold : tree.children[i]? = some old)
    (hbefore : (other.children.take i).map Tree.unplaced = (tree.children.take i).map Tree.unplaced)
    (hafter : (other.children.drop (i + n)).map Tree.unplaced =
      (tree.children.drop (i + 1)).map Tree.unplaced) :
    Replaces tree other old ((other.children.drop i).take n) := by
  refine ⟨_, _, _, _, ?_, ?_, hbefore, hafter⟩
  · obtain ⟨hi, rfl⟩ := List.getElem?_eq_some_iff.mp hold
    rw [List.getElem_cons_drop, List.take_append_drop]
  · rw [List.append_assoc, ← List.drop_drop, List.take_append_drop, List.take_append_drop]

/-- A file with a component that has a state, an effect and an element, and with another one. -/
def pairSource : Tree := Grammar.treeOf .markup <| .ofGlyphs <| Glyph.ofText <|
  "function B()\x7bconst [n,m]=useState();return <b/>\x7d" ++
  "function A()\x7bconst [v,s]=useState();useEffect(()=>\x7bfetch(\"/x\")\x7d);return <p/>\x7dexport default A"

/-- The file with two other statements in the place of the other component. -/
def changedSource : Tree := Grammar.treeOf .markup <| .ofGlyphs <| Glyph.ofText <|
  "const k=1;var C=()=>\x7buseEffect(k);return <i/>\x7d;" ++
  "function A()\x7bconst [v,s]=useState();useEffect(()=>\x7bfetch(\"/x\")\x7d);return <p/>\x7dexport default A"

theorem report_of_pairSource :
    (∃ old ∈ pairSource.children[0]?,
      Replaces pairSource changedSource old (changedSource.children.take 2)) ∧
    (Report.ofTree "A.tsx" pairSource).outcome.toOption = some
      { name := "A"
        elements := [{ tag := "p" }]
        states := [{ valueName := "v", setterName := "s" }]
        hasEffects := true
        usesFetch := true
        apis := [{ kind := .fetch, url := "/x" }] } ∧
    Report.ofTree "A.tsx" changedSource = Report.ofTree "A.tsx" pairSource := by
  -- All that is evaluated stands in one fact, so that each file is parsed once.
  have facts : (pairSource.hasFault = false ∧ changedSource.hasFault = false) ∧
      (Location.ofRoot ⟨pairSource, []⟩).roots ≠ [] ∧
      (∃ old ∈ pairSource.children[0]?, ∀ t ∈ old :: changedSource.children.take 2,
        Location.Foreign (exportedName? pairSource) t) ∧
      (changedSource.children.drop 2).map Tree.unplaced =
        (pairSource.children.drop 1).map Tree.unplaced ∧
      (Report.ofTree "A.tsx" pairSource).outcome.toOption = some
        { name := "A"
          elements := [{ tag := "p" }]
          states := [{ valueName := "v", setterName := "s" }]
          hasEffects := true
          usesFetch := true
          apis := [{ kind := .fetch, url := "/x" }] } := by
    decide +kernel
  obtain ⟨⟨sound, sound'⟩, located, ⟨old, hold, foreign⟩, kept, outcome⟩ := facts
  have replaced := replaces_of_split (i := 0) (n := 2) hold (by rw [List.take_zero, List.take_zero]) kept
  rw [List.drop_zero] at replaced
  exact ⟨⟨old, hold, replaced⟩, outcome, report_of_replaced rfl rfl sound sound' located replaced foreign⟩

end Analysis

end SuiteDraft
