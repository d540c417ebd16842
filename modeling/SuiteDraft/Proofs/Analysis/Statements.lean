import SuiteDraft.Proofs.Analysis.Twins

/-!
# Statements on their own

A node below the root of a program is treated as if its statement were all there is: the way down
from it makes no use of the root, and upwards the root gives no name.
-/

namespace SuiteDraft

/-- The frame without positions. -/
def Frame.unplaced (f : Frame) : Frame := ⟨f.parent.unplaced, f.index⟩

namespace Place

/-- The place without positions and without the root of its file. -/
def alone (p : Place) : Place := ⟨p.node.unplaced, p.above.dropLast.map Frame.unplaced⟩

/-- A place below the root of a program. -/
def InProgram (p : Place) : Prop := ∃ f, p.above.getLast? = some f ∧ f.parent.kind = .program

@[simp] theorem node_alone (p : Place) : p.alone.node = p.node.unplaced := rfl

@[simp] theorem kind_alone (p : Place) : p.alone.kind = p.kind := Tree.kind_unplaced p.node

theorem InProgram.ne_nil {p : Place} (h : p.InProgram) : p.above ≠ [] := by
  rcases h with ⟨f, hf, -⟩
  intro hnil
  rw [hnil] at hf
  cases hf

theorem inProgram_of_mem_namedChildren {tree : Tree} (program : tree.kind = .program) {p : Place}
    (h : p ∈ namedChildren ⟨tree, []⟩) : p.InProgram := by
  rcases mem_children_iff.mp (mem_children_of_mem_namedChildren h) with ⟨j, -, habove⟩
  exact ⟨⟨tree, j⟩, by rw [habove]; rfl, program⟩

theorem getLast?_above_of_mem_children {p q : Place} (hp : p.above ≠ []) (h : q ∈ p.children) :
    q.above.getLast? = p.above.getLast? := by
  rcases mem_children_iff.mp h with ⟨j, -, habove⟩
  rcases List.exists_cons_of_ne_nil hp with ⟨f, fs, hfs⟩
  rw [habove, hfs, List.getLast?_cons_cons]

theorem getLast?_above_of_contains {p q : Place} (hp : p.above ≠ []) (h : p.Contains q) :
    q.above.getLast? = p.above.getLast? ∧ q.above ≠ [] := by
  induction h with
  | refl => exact ⟨rfl, hp⟩
  | tail _ hc ih =>
    rcases mem_children_iff.mp hc with ⟨j, -, habove⟩
    exact ⟨(getLast?_above_of_mem_children ih.2 hc).trans ih.1, by rw [habove]; nofun⟩

theorem InProgram.of_contains {p q : Place} (hp : p.InProgram) (h : p.Contains q) :
    q.InProgram := by
  rcases hp with ⟨f, hf, hkind⟩
  exact ⟨f, (getLast?_above_of_contains (InProgram.ne_nil ⟨f, hf, hkind⟩) h).1.trans hf, hkind⟩

theorem InProgram.of_mem_children {p q : Place} (hp : p.InProgram) (h : q ∈ p.children) :
    q.InProgram := hp.of_contains (.of_mem_children h)

/-! ## Downwards -/

theorem childrenFrom_alone {parent : Tree} {above : List Frame} (h : above ≠ []) (i : Nat)
    (cs : List Tree) :
    childrenFrom parent.unplaced (above.dropLast.map Frame.unplaced) i (cs.map Tree.unplaced) =
      (childrenFrom parent above i cs).map alone := by
  induction cs generalizing i with
  | nil => rfl
  | cons c cs ih =>
    rw [List.map_cons, childrenFrom, childrenFrom, List.map_cons, ih, alone,
      List.dropLast_cons_of_ne_nil h, List.map_cons, Frame.unplaced]

theorem children_alone {p : Place} (h : p.InProgram) : p.alone.children = p.children.map alone := by
  rw [children, node_alone, Tree.children_unplaced]
  exact childrenFrom_alone h.ne_nil 0 p.node.children

theorem child?_alone {p : Place} (h : p.InProgram) (f : Field) :
    p.alone.child? f = (p.child? f).map alone := by
  rw [child?, children_alone h, List.find?_map]
  simp only [Function.comp_def, node_alone, Tree.field_unplaced]
  rfl

theorem namedChildren_alone {p : Place} (h : p.InProgram) :
    p.alone.namedChildren = p.namedChildren.map alone := by
  rw [namedChildren, children_alone h, List.filter_map]
  simp only [Function.comp_def, node_alone, Tree.named_unplaced]
  rfl

theorem meaningful_alone {p : Place} (h : p.InProgram) :
    p.alone.meaningful = p.meaningful.map alone := by
  rw [meaningful, children_alone h, List.filter_map]
  simp only [Function.comp_def, node_alone, Tree.isMeaningful, Tree.named_unplaced,
    Tree.kind_unplaced]
  rfl

theorem callArguments_alone {p : Place} (h : p.InProgram) :
    p.alone.callArguments = p.callArguments.map alone := by
  unfold callArguments
  rw [child?_alone h]
  cases hargs : p.child? .arguments with
  | none => rfl
  | some args =>
    have hin : args.InProgram := h.of_mem_children (mem_children_of_child? hargs)
    simp only [Option.map_some, kind_alone, meaningful_alone hin]
    split <;> rfl

theorem wrappedFunction?_alone {p : Place} (h : p.InProgram) :
    p.alone.wrappedFunction? = p.wrappedFunction?.map alone := by
  unfold wrappedFunction?
  rw [kind_alone, callArguments_alone h]
  cases p.callArguments with
  | nil =>
    dsimp only [List.map_nil]
    split
    · rfl
    · split <;> rfl
  | cons first rest =>
    simp only [List.map_cons, kind_alone]
    split
    · rfl
    · split
      · split <;> rfl
      · rfl

end Place

namespace Location

theorem definition?_alone (name : String) {p : Place} (h : p.InProgram) :
    definition? name p.alone = (definition? name p).map Place.alone := by
  unfold definition?
  rw [Place.kind_alone, Place.node_alone, Tree.childText_unplaced, Tree.child?_unplaced,
    Place.child?_alone h]
  split
  · split <;> rfl
  · split
    · cases p.node.child? .name with
      | none => rfl
      | some binding =>
        simp only [Option.map_some, Tree.kind_unplaced, Tree.text_unplaced]
        split
        · cases hvalue : p.child? .value with
          | none => rfl
          | some value =>
            have hin : value.InProgram := h.of_mem_children (Place.mem_children_of_child? hvalue)
            exact Place.wrappedFunction?_alone hin
        · rfl
    · rfl

theorem definitions_alone (name : String) {p : Place} (h : p.InProgram) :
    definitions name p.alone = (definitions name p).map Place.alone := by
  induction p using Place.induction with
  | step p ih =>
    have hdefinition := definition?_alone name h
    cases hp : definition? name p with
    | some fn =>
      rw [hp] at hdefinition
      rw [definitions_eq_singleton hp, definitions_eq_singleton hdefinition]
      rfl
    | none =>
      rw [hp] at hdefinition
      rw [definitions_eq_flatMap hp, definitions_eq_flatMap hdefinition,
        Place.namedChildren_alone h, List.flatMap_map, List.map_flatMap]
      refine List.flatMap_congr fun c hc => ?_
      exact ih c hc (h.of_mem_children (Place.mem_children_of_mem_namedChildren hc))

end Location

/-! ## Upwards -/

namespace Place

/-- A statement of a program is the twin of the statement alone. -/
theorem twins_alone {tree : Tree} (program : tree.kind = .program) {p : Place} {j : Nat}
    (habove : p.above = [⟨tree, j⟩]) : Twins (fun _ => false) p p.alone := by
  have above : p.Outermost := by
    intro f hf
    rw [habove] at hf
    exact .inl (List.mem_singleton.mp hf ▸ program)
  have above' : p.alone.Outermost := by
    intro f hf
    rw [alone, habove] at hf
    cases hf
  exact .outermost (Tree.alike_unplaced p.node) above above'

/-- So is what lies in the statement. -/
theorem Twins.alone_of_contains {p q : Place} (h : Twins (fun _ => false) p p.alone)
    (hin : p.InProgram) (hq : p.Contains q) : Twins (fun _ => false) q q.alone := by
  induction hq with
  | refl => exact h
  | @tail q c hq hc ih =>
    have hshown : ∀ r : Place, r.shown (fun _ => false) = r.children :=
      fun r => List.filter_true r.children
    refine .child ih ?_
    rw [hshown, hshown, children_alone (hin.of_contains hq), ← List.map_prod_left_eq_zip]
    exact List.mem_map_of_mem hc

end Place

end SuiteDraft
