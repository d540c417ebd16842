import Mathlib.Data.List.Pairwise
import SuiteDraft.Grammar.Program
import SuiteDraft.Proofs.Analysis.Definitions

/-!
# The outermost definitions

The functions that are found under a name are those of the definition sites with no definition site
above them. They are found in the order of the document, each once, and they lie apart: no node of
the tree is within two of them.
-/

namespace SuiteDraft

namespace Place

/-! ## Above a node -/

theorem exists_frame_of_mem_ancestors {p a : Place} (h : a ∈ p.ancestors) :
    ∃ f : Frame, f :: a.above <:+ p.above := by
  unfold ancestors at h
  generalize p.above = frames at h
  induction frames with
  | nil => cases h
  | cons f rest ih =>
    rw [ancestors.go, List.mem_cons] at h
    rcases h with rfl | h
    · exact ⟨f, List.suffix_refl _⟩
    · have ⟨g, suffix⟩ := ih h
      exact ⟨g, suffix.trans (List.suffix_cons f rest)⟩

theorem not_mem_ancestors_self (p : Place) : p ∉ p.ancestors := by
  intro h
  have ⟨f, suffix⟩ := exists_frame_of_mem_ancestors h
  have length_le := suffix.length_le
  rw [List.length_cons] at length_le
  omega

theorem path_prefix_of_mem_ancestors {p a : Place} (h : a ∈ p.ancestors) : a.path <+: p.path := by
  have ⟨f, suffix⟩ := exists_frame_of_mem_ancestors h
  have above : a.above <:+ p.above := (List.suffix_cons f a.above).trans suffix
  exact List.reverse_prefix.mpr (above.map Frame.index)

theorem ancestors_suffix_of_contains {p q : Place} (h : p.Contains q) :
    p.ancestors <:+ q.ancestors := by
  induction h with
  | refl => exact List.suffix_refl _
  | @tail r q _ hq ih =>
    rw [ancestors_of_mem_children hq]
    exact ih.trans (List.suffix_cons r r.ancestors)

/-- A node is above all that its children contain. -/
theorem mem_ancestors_of_contains {p c q : Place} (hc : c ∈ p.children) (h : c.Contains q) :
    p ∈ q.ancestors := by
  have suffix := ancestors_suffix_of_contains h
  rw [ancestors_of_mem_children hc] at suffix
  exact suffix.mem List.mem_cons_self

/-- Nothing is below two nodes of which one turns off before the other. -/
theorem TurnsOffBefore.apart {p q x : Place} (h : p.TurnsOffBefore q) (hp : p.path <+: x.path) :
    ¬ q.path <+: x.path := fun hq => (Precedes.of_turnsOffBefore (h.extend hp hq)).ne rfl

end Place

namespace Location

variable {name : String}

/-- What is found from a node on are the functions of the sites at or below it with no definition
site above them, as far up as that node. -/
theorem mem_definitions_iff {p fn : Place} : fn ∈ definitions name p ↔
    ∃ site, p.Reaches site ∧ DefinedAt name site fn ∧
      ∀ a ∈ site.ancestors, a ∉ p.ancestors → ¬ a.node.Defines name := by
  induction p using Place.induction with
  | step p ih =>
    cases here : definition? name p with
    | some own =>
      -- The node is a site itself, so no site below it counts.
      have isSite : p.node.Defines name := definition?_isSome_iff.mp (by rw [here]; rfl)
      rw [definitions_eq_singleton here, List.mem_singleton]
      constructor
      · rintro rfl
        exact ⟨p, .refl, definition?_eq_some_iff.mp here, fun a mem out => absurd mem out⟩
      · rintro ⟨site, reaches, defined, outermost⟩
        rcases reaches.cases_head with rfl | ⟨c, hc, reaches⟩
        · rw [definition?_eq_some_iff.mpr defined] at here
          exact Option.some.inj here
        · have above : p ∈ site.ancestors := Place.mem_ancestors_of_contains
            (Place.mem_children_of_mem_namedChildren hc) (Place.Reaches.contains reaches)
          exact absurd isSite (outermost p above p.not_mem_ancestors_self)
    | none =>
      have notSite : ¬ p.node.Defines name := by
        rw [← definition?_isSome_iff, here]
        exact Bool.false_ne_true
      have ancestors_child {c : Place} (hc : c ∈ p.namedChildren) :
          c.ancestors = p :: p.ancestors :=
        Place.ancestors_of_mem_children (Place.mem_children_of_mem_namedChildren hc)
      rw [definitions_eq_flatMap here, List.mem_flatMap]
      constructor
      · rintro ⟨c, hc, mem⟩
        have ⟨site, reaches, defined, outermost⟩ := (ih c hc).mp mem
        refine ⟨site, .head hc reaches, defined, fun a above out => ?_⟩
        by_cases a_eq : a = p
        · exact a_eq ▸ notSite
        · refine outermost a above ?_
          rw [ancestors_child hc, List.mem_cons]
          exact fun h => h.elim a_eq out
      · rintro ⟨site, reaches, defined, outermost⟩
        rcases reaches.cases_head with rfl | ⟨c, hc, reaches⟩
        · exact absurd (exists_definedAt_iff.mp ⟨fn, defined⟩) notSite
        · refine ⟨c, hc, (ih c hc).mpr ⟨site, reaches, defined, fun a above out => ?_⟩⟩
          refine outermost a above fun h => out ?_
          rw [ancestors_child hc]
          exact List.mem_cons_of_mem p h

/-- No node is within two of the functions that are found. -/
theorem definitions_disjoint {p fn fn' x : Place} (mem : fn ∈ definitions name p)
    (mem' : fn' ∈ definitions name p) (within : fn.path <+: x.path) (within' : fn'.path <+: x.path) :
    fn = fn' := by
  by_contra ne
  have apart : (definitions name p).Pairwise fun a b => ¬ (a.path <+: x.path ∧ b.path <+: x.path) :=
    (definitions_pairwise name p).imp fun turns both => turns.apart both.1 both.2
  have symmetric : Std.Symm fun a b : Place => ¬ (a.path <+: x.path ∧ b.path <+: x.path) :=
    ⟨fun a b notBoth both => notBoth both.symm⟩
  exact apart.forall mem mem' ne ⟨within, within'⟩

/-- The functions that are found under a name in a tree are those of the definition sites, reached
through named children, with no definition site above them. They are found in the order of the
document; none of them is another one or lies above it, and no node is within two of them. -/
theorem definitions_outermost (name : String) (tree : Tree) :
    (definitions name ⟨tree, []⟩).Pairwise Place.Precedes ∧
      (∀ fn, fn ∈ definitions name ⟨tree, []⟩ ↔
        ∃ site : Place, Place.Reaches ⟨tree, []⟩ site ∧ DefinedAt name site fn ∧
          ∀ above ∈ site.ancestors, ¬ above.node.Defines name) ∧
      ((definitions name ⟨tree, []⟩).Pairwise fun fn fn' =>
        fn ≠ fn' ∧ fn ∉ fn'.ancestors ∧ fn' ∉ fn.ancestors) ∧
      ∀ p : Place, ∀ fn ∈ definitions name ⟨tree, []⟩, ∀ fn' ∈ definitions name ⟨tree, []⟩,
        fn.Contains p → fn'.Contains p → fn = fn' := by
  have turns := definitions_pairwise name ⟨tree, []⟩
  refine ⟨turns.imp .of_turnsOffBefore, fun fn => ?_, turns.imp fun {fn fn'} turns => ?_, ?_⟩
  · have all (P : Place → Prop) (ancestors : List Place) :
        (∀ a ∈ ancestors, a ∉ Place.ancestors ⟨tree, []⟩ → P a) ↔ ∀ a ∈ ancestors, P a :=
      forall₂_congr fun a _ => imp_iff_right List.not_mem_nil
    rw [mem_definitions_iff]
    simp only [all]
  · refine ⟨(Place.Precedes.of_turnsOffBefore turns).ne, fun above => ?_, fun above => ?_⟩
    · exact turns.apart (Place.path_prefix_of_mem_ancestors above) (List.prefix_refl _)
    · exact turns.apart (List.prefix_refl _) (Place.path_prefix_of_mem_ancestors above)
  · intro p fn mem fn' mem' contains contains'
    exact definitions_disjoint mem mem' (Place.path_prefix_of_contains contains)
      (Place.path_prefix_of_contains contains')

-- The function of the same name within the first one does not count.
example : (definitions "A" ⟨Grammar.treeOf .markup <| .ofGlyphs <| Glyph.ofText
      "function A()\x7bfunction A()\x7b\x7d\x7dvar A=memo(()=>0)", []⟩).map (·.kind) =
    [.functionDeclaration, .arrowFunction] := by
  decide +kernel

end Location

end SuiteDraft
