import SuiteDraft.Grammar.Program
import SuiteDraft.Proofs.Analysis.Facts

/-!
# The elements of a component

The elements of a component are the records of the tagged elements in its scope, in the order of
the document: none is lost, none stands twice and none comes from elsewhere.
-/

namespace SuiteDraft

namespace Markup

/-- A node is an element with a tag; an element without one is a fragment. -/
def IsTagged (t : Tree) : Prop :=
  (t.kind = .jsxElement ∨ t.kind = .jsxSelfClosingElement) ∧ (nameNode? t).isSome = true

instance (t : Tree) : Decidable (IsTagged t) := inferInstanceAs (Decidable (_ ∧ _))

theorem isElement_iff {t : Tree} :
    isElement t = true ↔ t.kind = .jsxElement ∨ t.kind = .jsxSelfClosingElement := by
  rw [isElement, Bool.or_eq_true, beq_iff_eq, beq_iff_eq]

theorem element?_of_not_isTagged {t : Tree} (h : ¬ IsTagged t) : element? t = .ok none := by
  unfold element?
  split
  · rename_i helement
    cases hname : nameNode? t with
    | none => rfl
    | some name =>
      exact absurd ⟨isElement_iff.mp helement, by rw [hname]; rfl⟩ h
  · rfl

theorem element?_of_isTagged {t : Tree} {found : Option Element} (h : IsTagged t)
    (hfound : element? t = .ok found) : ∃ element, found = some element := by
  rcases Option.isSome_iff_exists.mp h.2 with ⟨name, hname⟩
  rw [element?, if_pos (isElement_iff.mpr h.1), hname] at hfound
  rcases bind_eq_ok_iff.mp hfound with ⟨element, -, hfound⟩
  cases hfound
  exact ⟨element, rfl⟩

theorem record_of_element? {t : Tree} {e : Element} (recorded : element? t = .ok (some e)) :
    ∃ name, nameNode? t = some name ∧ record t name = .ok e := by
  unfold element? at recorded
  split at recorded
  · split at recorded
    · have ⟨_, record_eq, some_eq⟩ := bind_eq_ok_iff.mp recorded
      cases some_eq
      exact ⟨_, ‹_›, record_eq⟩
    · cases recorded
  · cases recorded

/-- The role in a record goes by the tag and the properties there. -/
theorem roleHint_of_element? {t : Tree} {e : Element} (recorded : element? t = .ok (some e)) :
    e.roleHint = Role.infer e.tag e.properties := by
  have ⟨_, _, record_eq⟩ := record_of_element? recorded
  have ⟨_, _, fields_eq⟩ := bind_eq_ok_iff.mp record_eq
  cases fields_eq
  rfl

/-- Looking at the tagged elements alone finds the same records. -/
theorem mapM_element?_filter {places : List Place} {found : List (Option Element)}
    (h : places.mapM (fun p => element? p.node) = .ok found) :
    (places.filter fun p => IsTagged p.node).mapM (fun p => element? p.node) =
      .ok ((found.flatMap Option.toList).map some) := by
  induction places generalizing found with
  | nil =>
    cases h
    rfl
  | cons p places ih =>
    rw [List.mapM_cons] at h
    rcases bind_eq_ok_iff.mp h with ⟨first, hfirst, h⟩
    rcases bind_eq_ok_iff.mp h with ⟨rest, hrest, h⟩
    cases h
    by_cases hp : IsTagged p.node
    · rcases element?_of_isTagged hp hfirst with ⟨element, rfl⟩
      rw [List.filter_cons_of_pos (by simpa using hp), List.mapM_cons, hfirst, ih hrest]
      rfl
    · rw [element?_of_not_isTagged hp] at hfirst
      cases hfirst
      rw [List.filter_cons_of_neg (by simpa using hp), ih hrest]
      rfl

end Markup

namespace Analysis

theorem roleHint_of_mem_elements {path : String} {tree : Tree} {c : Component} {e : Element}
    (analysed : (Report.ofTree path tree).outcome = .ok c) (mem : e ∈ c.elements) :
    e.roleHint = Role.infer e.tag e.properties := by
  have ⟨facts, props, collected, component_eq⟩ := report_collected analysed
  rw [component_eq] at mem
  have ⟨_, _, recorded⟩ := collected.exists_of_mem_elements mem
  exact Markup.roleHint_of_element? recorded

/-- A file without an anchored component, and no other, is warned of. -/
theorem exists_warning_iff {path : String} {tree : Tree} (sound : tree.hasFault = false) :
    (∃ r ∈ (Report.ofTree path tree).log, r.severity = .warning) ↔
      (Location.ofRoot ⟨tree, []⟩).roots = [] := by
  have hlog : (Report.ofTree path tree).log = [announce path (Location.ofRoot ⟨tree, []⟩)] := by
    rw [Report.ofTree_of_sound path sound]
  simp only [hlog, List.mem_singleton, exists_eq_left]
  unfold announce
  cases (Location.ofRoot ⟨tree, []⟩).roots with
  | nil => simp
  | cons fn fns => simp

/-- The elements of a component are the records of the tagged elements in its scope, in the order
of the document; a warning is logged exactly when the scope is the whole file for want of a root. -/
theorem elements_enumerate_scope (path : String) (tree : Tree) (sound : tree.hasFault = false) :
    (∀ c, (Report.ofTree path tree).outcome = .ok c →
      ∃! places : List Place, places.Pairwise Place.Precedes ∧
        (∀ p, p ∈ places ↔ InScope tree p ∧ Markup.IsTagged p.node) ∧
        places.mapM (fun p => Markup.element? p.node) = .ok (c.elements.map some)) ∧
    ((∃ r ∈ (Report.ofTree path tree).log, r.severity = .warning) ↔
      (Location.ofRoot ⟨tree, []⟩).roots = []) := by
  refine ⟨fun c hc => ?_, exists_warning_iff sound⟩
  rcases report_collected hc with ⟨facts, props, collected, rfl⟩
  -- The records found are those of the tagged nodes alone; a fragment leaves no trace.
  rcases collected.elements with ⟨found, hfound, helements⟩
  let places := (scopeNodes tree).filter fun p => Markup.IsTagged p.node
  have hpairwise : places.Pairwise Place.Precedes := (scopeNodes_pairwise tree).filter _
  have hmem : ∀ p, p ∈ places ↔ InScope tree p ∧ Markup.IsTagged p.node := by
    intro p
    rw [← mem_scopeNodes_iff, List.mem_filter, decide_eq_true_iff]
  refine ⟨places, ⟨hpairwise, hmem, ?_⟩, ?_⟩
  · rw [Markup.mapM_element?_filter hfound]
    change _ = Except.ok (facts.elements.map some)
    rw [helements, List.nil_append]
  · rintro others ⟨hothers, hothersMem, -⟩
    exact Place.eq_of_pairwise_precedes hothers hpairwise fun p =>
      (hothersMem p).trans (hmem p).symm

/-- A file with two functions under the name of its component, the first of which returns a
fragment. -/
def fragmentSource : Tree := Grammar.treeOf .markup <| .ofGlyphs <| Glyph.ofText
  "function A(){return <><b/></>}var A=()=><i/>;export default A"

theorem elements_of_fragmentSource :
    fragmentSource.hasFault = false ∧
    ∃ c, (Report.ofTree "A.tsx" fragmentSource).outcome = .ok c ∧
      c.elements.map (·.tag) = ["b", "i"] ∧
      ∃ places : List Place, places.Pairwise Place.Precedes ∧
        (∀ p, p ∈ places ↔ InScope fragmentSource p ∧ Markup.IsTagged p.node) ∧
        places.mapM (fun p => Markup.element? p.node) = .ok (c.elements.map some) := by
  have sound : fragmentSource.hasFault = false := by decide +kernel
  have htags : (Report.ofTree "A.tsx" fragmentSource).outcome.toOption.map
      (fun c => c.elements.map (·.tag)) = some ["b", "i"] := by decide +kernel
  obtain ⟨c, hc, hrecorded⟩ := exists_of_toOption_map htags
  refine ⟨sound, c, hc, hrecorded, ?_⟩
  exact ((elements_enumerate_scope "A.tsx" fragmentSource sound).1 c hc).exists

end Analysis

end SuiteDraft
