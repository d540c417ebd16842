import SuiteDraft.Proofs.Analysis.Facts
import SuiteDraft.Proofs.Analysis.Twins

/-!
# Walks in lockstep

A visit to twins changes facts that agree into facts that agree. Walks from twins therefore collect
the same facts, apart from the places of the calls, which are twins again and give the same map of
handlers. Two locations with one name and twins for roots make one component.
-/

namespace SuiteDraft

open Place (Twins)

variable {hidden : Kind → Bool} {p p' : Place}

namespace Effect

theorem callbackBody?_rel (h : Twins hidden p p') :
    Option.Rel (Twins hidden) (callbackBody? p) (callbackBody? p') := by
  unfold callbackBody?
  match p.callArguments, p'.callArguments, h.callArguments with
  | [], [], .nil => exact .none
  | first :: _, first' :: _, .cons hfirst _ =>
    have hkind : first.kind = first'.kind := hfirst.alike.kind
    dsimp only
    rw [← hkind]
    split
    · exact hfirst.child? .body
    · exact .none

theorem callbackNodes_filter (h : Twins hidden p p') :
    List.Forall₂ (Twins hidden) ((callbackNodes p).filter fun q => !hidden q.kind)
      ((callbackNodes p').filter fun q => !hidden q.kind) := by
  unfold callbackNodes
  rcases rel_cases (callbackBody?_rel h) with ⟨hb, hb'⟩ | ⟨body, body', hb, hb', hbody⟩
  · rw [hb, hb']
    exact .nil
  · rw [hb, hb']
    exact hbody.nodes

end Effect

section

/-! What is hidden is a comment, and a visit to a comment changes nothing. -/

variable (comments : ∀ kind, hidden kind = true → kind = .comment)

include comments

theorem comment_of_hidden {q : Place} (h : (!hidden q.kind) = false) : q.kind = .comment :=
  comments q.kind (by simpa using h)

theorem Network.visitEffect_eq (n : Network) (h : Twins hidden p p') :
    n.visitEffect p = n.visitEffect p' := by
  have hcomment : ∀ q : Place, (!hidden q.kind) = false → ∀ n : Network, n.visit q = .ok n := by
    intro q hq n
    have hkind : q.node.kind = .comment := comment_of_hidden comments hq
    rw [visit, Effect.networkCall?, hkind]
    rfl
  rw [visitEffect_eq_foldlM, visitEffect_eq_foldlM]
  refine (InStep.foldlM_filter hcomment hcomment (fun n n' q q' hn hq => ?_)
    (Effect.callbackNodes_filter h) rfl).eq
  rw [hn, visit, visit, Effect.networkCall?_eq hq.alike]
  exact .of_eq

namespace Facts

/-- Two collections of facts are the same but for the places of their calls, which are twins. -/
structure Agree (hidden : Kind → Bool) (facts facts' : Facts) : Prop where
  elements : facts.elements = facts'.elements
  states : facts.states = facts'.states
  hasEffects : facts.hasEffects = facts'.hasEffects
  effectDependencies : facts.effectDependencies = facts'.effectDependencies
  network : facts.network = facts'.network
  calls : List.Forall₂ (fun c c' => c.1 = c'.1 ∧ Twins hidden c.2 c'.2) facts.calls facts'.calls

variable {facts facts' : Facts}

theorem visitEffect_inStep (h : Agree hidden facts facts') (hp : Twins hidden p p') :
    InStep (Agree hidden) (facts.visitEffect p) (facts'.visitEffect p') := by
  rw [visitEffect, visitEffect, h.network, Network.visitEffect_eq comments _ hp]
  refine InStep.bind .of_eq fun network network' hnetwork => .ok ?_
  exact { h with
    hasEffects := rfl
    effectDependencies := by rw [h.effectDependencies, Effect.dependencies_eq hp.alike]
    network := hnetwork }

omit comments in
theorem Agree.addCall (h : Agree hidden facts facts') (hp : Twins hidden p p') :
    Agree hidden { facts with calls := facts.calls ++ (Handler.bareCall? p).toList }
      { facts' with calls := facts'.calls ++ (Handler.bareCall? p').toList } := by
  refine { h with calls := List.rel_append h.calls ?_ }
  rcases rel_cases (Handler.bareCall?_rel hp) with ⟨hc, hc'⟩ | ⟨call, call', hc, hc', hcall⟩
  · rw [hc, hc']
    exact .nil
  · rw [hc, hc']
    exact .cons hcall .nil

theorem visitCall_inStep (h : Agree hidden facts facts') (hp : Twins hidden p p') :
    InStep (Agree hidden) (facts.visitCall p) (facts'.visitCall p') := by
  unfold visitCall
  rw [← Effect.isEffect_eq hp.alike]
  split
  · exact (visitEffect_inStep comments h hp).bind fun _ _ hnext => .ok (hnext.addCall hp)
  · exact .ok (h.addCall hp)

/-- One visit to twins keeps the agreement. -/
theorem visit_inStep (h : Agree hidden facts facts') (hp : Twins hidden p p') :
    InStep (Agree hidden) (facts.visit p) (facts'.visit p') := by
  have helement : InStep (Agree hidden) (facts.visitElement p) (facts'.visitElement p') := by
    rw [visitElement, visitElement, Markup.element?_eq hp.alike]
    refine InStep.bind .of_eq fun element element' helement => .ok ?_
    exact { h with elements := by rw [h.elements, helement] }
  have hkind : p.kind = p'.kind := hp.alike.kind
  unfold visit
  rw [← hkind]
  split
  · exact helement
  · exact helement
  · exact .ok { h with states := by rw [h.states, Effect.state?_eq hp.alike] }
  · exact visitCall_inStep comments h hp
  · exact .ok h

/-- A walk from twins keeps the agreement: it visits twins in turn, and comments in vain. -/
theorem walkAll_inStep {starts starts' : List Place} (h : Agree hidden facts facts')
    (hstarts : List.Forall₂ (Twins hidden) starts starts') :
    InStep (Agree hidden) (Place.walkAll visit facts starts) (Place.walkAll visit facts' starts') := by
  have hcomment : ∀ q : Place, (!hidden q.kind) = false → ∀ f : Facts, f.visit q = .ok f := by
    intro q hq f
    rw [visit, comment_of_hidden comments hq]
  rw [Place.walkAll_eq_foldlM, Place.walkAll_eq_foldlM]
  refine InStep.foldlM_filter hcomment hcomment (fun _ _ _ _ => visit_inStep comments) ?_ h
  rw [List.filter_flatMap, List.filter_flatMap]
  exact forall₂_flatMap (fun _ _ _ hq => Twins.nodes hq) hstarts

omit comments in
theorem Agree.toComponent_eq (h : Agree hidden facts facts') (name : String)
    (props : List String) : facts.toComponent name props = facts'.toComponent name props := by
  rw [toComponent, toComponent, h.elements, h.states, h.hasEffects, h.effectDependencies, h.network,
    Handler.setterMap_eq facts'.states h.calls]

end Facts

namespace Analysis

variable {location location' : Location}

omit comments in
theorem announce_eq (path : String) (name : location.name = location'.name)
    (roots : List.Forall₂ (Twins hidden) location.roots location'.roots) :
    announce path location = announce path location' := by
  have hempty : location.roots.isEmpty = location'.roots.isEmpty := by
    rw [Bool.eq_iff_iff, List.isEmpty_iff_length_eq_zero, List.isEmpty_iff_length_eq_zero,
      roots.length_eq]
  rw [announce, announce, name, hempty, roots.length_eq]

omit comments in
theorem props_eq (roots : List.Forall₂ (Twins hidden) location.roots location'.roots) :
    props location = props location' := by
  unfold props
  match location.roots, location'.roots, roots with
  | [], [], .nil => rfl
  | fn :: _, fn' :: _, .cons hfn _ => exact Props.ofFunction_eq hfn.alike

theorem component_eq {starts starts' : List Place} (name : location.name = location'.name)
    (roots : List.Forall₂ (Twins hidden) location.roots location'.roots)
    (hstarts : List.Forall₂ (Twins hidden) starts starts') :
    component location starts = component location' starts' := by
  have hempty : Facts.Agree hidden {} {} := ⟨rfl, rfl, rfl, rfl, rfl, .nil⟩
  refine InStep.eq ((Facts.walkAll_inStep comments hempty hstarts).bind fun facts facts' hfacts => ?_)
  rw [name, props_eq roots]
  simp only [hfacts.toComponent_eq]
  exact .of_eq

/-- What is said of two files, and what comes of it, is the same when their locations bear one name
and begin at twins. -/
theorem report_eq_of_twins {path : String} {tree tree' : Tree} (sound : tree.hasFault = false)
    (sound' : tree'.hasFault = false)
    (name : (Location.ofRoot ⟨tree, []⟩).name = (Location.ofRoot ⟨tree', []⟩).name)
    (roots : List.Forall₂ (Twins hidden) (Location.ofRoot ⟨tree, []⟩).roots
      (Location.ofRoot ⟨tree', []⟩).roots)
    (hstarts : List.Forall₂ (Twins hidden) ((Location.ofRoot ⟨tree, []⟩).starts ⟨tree, []⟩)
      ((Location.ofRoot ⟨tree', []⟩).starts ⟨tree', []⟩)) :
    Report.ofTree path tree = Report.ofTree path tree' := by
  rw [Report.ofTree_of_sound path sound, Report.ofTree_of_sound path sound',
    announce_eq path name roots, component_eq comments name roots hstarts]

end Analysis

end

end SuiteDraft
