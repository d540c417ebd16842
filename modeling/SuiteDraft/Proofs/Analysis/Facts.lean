import SuiteDraft.Proofs.Analysis.Scope
import SuiteDraft.Proofs.Lockstep

/-!
# What a walk collects

One visit adds to the facts what the visited node is, and nothing else. A run over the nodes of a
scope therefore adds what its nodes are, one after the other; the network calls come from the
callbacks of the effects among them.
-/

namespace SuiteDraft

namespace Effect

theorem callbackBody?_eq_some_iff {effect body : Place} :
    callbackBody? effect = some body ↔ ∃ callback,
      effect.callArguments.head? = some callback ∧ callback.kind.isFunctionValue = true ∧
        callback.child? .body = some body := by
  unfold callbackBody?
  cases effect.callArguments with
  | nil => simp
  | cons first rest => simp

/-- The nodes of an effect's callback body. -/
def callbackNodes (effect : Place) : List Place :=
  match callbackBody? effect with
  | some body => body.nodes
  | none => []

theorem state?_of_kind {t : Tree} (h : t.kind ≠ .variableDeclarator) : state? t = none := if_neg h

theorem isEffect_of_kind {t : Tree} (h : t.kind ≠ .callExpression) : isEffect t = false := by
  rw [isEffect, Tree.isCallOf, beq_false_of_ne h, Bool.false_and]

end Effect

theorem Markup.element?_of_kind {t : Tree} (h : t.kind ≠ .jsxElement)
    (h' : t.kind ≠ .jsxSelfClosingElement) : Markup.element? t = .ok none := by
  rw [Markup.element?, Markup.isElement, beq_false_of_ne h, beq_false_of_ne h']
  rfl

theorem Handler.bareCall?_of_kind {p : Place} (h : p.kind ≠ .callExpression) :
    Handler.bareCall? p = none := if_neg h

theorem Network.visitEffect_eq_foldlM (n : Network) (effect : Place) :
    n.visitEffect effect = (Effect.callbackNodes effect).foldlM Network.visit n := by
  unfold Network.visitEffect Effect.callbackNodes
  cases Effect.callbackBody? effect with
  | none => rfl
  | some body =>
    dsimp only
    rw [Place.walk_eq_foldlM, List.flatMap_singleton]

namespace Facts

/-- The effects among the nodes `places`. -/
def effectsIn (places : List Place) : List Place := places.filter fun p => Effect.isEffect p.node

theorem effectsIn_of_effect {p : Place} (h : Effect.isEffect p.node = true) : effectsIn [p] = [p] := by
  rw [effectsIn, List.filter_singleton, h]
  rfl

theorem effectsIn_of_not {p : Place} (h : Effect.isEffect p.node = false) : effectsIn [p] = [] := by
  rw [effectsIn, List.filter_singleton, h]
  rfl

/-- A visit as it does not depend on the kind of the node: whatever the node is, is added. -/
def visitAny (facts : Facts) (p : Place) : Except LiteralError Facts := do
  let element ← Markup.element? p.node
  let network ← ((effectsIn [p]).flatMap Effect.callbackNodes).foldlM Network.visit facts.network
  return {
    elements := facts.elements ++ element.toList
    states := facts.states ++ (Effect.state? p.node).toList
    hasEffects := facts.hasEffects || Effect.isEffect p.node
    effectDependencies := ((effectsIn [p]).flatMap fun p => Effect.dependencies p.node).foldl
      Effect.addName facts.effectDependencies
    network
    calls := facts.calls ++ (Handler.bareCall? p).toList }

/-- How the facts `after` a run over the nodes `places` differ from those `before` it. -/
structure Collected (places : List Place) (before after : Facts) : Prop where
  elements : ∃ found, places.mapM (fun p => Markup.element? p.node) = .ok found ∧
    after.elements = before.elements ++ found.flatMap Option.toList
  states : after.states = before.states ++ places.filterMap fun p => Effect.state? p.node
  hasEffects : after.hasEffects = (before.hasEffects || places.any fun p => Effect.isEffect p.node)
  effectDependencies : after.effectDependencies =
    ((effectsIn places).flatMap fun p => Effect.dependencies p.node).foldl Effect.addName
      before.effectDependencies
  network : ((effectsIn places).flatMap Effect.callbackNodes).foldlM Network.visit before.network =
    .ok after.network
  calls : after.calls = before.calls ++ places.filterMap Handler.bareCall?

theorem Collected.refl (facts : Facts) : Collected [] facts facts where
  elements := ⟨[], rfl, (List.append_nil _).symm⟩
  states := (List.append_nil _).symm
  hasEffects := (Bool.or_false _).symm
  effectDependencies := rfl
  network := rfl
  calls := (List.append_nil _).symm

theorem Collected.trans {a b : List Place} {s t u : Facts} (hst : Collected a s t)
    (htu : Collected b t u) : Collected (a ++ b) s u := by
  have heffects : effectsIn (a ++ b) = effectsIn a ++ effectsIn b := List.filter_append ..
  rcases hst.elements with ⟨x, hx, hsx⟩
  rcases htu.elements with ⟨y, hy, hty⟩
  refine ⟨⟨x ++ y, ?_, ?_⟩, ?_, ?_, ?_, ?_, ?_⟩
  · rw [List.mapM_append, hx, hy]
    rfl
  · rw [hty, hsx, List.append_assoc, List.flatMap_append]
  · rw [htu.states, hst.states, List.append_assoc, List.filterMap_append]
  · rw [htu.hasEffects, hst.hasEffects, List.any_append, Bool.or_assoc]
  · rw [htu.effectDependencies, hst.effectDependencies, heffects, List.flatMap_append,
      List.foldl_append]
  · rw [heffects, List.flatMap_append, List.foldlM_append, hst.network]
    exact htu.network
  · rw [htu.calls, hst.calls, List.append_assoc, List.filterMap_append]

/-- Each element that was found is the record of a visited node. -/
theorem Collected.exists_of_mem_elements {places : List Place} {facts : Facts} {e : Element}
    (h : Collected places {} facts) (mem : e ∈ facts.elements) :
    ∃ p ∈ places, Markup.element? p.node = .ok (some e) := by
  have ⟨found, found_eq, elements_eq⟩ := h.elements
  rw [elements_eq, List.nil_append] at mem
  have ⟨_, record_mem, record_eq⟩ := List.mem_flatMap.mp mem
  rw [Option.mem_toList.mp record_eq] at record_mem
  exact forall₂_exists_of_mem_right (mapM_eq_ok_iff.mp found_eq) record_mem

/-! ## One visit -/

theorem visitElement_eq (facts : Facts) {p : Place} (hdeclarator : p.kind ≠ .variableDeclarator)
    (hcall : p.kind ≠ .callExpression) : facts.visitElement p = facts.visitAny p := by
  have heffect : Effect.isEffect p.node = false := Effect.isEffect_of_kind hcall
  refine bind_congr fun element => ?_
  rw [effectsIn_of_not heffect, heffect, Effect.state?_of_kind hdeclarator,
    Handler.bareCall?_of_kind hcall, Option.toList_none, Option.toList_none, List.append_nil,
    List.append_nil, Bool.or_false]
  rfl

theorem visitCall_eq (facts : Facts) {p : Place} (hcall : p.kind = .callExpression) :
    facts.visitCall p = facts.visitAny p := by
  have hkind : p.node.kind = .callExpression := hcall
  -- A call is neither an element nor a declarator; what remains is whether it is an effect.
  unfold visitAny visitCall
  rw [Markup.element?_of_kind (by rw [hkind]; decide) (by rw [hkind]; decide), ok_bind,
    Effect.state?_of_kind (by rw [hkind]; decide), Option.toList_none, Option.toList_none,
    List.append_nil, List.append_nil]
  cases heffect : Effect.isEffect p.node with
  | false =>
    rw [effectsIn_of_not heffect, Bool.or_false]
    rfl
  | true =>
    rw [effectsIn_of_effect heffect, Bool.or_true, List.flatMap_singleton, List.flatMap_singleton,
      ← Network.visitEffect_eq_foldlM, if_pos rfl, visitEffect, bind_assoc]
    rfl

/-- Which facts a visit adds needs no look at the kind of the node. -/
theorem visit_eq_visitAny (facts : Facts) (p : Place) : facts.visit p = facts.visitAny p := by
  unfold visit
  split
  · rename_i h
    exact visitElement_eq facts (by rw [h]; decide) (by rw [h]; decide)
  · rename_i h
    exact visitElement_eq facts (by rw [h]; decide) (by rw [h]; decide)
  · rename_i h
    have hkind : p.node.kind = .variableDeclarator := h
    have heffect : Effect.isEffect p.node = false :=
      Effect.isEffect_of_kind (by rw [hkind]; decide)
    unfold visitAny
    rw [Markup.element?_of_kind (by rw [hkind]; decide) (by rw [hkind]; decide), ok_bind,
      effectsIn_of_not heffect, heffect, Handler.bareCall?_of_kind (by rw [h]; decide),
      Option.toList_none, Option.toList_none, List.append_nil, List.append_nil, Bool.or_false]
    rfl
  · rename_i h
    exact visitCall_eq facts h
  · rename_i helement hself hdeclarator hcall
    rw [← visitElement_eq facts hdeclarator hcall, visitElement,
      Markup.element?_of_kind helement hself, ok_bind, Option.toList_none, List.append_nil]
    rfl

/-- One visit collects what the visited node is. -/
theorem visit_collected {facts facts' : Facts} {p : Place} (h : facts.visit p = .ok facts') :
    Collected [p] facts facts' := by
  rw [visit_eq_visitAny] at h
  rcases bind_eq_ok_iff.mp h with ⟨element, helement, h⟩
  rcases bind_eq_ok_iff.mp h with ⟨network, hnetwork, h⟩
  cases h
  refine ⟨⟨[element], ?_, ?_⟩, ?_, ?_, rfl, hnetwork, ?_⟩
  · rw [List.mapM_cons, helement]
    rfl
  · rw [List.flatMap_singleton]
  · rw [List.filterMap_cons]
    cases Effect.state? p.node <;> rfl
  · rw [List.any_cons, List.any_nil, Bool.or_false]
  · rw [List.filterMap_cons]
    cases Handler.bareCall? p <;> rfl

/-- A run collects what the nodes that it visits are. -/
theorem run_collected {places : List Place} {facts facts' : Facts}
    (h : places.foldlM visit facts = .ok facts') : Collected places facts facts' := by
  induction places generalizing facts with
  | nil =>
    cases h
    exact Collected.refl _
  | cons p places ih =>
    rw [List.foldlM_cons] at h
    rcases bind_eq_ok_iff.mp h with ⟨next, hvisit, hrest⟩
    exact (visit_collected hvisit).trans (ih hrest)

end Facts

namespace Analysis

/-- The component of a file is made of what a run over its scope collects. -/
theorem component_collected {location : Location} {starts : List Place} {c : Component}
    (h : component location starts = .ok c) :
    ∃ facts props, Facts.Collected (starts.flatMap Place.nodes) {} facts ∧
      c = facts.toComponent location.name props := by
  rcases bind_eq_ok_iff.mp h with ⟨facts, hfacts, h⟩
  rcases bind_eq_ok_iff.mp h with ⟨props, -, h⟩
  cases h
  rw [Place.walkAll_eq_foldlM] at hfacts
  exact ⟨facts, props, Facts.run_collected hfacts, rfl⟩

end Analysis

theorem Report.ofTree_of_sound (path : String) {tree : Tree} (sound : tree.hasFault = false) :
    Report.ofTree path tree =
      { log := [Analysis.announce path (Location.ofRoot ⟨tree, []⟩)]
        outcome := (Analysis.component (Location.ofRoot ⟨tree, []⟩)
          ((Location.ofRoot ⟨tree, []⟩).starts ⟨tree, []⟩)).mapError .literal } := by
  rw [Report.ofTree, Tree.faultPosition?, sound]
  rfl

namespace Analysis

theorem report_collected {path : String} {tree : Tree} {c : Component}
    (h : (Report.ofTree path tree).outcome = .ok c) :
    ∃ facts props, Facts.Collected (scopeNodes tree) {} facts ∧
      c = facts.toComponent (Location.ofRoot ⟨tree, []⟩).name props := by
  unfold Report.ofTree at h
  split at h
  · cases h
  · dsimp only at h
    cases hc : component (Location.ofRoot ⟨tree, []⟩)
        ((Location.ofRoot ⟨tree, []⟩).starts ⟨tree, []⟩) with
    | error e => rw [hc] at h; cases h
    | ok c' =>
      rw [hc] at h
      cases h
      exact component_collected hc

end Analysis

end SuiteDraft
