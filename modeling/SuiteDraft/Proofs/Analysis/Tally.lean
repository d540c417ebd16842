import SuiteDraft.Proofs.Analysis.Network

/-!
# How often a network call is recorded

Each effect in the scope of a component records the network calls of its own callback, in the order of
the document. Where no effect stands within another, every call is recorded once, and all of them in
the order of the document; a call in the callbacks of two effects is recorded by both.
-/

namespace SuiteDraft

namespace Effect

/-- A call that asks the network for something. -/
def IsRequest (t : Tree) : Prop := t.CallsBare "fetch" ∨ ∃ method, t.CallsMember "axios" method

theorem isRequest_iff {t : Tree} : IsRequest t ↔
    t.kind = .callExpression ∧ (t.bareCallee? = some "fetch" ∨ (clientMethod? t).isSome = true) := by
  rw [IsRequest, Tree.callsBare_iff, Option.isSome_iff_exists]
  constructor
  · rintro (⟨hcall, hfetch⟩ | ⟨method, hmethod⟩)
    · exact ⟨hcall, .inl hfetch⟩
    · exact ⟨hmethod.1, .inr ⟨method, (clientMethod?_eq_some_iff hmethod.1).mpr hmethod⟩⟩
  · rintro ⟨hcall, hfetch | ⟨method, hmethod⟩⟩
    · exact .inl ⟨hcall, hfetch⟩
    · exact .inr ⟨method, (clientMethod?_eq_some_iff hcall).mp hmethod⟩

instance (t : Tree) : Decidable (IsRequest t) := decidable_of_iff _ isRequest_iff.symm

/-- Just the calls that ask the network for something are recorded. -/
theorem networkCall?_isSome {t : Tree} {found : Option NetworkCall} (h : networkCall? t = .ok found) :
    found.isSome = true ↔ IsRequest t := by
  rw [Option.isSome_iff_exists]
  constructor
  · rintro ⟨r, hr⟩
    have hrequests : Requests t r := (requests_iff h).mpr hr
    cases hrequests with
    | fetch call _ => exact .inl call
    | axios call _ => exact .inr ⟨_, call⟩
  · rintro (hfetch | ⟨method, hmethod⟩)
    · obtain ⟨r, hr⟩ := exists_requests_of_callsBare h hfetch
      exact ⟨r, (requests_iff h).mp hr⟩
    · obtain ⟨r, hr⟩ := exists_requests_of_callsMember h hmethod
      exact ⟨r, (requests_iff h).mp hr⟩

end Effect

namespace Network

theorem visit_apis {n n' : Network} {p : Place} (h : n.visit p = .ok n') :
    ∃ found, Effect.networkCall? p.node = .ok found ∧ n'.apis = n.apis ++ found.toList := by
  rcases bind_eq_ok_iff.mp h with ⟨found, hfound, h⟩
  refine ⟨found, hfound, ?_⟩
  cases found with
  | none =>
    cases h
    exact (List.append_nil _).symm
  | some call =>
    cases h
    exact record_apis n call

/-- A run records the requests among the nodes that it visits, one after the other. -/
theorem run_apis {places : List Place} {n n' : Network} (h : places.foldlM visit n = .ok n') :
    ∃ records, (places.filter fun p => Effect.IsRequest p.node).mapM
        (fun p => Effect.networkCall? p.node) = .ok (records.map some) ∧
      n'.apis = n.apis ++ records := by
  induction places generalizing n with
  | nil =>
    cases h
    exact ⟨[], rfl, (List.append_nil _).symm⟩
  | cons p places ih =>
    rw [List.foldlM_cons] at h
    obtain ⟨next, hvisit, hrest⟩ := bind_eq_ok_iff.mp h
    obtain ⟨found, hfound, hnext⟩ := visit_apis hvisit
    obtain ⟨records, hrecords, hapis⟩ := ih hrest
    have hsome := Effect.networkCall?_isSome hfound
    cases found with
    | none =>
      have hnot : ¬ Effect.IsRequest p.node := fun hp => Bool.noConfusion (hsome.mpr hp)
      refine ⟨records, ?_, ?_⟩
      · rw [List.filter_cons_of_neg (by simpa using hnot), hrecords]
      · rw [hapis, hnext, Option.toList_none, List.append_nil]
    | some call =>
      have hyes : Effect.IsRequest p.node := hsome.mp rfl
      refine ⟨call :: records, ?_, ?_⟩
      · rw [List.filter_cons_of_pos (by simpa using hyes), List.mapM_cons, hfound, hrecords]
        rfl
      · rw [hapis, hnext, List.append_assoc]
        rfl

end Network

namespace Analysis

/-- A place runs in an effect: it is in the body of the function that is the effect's first argument. -/
def RunsIn (effect p : Place) : Prop :=
  ∃ callback body, effect.callArguments.head? = some callback ∧
    callback.kind.isFunctionValue = true ∧ callback.child? .body = some body ∧ body.Reaches p

/-- An effect in the scope of a file's component. -/
def HasEffect (tree : Tree) (effect : Place) : Prop :=
  InScope tree effect ∧ effect.node.Calls "useEffect"

theorem inCallback_iff {tree : Tree} {p : Place} :
    InCallback tree p ↔ ∃ effect, HasEffect tree effect ∧ RunsIn effect p := by
  constructor
  · rintro ⟨effect, callback, body, hscope, heffect, hruns⟩
    exact ⟨effect, ⟨hscope, heffect⟩, callback, body, hruns⟩
  · rintro ⟨effect, ⟨hscope, heffect⟩, callback, body, hruns⟩
    exact ⟨effect, callback, body, hscope, heffect, hruns⟩

theorem mem_callbackNodes_iff_runsIn {effect p : Place} :
    p ∈ Effect.callbackNodes effect ↔ RunsIn effect p := by
  simp only [mem_callbackNodes_iff, Effect.callbackBody?_eq_some_iff]
  constructor
  · rintro ⟨body, ⟨callback, hfirst, hkind, hbody⟩, hreaches⟩
    exact ⟨callback, body, hfirst, hkind, hbody, hreaches⟩
  · rintro ⟨callback, body, hfirst, hkind, hbody, hreaches⟩
    exact ⟨body, ⟨callback, hfirst, hkind, hbody⟩, hreaches⟩

theorem RunsIn.contains {effect p : Place} (h : RunsIn effect p) : effect.Contains p := by
  obtain ⟨callback, body, hfirst, -, hbody, hreaches⟩ := h
  have hcallback : callback ∈ effect.callArguments := List.mem_of_mem_head? hfirst
  apply (Place.contains_of_mem_callArguments hcallback).trans
  exact (Place.Contains.of_mem_children (Place.mem_children_of_child? hbody)).trans hreaches.contains

/-- The effects in the scope of a file's component. -/
def effectsOf (tree : Tree) : List Place := Facts.effectsIn (scopeNodes tree)

theorem mem_effectsOf_iff {tree : Tree} {e : Place} : e ∈ effectsOf tree ↔ HasEffect tree e := by
  rw [effectsOf, Facts.effectsIn, List.mem_filter, mem_scopeNodes_iff, Effect.isEffect,
    Tree.isCallOf_iff]
  rfl

theorem effectsOf_pairwise (tree : Tree) : (effectsOf tree).Pairwise Place.Precedes :=
  (scopeNodes_pairwise tree).filter _

/-- The requests in the callback of an effect. -/
def requestsOf (effect : Place) : List Place :=
  (Effect.callbackNodes effect).filter fun p => Effect.IsRequest p.node

theorem mem_requestsOf_iff {effect p : Place} :
    p ∈ requestsOf effect ↔ RunsIn effect p ∧ Effect.IsRequest p.node := by
  rw [requestsOf, List.mem_filter, mem_callbackNodes_iff_runsIn, decide_eq_true_iff]

theorem requestsOf_pairwise (effect : Place) : (requestsOf effect).Pairwise Place.Precedes := by
  refine List.Pairwise.filter _ ?_
  unfold Effect.callbackNodes
  split
  · exact Place.nodes_pairwise _
  · exact List.Pairwise.nil

theorem apis_collected {path : String} {tree : Tree} {c : Component}
    (analysed : (Report.ofTree path tree).outcome = .ok c) :
    ((effectsOf tree).flatMap requestsOf).mapM (fun p => Effect.networkCall? p.node) =
      .ok (c.apis.map some) := by
  obtain ⟨facts, props, collected, rfl⟩ := report_collected analysed
  obtain ⟨records, hrecords, hapis⟩ := Network.run_apis collected.network
  have hapis' : (facts.toComponent (Location.ofRoot ⟨tree, []⟩).name props).apis = records := hapis
  rw [hapis', ← hrecords, List.filter_flatMap]
  rfl

/-- No effect in the scope of a file's component stands within another. -/
def EffectsApart (tree : Tree) : Prop :=
  ∀ outer inner, HasEffect tree outer → HasEffect tree inner → outer.Contains inner → outer = inner

/-- Effects that stand apart turn off from one another. -/
theorem EffectsApart.turnsOffBefore {tree : Tree} (apart : EffectsApart tree) {e e' : Place}
    (he : HasEffect tree e) (he' : HasEffect tree e') (h : e.Precedes e') : e.TurnsOffBefore e' := by
  rcases h.path_prefix_or with hbefore | hturns
  · have hcontains : e.Contains e' := he.1.contains.of_path_prefix he'.1.contains hbefore
    exact absurd (apart e e' he he' hcontains) h.ne
  · exact hturns

theorem EffectsApart.requests_pairwise {tree : Tree} (apart : EffectsApart tree) :
    ((effectsOf tree).flatMap requestsOf).Pairwise Place.Precedes := by
  refine List.pairwise_flatMap.mpr ⟨fun e _ => requestsOf_pairwise e, ?_⟩
  refine (effectsOf_pairwise tree).imp_of_mem ?_
  intro e e' he he' hbefore p hp q hq
  have hturns := apart.turnsOffBefore (mem_effectsOf_iff.mp he) (mem_effectsOf_iff.mp he') hbefore
  have hbelow : e.path <+: p.path :=
    Place.path_prefix_of_contains (mem_requestsOf_iff.mp hp).1.contains
  have hbelow' : e'.path <+: q.path :=
    Place.path_prefix_of_contains (mem_requestsOf_iff.mp hq).1.contains
  exact .of_turnsOffBefore (hturns.extend hbelow hbelow')

theorem mem_flatMap_requestsOf_iff {tree : Tree} {p : Place} :
    p ∈ (effectsOf tree).flatMap requestsOf ↔ InCallback tree p ∧ Effect.IsRequest p.node := by
  simp only [List.mem_flatMap, mem_effectsOf_iff, mem_requestsOf_iff, inCallback_iff]
  constructor
  · rintro ⟨e, he, hruns, hp⟩
    exact ⟨⟨e, he, hruns⟩, hp⟩
  · rintro ⟨⟨e, he, hruns⟩, hp⟩
    exact ⟨e, he, hruns, hp⟩

/-- The network calls of a component are those of its effects, one effect after the other, each with
the requests of its own callback in the order of the document. Where no effect stands within another,
they are the requests in callbacks, each once and all in the order of the document. -/
theorem apis_by_effect {path : String} {tree : Tree} {c : Component}
    (analysed : (Report.ofTree path tree).outcome = .ok c) :
    (∃ effects : List Place, effects.Pairwise Place.Precedes ∧
      (∀ e, e ∈ effects ↔ InScope tree e ∧ e.node.Calls "useEffect") ∧
      ∃ requests : Place → List Place,
        (∀ e, (requests e).Pairwise Place.Precedes ∧
          ∀ p, p ∈ requests e ↔ RunsIn e p ∧ Effect.IsRequest p.node) ∧
        (effects.flatMap requests).mapM (fun p => Effect.networkCall? p.node) =
          .ok (c.apis.map some)) ∧
    (EffectsApart tree → ∃ calls : List Place, calls.Pairwise Place.Precedes ∧
      (∀ p, p ∈ calls ↔ InCallback tree p ∧ Effect.IsRequest p.node) ∧
      calls.mapM (fun p => Effect.networkCall? p.node) = .ok (c.apis.map some)) := by
  have hapis := apis_collected analysed
  constructor
  · refine ⟨effectsOf tree, effectsOf_pairwise tree, fun e => mem_effectsOf_iff, requestsOf, ?_, hapis⟩
    exact fun e => ⟨requestsOf_pairwise e, fun p => mem_requestsOf_iff⟩
  · intro apart
    refine ⟨(effectsOf tree).flatMap requestsOf, apart.requests_pairwise, ?_, hapis⟩
    exact fun p => mem_flatMap_requestsOf_iff

/-- Whether no effect stands within another is seen by the paths of the effects. -/
theorem effectsApart_of_paths {tree : Tree} (h : ∀ e ∈ effectsOf tree, ∀ e' ∈ effectsOf tree,
    e.path <+: e'.path → e'.path <+: e.path) : EffectsApart tree := by
  intro outer inner houter hinner hcontains
  have hbefore := Place.path_prefix_of_contains hcontains
  have hback := h outer (mem_effectsOf_iff.mpr houter) inner (mem_effectsOf_iff.mpr hinner) hbefore
  have hlength := hbefore.length_le.antisymm hback.length_le
  exact houter.1.contains.eq_of_path_eq hinner.1.contains (hbefore.eq_of_length hlength)

/-- A file with two effects side by side, the second of which asks for two addresses. -/
def sideBySideSource : Tree := Grammar.treeOf .markup <| .ofGlyphs <| Glyph.ofText
  "useEffect(()=>fetch(`a`));useEffect(()=>\x7baxios.get(u);fetch(`b`)\x7d)"

theorem apis_of_sideBySideSource : EffectsApart sideBySideSource ∧
    ∃ c, (Report.ofTree "A.tsx" sideBySideSource).outcome = .ok c ∧
      c.apis.map (·.url) = ["a", "unknown", "b"] ∧
      ∃ calls : List Place, calls.Pairwise Place.Precedes ∧
        (∀ p, p ∈ calls ↔ InCallback sideBySideSource p ∧ Effect.IsRequest p.node) ∧
        calls.mapM (fun p => Effect.networkCall? p.node) = .ok (c.apis.map some) := by
  have hurls : (Report.ofTree "A.tsx" sideBySideSource).outcome.toOption.map
      (fun c => c.apis.map (·.url)) = some ["a", "unknown", "b"] := by decide +kernel
  have hapart : EffectsApart sideBySideSource := effectsApart_of_paths (by decide +kernel)
  obtain ⟨c, hc, hrecorded⟩ := exists_of_toOption_map hurls
  exact ⟨hapart, c, hc, hrecorded, (apis_by_effect hc).2 hapart⟩

/-- A file with an effect in the callback of another. -/
def nestedSource : Tree := Grammar.treeOf .markup <| .ofGlyphs <| Glyph.ofText
  "useEffect(()=>\x7buseEffect(()=>\x7bfetch(`a`)\x7d)\x7d)"

/-- The one request of the inner callback is recorded twice. -/
theorem apis_of_nestedSource : ∃ c, (Report.ofTree "A.tsx" nestedSource).outcome = .ok c ∧
    c.apis = [{ kind := .fetch, url := "a" }, { kind := .fetch, url := "a" }] ∧
    ¬ ∃ calls : List Place, calls.Pairwise Place.Precedes ∧
      (∀ p, p ∈ calls ↔ InCallback nestedSource p ∧ Effect.IsRequest p.node) ∧
      calls.mapM (fun p => Effect.networkCall? p.node) = .ok (c.apis.map some) := by
  have hfacts : (Report.ofTree "A.tsx" nestedSource).outcome.toOption.map (·.apis) =
      some [{ kind := .fetch, url := "a" }, { kind := .fetch, url := "a" }] := by decide +kernel
  have hone : ∀ p ∈ (effectsOf nestedSource).flatMap requestsOf,
      ∀ q ∈ (effectsOf nestedSource).flatMap requestsOf, p.path = q.path := by decide +kernel
  obtain ⟨c, hc, hapis⟩ := exists_of_toOption_map hfacts
  refine ⟨c, hc, hapis, ?_⟩
  rintro ⟨calls, hpairwise, hmem, hrecords⟩
  rw [hapis] at hrecords
  have hpath : ∀ p ∈ calls, ∀ q ∈ calls, p.path = q.path := by
    intro p hp q hq
    rw [hmem, ← mem_flatMap_requestsOf_iff] at hp hq
    exact hone p hp q hq
  -- All requests are one place, but there are two records.
  match calls, hrecords, hpairwise, hpath with
  | [], hrecords, _, _ => cases hrecords
  | [p], hrecords, _, _ =>
    obtain ⟨found, -, hfound⟩ := bind_eq_ok_iff.mp hrecords
    cases hfound
  | p :: q :: _, _, hpairwise, hpath =>
    have hbefore : p.Precedes q := (List.pairwise_cons.mp hpairwise).1 q List.mem_cons_self
    have hsame : p.path = q.path := hpath p List.mem_cons_self q (by simp)
    rw [Place.Precedes, hsame] at hbefore
    exact List.lt_irrefl _ hbefore

end Analysis

end SuiteDraft
