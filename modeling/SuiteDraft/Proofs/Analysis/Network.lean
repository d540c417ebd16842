import SuiteDraft.Grammar.Program
import SuiteDraft.Proofs.Analysis.Calls
import SuiteDraft.Proofs.Analysis.Facts

/-!
# The network calls of a component

The network calls of a component are those that stand in the callback of an effect in its scope,
and no others, however effects, functions and calls lie within one another.
-/

namespace SuiteDraft

namespace Literal

/-- A string, or a template without substitutions. -/
def IsStatic (t : Tree) : Prop :=
  (t.kind = .string ∨ t.kind = .templateString) ∧
    ∀ c ∈ t.children, c.kind ≠ .templateSubstitution

theorem pieces_isSome {cs : List Tree} {found : Option (List Nat)} (h : pieces cs = .ok found) :
    found.isSome = true ↔ ∀ c ∈ cs, c.kind ≠ .templateSubstitution := by
  induction cs generalizing found with
  | nil =>
    cases h
    simp
  | cons c cs ih =>
    rw [pieces] at h
    split at h
    · rename_i hc
      cases h
      simp [hc]
    · rename_i hc
      rcases bind_eq_ok_iff.mp h with ⟨head, -, h⟩
      rcases bind_eq_ok_iff.mp h with ⟨rest, hrest, h⟩
      cases h
      rw [Option.isSome_map, ih hrest, List.forall_mem_cons]
      exact ⟨fun hcs => ⟨hc, hcs⟩, fun hcs => hcs.2⟩

/-- Just the static literals have a value. -/
theorem value?_isSome {t : Tree} {found : Option String} (h : value? t = .ok found) :
    found.isSome = true ↔ IsStatic t := by
  have hliteral : isLiteral t = true ↔ t.kind = .string ∨ t.kind = .templateString := by
    rw [isLiteral, Bool.or_eq_true, decide_eq_true_iff, decide_eq_true_iff]
  unfold value? at h
  split at h
  · rename_i ht
    rcases bind_eq_ok_iff.mp h with ⟨points, hpoints, h⟩
    cases h
    rw [Option.isSome_map, pieces_isSome hpoints]
    exact ⟨fun hcs => ⟨hliteral.mp ht, hcs⟩, fun hs => hs.2⟩
  · rename_i ht
    cases h
    exact ⟨fun hf => absurd hf (by decide), fun hs => absurd (hliteral.mpr hs.1) ht⟩

end Literal

namespace Effect

/-! ## What a call asks for -/

/-- The address for which a call asks: the value of its first argument when that is a static
literal, and `unknown` otherwise. -/
def Addresses (t : Tree) (address : String) : Prop :=
  (∃ first rest, t.callArguments = first :: rest ∧ Literal.IsStatic first ∧
    Literal.value? first = .ok (some address)) ∨
  ((∀ first rest, t.callArguments = first :: rest → ¬ Literal.IsStatic first) ∧
    address = unknownUrl)

/-- A call by `fetch` or of a member of `axios`, as it is recorded. -/
inductive Requests (t : Tree) : NetworkCall → Prop
  | fetch {address : String} (call : t.CallsBare "fetch") (asks : Addresses t address) :
      Requests t { kind := .fetch, url := address }
  | axios {method address : String} (call : t.CallsMember "axios" method)
      (asks : Addresses t address) :
      Requests t { kind := .axios, method := some method, url := address }

theorem addresses_iff {t : Tree} {found address : String} (h : url t = .ok found) :
    Addresses t address ↔ found = address := by
  unfold url at h
  unfold Addresses
  cases hargs : t.callArguments with
  | nil =>
    rw [hargs] at h
    cases h
    simp [eq_comm]
  | cons first rest =>
    rw [hargs] at h
    rcases bind_eq_ok_iff.mp h with ⟨value, hvalue, h⟩
    cases h
    have hstatic := Literal.value?_isSome hvalue
    cases value with
    | none =>
      have hnot : ¬ Literal.IsStatic first := fun hs => absurd (hstatic.mpr hs) (by decide)
      simp [hnot, eq_comm]
    | some v =>
      have hyes : Literal.IsStatic first := hstatic.mp rfl
      simp [hyes, hvalue]

theorem clientMethod?_eq_some_iff {t : Tree} {method : String} (hcall : t.kind = .callExpression) :
    clientMethod? t = some method ↔ t.CallsMember "axios" method := by
  unfold clientMethod? Tree.CallsMember
  cases t.child? .function with
  | none => simp
  | some callee =>
    by_cases hmember : callee.kind = .memberExpression
    · cases hplain : callee.plainMember? with
      | none =>
        simp only [hmember, hplain, if_true, reduceCtorEq, false_iff]
        rintro ⟨-, c, hc, -, ⟨o, ho, hokind, -⟩, p, hp, hpkind, -⟩
        cases hc
        rw [Tree.plainMember?_eq_some_iff.mpr ⟨ho, hokind, hp, hpkind⟩] at hplain
        cases hplain
      | some pair =>
        rcases pair with ⟨o, p⟩
        rcases Tree.plainMember?_eq_some_iff.mp hplain with ⟨ho, hokind, hp, hpkind⟩
        simp [hcall, hmember, hplain, ho, hokind, hp, hpkind]
    · simp [hmember]

theorem not_callsBare_of_callsMember {t : Tree} {object property name : String}
    (h : t.CallsMember object property) : ¬ t.CallsBare name := by
  rcases h with ⟨-, callee, hcallee, hkind, -⟩
  rintro ⟨-, callee', hcallee', hkind', -⟩
  rw [hcallee] at hcallee'
  cases hcallee'
  rw [hkind] at hkind'
  cases hkind'

theorem networkCall?_of_callsBare {t : Tree} (h : t.CallsBare "fetch") :
    networkCall? t = (url t >>= fun address => pure (some { kind := .fetch, url := address })) := by
  have hmethod : clientMethod? t = none := by
    rw [Option.eq_none_iff_forall_ne_some]
    intro method hm
    exact not_callsBare_of_callsMember ((clientMethod?_eq_some_iff h.1).mp hm) h
  rw [networkCall?, if_pos h.1, hmethod, if_pos (Tree.callsBare_iff.mp h).2]

theorem networkCall?_of_callsMember {t : Tree} {method : String}
    (h : t.CallsMember "axios" method) :
    networkCall? t = (url t >>= fun address =>
      pure (some { kind := .axios, method := some method, url := address })) := by
  rw [networkCall?, if_pos h.1, (clientMethod?_eq_some_iff h.1).mpr h]

theorem networkCall?_of_neither {t : Tree} (hfetch : ¬ t.CallsBare "fetch")
    (haxios : ¬ ∃ method, t.CallsMember "axios" method) : networkCall? t = .ok none := by
  unfold networkCall?
  split
  · rename_i hcall
    cases hmethod : clientMethod? t with
    | none => exact if_neg fun hbare => hfetch (Tree.callsBare_iff.mpr ⟨hcall, hbare⟩)
    | some method => exact absurd ⟨method, (clientMethod?_eq_some_iff hcall).mp hmethod⟩ haxios
  · rfl

/-- A node is recorded as what it requests, and a node that requests nothing is not recorded. -/
theorem requests_iff {t : Tree} {found : Option NetworkCall} {r : NetworkCall}
    (h : networkCall? t = .ok found) : Requests t r ↔ found = some r := by
  constructor
  · intro hr
    cases hr with
    | fetch call asks =>
      rw [networkCall?_of_callsBare call] at h
      rcases bind_eq_ok_iff.mp h with ⟨address, haddress, h⟩
      cases h
      rw [(addresses_iff haddress).mp asks]
    | axios call asks =>
      rw [networkCall?_of_callsMember call] at h
      rcases bind_eq_ok_iff.mp h with ⟨address, haddress, h⟩
      cases h
      rw [(addresses_iff haddress).mp asks]
  · rintro rfl
    by_cases hfetch : t.CallsBare "fetch"
    · rw [networkCall?_of_callsBare hfetch] at h
      rcases bind_eq_ok_iff.mp h with ⟨address, haddress, h⟩
      cases h
      exact .fetch hfetch ((addresses_iff haddress).mpr rfl)
    · by_cases haxios : ∃ method, t.CallsMember "axios" method
      · rcases haxios with ⟨method, hmethod⟩
        rw [networkCall?_of_callsMember hmethod] at h
        rcases bind_eq_ok_iff.mp h with ⟨address, haddress, h⟩
        cases h
        exact .axios hmethod ((addresses_iff haddress).mpr rfl)
      · rw [networkCall?_of_neither hfetch haxios] at h
        cases h

theorem Requests.kind_eq_fetch_iff {t : Tree} {r : NetworkCall} (h : Requests t r) :
    r.kind = .fetch ↔ t.CallsBare "fetch" := by
  cases h with
  | fetch call _ => exact ⟨fun _ => call, fun _ => rfl⟩
  | axios call _ =>
    refine ⟨fun hkind => ?_, fun hbare => absurd hbare (not_callsBare_of_callsMember call)⟩
    cases hkind

theorem Requests.kind_eq_axios_iff {t : Tree} {r : NetworkCall} (h : Requests t r) :
    r.kind = .axios ↔ ∃ method, t.CallsMember "axios" method := by
  cases h with
  | fetch call _ =>
    refine ⟨fun hkind => ?_,
      fun ⟨_, hmember⟩ => absurd call (not_callsBare_of_callsMember hmember)⟩
    cases hkind
  | axios call _ => exact ⟨fun _ => ⟨_, call⟩, fun _ => rfl⟩

theorem exists_requests_of_callsBare {t : Tree} {found : Option NetworkCall}
    (h : networkCall? t = .ok found) (hcall : t.CallsBare "fetch") : ∃ r, Requests t r := by
  have hfound := h
  rw [networkCall?_of_callsBare hcall] at hfound
  rcases bind_eq_ok_iff.mp hfound with ⟨address, -, hfound⟩
  cases hfound
  exact ⟨_, (requests_iff h).mpr rfl⟩

theorem exists_requests_of_callsMember {t : Tree} {found : Option NetworkCall} {method : String}
    (h : networkCall? t = .ok found) (hcall : t.CallsMember "axios" method) :
    ∃ r, Requests t r := by
  have hfound := h
  rw [networkCall?_of_callsMember hcall] at hfound
  rcases bind_eq_ok_iff.mp hfound with ⟨address, -, hfound⟩
  cases hfound
  exact ⟨_, (requests_iff h).mpr rfl⟩

end Effect

namespace Network

/-- How the network calls `after` a run over the nodes `places` differ from those `before` it. -/
structure Recorded (places : List Place) (before after : Network) : Prop where
  apis : ∀ r, r ∈ after.apis ↔ r ∈ before.apis ∨ ∃ p ∈ places, Effect.Requests p.node r
  usesFetch : after.usesFetch = true ↔
    before.usesFetch = true ∨ ∃ p ∈ places, p.node.CallsBare "fetch"
  usesAxios : after.usesAxios = true ↔
    before.usesAxios = true ∨ ∃ p ∈ places, ∃ method, p.node.CallsMember "axios" method

theorem Recorded.refl (n : Network) : Recorded [] n n := by
  constructor <;> simp

theorem Recorded.trans {a b : List Place} {l m n : Network} (hlm : Recorded a l m)
    (hmn : Recorded b m n) : Recorded (a ++ b) l n := by
  refine ⟨fun r => ?_, ?_, ?_⟩
  · rw [hmn.apis, hlm.apis, or_assoc]
    simp only [List.mem_append, or_and_right, exists_or]
  · rw [hmn.usesFetch, hlm.usesFetch, or_assoc]
    simp only [List.mem_append, or_and_right, exists_or]
  · rw [hmn.usesAxios, hlm.usesAxios, or_assoc]
    simp only [List.mem_append, or_and_right, exists_or]

theorem record_apis (n : Network) (call : NetworkCall) :
    (n.record call).apis = n.apis ++ [call] := by
  unfold record
  split <;> rfl

theorem record_usesFetch (n : Network) (call : NetworkCall) :
    (n.record call).usesFetch = true ↔ n.usesFetch = true ∨ call.kind = .fetch := by
  unfold record
  split <;> rename_i h <;> simp [h]

theorem record_usesAxios (n : Network) (call : NetworkCall) :
    (n.record call).usesAxios = true ↔ n.usesAxios = true ∨ call.kind = .axios := by
  unfold record
  split <;> rename_i h <;> simp [h]

/-- One visit records what the visited node requests, and keeps the marks in step. -/
theorem visit_recorded {n n' : Network} {p : Place} (h : n.visit p = .ok n') :
    Recorded [p] n n' := by
  rcases bind_eq_ok_iff.mp h with ⟨found, hfound, h⟩
  have hrequests : ∀ r, Effect.Requests p.node r ↔ found = some r := fun _ =>
    Effect.requests_iff hfound
  have hfetch := Effect.exists_requests_of_callsBare hfound
  have haxios : ∀ method, p.node.CallsMember "axios" method → ∃ r, Effect.Requests p.node r :=
    fun _ => Effect.exists_requests_of_callsMember hfound
  -- The marks follow the list, since a call is recorded by its kind.
  cases found with
  | none =>
    cases h
    refine ⟨fun r => ?_, ?_, ?_⟩
    · simp [hrequests]
    · simp only [hrequests, reduceCtorEq, exists_false, imp_false] at hfetch
      simp [hfetch]
    · simp only [hrequests, reduceCtorEq, exists_false, imp_false] at haxios
      simp [haxios]
  | some call =>
    cases h
    have hcall : Effect.Requests p.node call := (hrequests call).mpr rfl
    refine ⟨fun r => ?_, ?_, ?_⟩
    · rw [record_apis]
      simp [hrequests, eq_comm]
    · rw [record_usesFetch, hcall.kind_eq_fetch_iff]
      simp
    · rw [record_usesAxios, hcall.kind_eq_axios_iff]
      simp

theorem run_recorded {places : List Place} {n n' : Network}
    (h : places.foldlM visit n = .ok n') : Recorded places n n' := by
  induction places generalizing n with
  | nil =>
    cases h
    exact Recorded.refl _
  | cons p places ih =>
    rw [List.foldlM_cons] at h
    rcases bind_eq_ok_iff.mp h with ⟨next, hvisit, hrest⟩
    exact (visit_recorded hvisit).trans (ih hrest)

end Network

namespace Analysis

/-- A place is in the callback of an effect of a file's component: in the body of the function that
is the first argument of a `useEffect` call in the scope. -/
def InCallback (tree : Tree) (p : Place) : Prop :=
  ∃ effect callback body, InScope tree effect ∧ effect.node.Calls "useEffect" ∧
    effect.callArguments.head? = some callback ∧ callback.kind.isFunctionValue = true ∧
    callback.child? .body = some body ∧ body.Reaches p

theorem mem_callbackNodes_iff {effect p : Place} :
    p ∈ Effect.callbackNodes effect ↔
      ∃ body, Effect.callbackBody? effect = some body ∧ body.Reaches p := by
  unfold Effect.callbackNodes
  cases Effect.callbackBody? effect with
  | none => simp
  | some body => simp [Place.mem_nodes_iff]

theorem mem_effectNodes_iff {tree : Tree} {p : Place} :
    p ∈ (Facts.effectsIn (scopeNodes tree)).flatMap Effect.callbackNodes ↔ InCallback tree p := by
  simp only [Facts.effectsIn, List.mem_flatMap, List.mem_filter, mem_scopeNodes_iff,
    Effect.isEffect, Tree.isCallOf_iff, mem_callbackNodes_iff, Effect.callbackBody?_eq_some_iff]
  constructor
  · rintro ⟨effect, ⟨hscope, heffect⟩, body, ⟨callback, hfirst, hkind, hbody⟩, hreaches⟩
    exact ⟨effect, callback, body, hscope, heffect, hfirst, hkind, hbody, hreaches⟩
  · rintro ⟨effect, callback, body, hscope, heffect, hfirst, hkind, hbody, hreaches⟩
    exact ⟨effect, ⟨hscope, heffect⟩, body, ⟨callback, hfirst, hkind, hbody⟩, hreaches⟩

/-- The network calls of a component are just those in the callbacks of its effects, and it uses a
way of reaching the network just when there is such a call. -/
theorem network_of_callbacks {path : String} {tree : Tree} {c : Component}
    (analysed : (Report.ofTree path tree).outcome = .ok c) :
    (∀ r, r ∈ c.apis ↔ ∃ call, InCallback tree call ∧ Effect.Requests call.node r) ∧
    (c.usesFetch = true ↔ ∃ call, InCallback tree call ∧ call.node.CallsBare "fetch") ∧
    (c.usesAxios = true ↔
      ∃ call, InCallback tree call ∧ ∃ method, call.node.CallsMember "axios" method) := by
  rcases report_collected analysed with ⟨facts, props, collected, rfl⟩
  rcases Network.run_recorded collected.network with ⟨hapis, hfetch, haxios⟩
  simp only [mem_effectNodes_iff, List.not_mem_nil, Bool.false_eq_true, false_or]
    at hapis hfetch haxios
  exact ⟨hapis, hfetch, haxios⟩

/-- A file that reaches the network in an effect and beside it. -/
def effectSource : Tree := Grammar.treeOf .markup <| .ofGlyphs <| Glyph.ofText
  "fetch(u);useEffect(()=>axios.get(`/a`))"

theorem network_of_effectSource :
    (∃ c, (Report.ofTree "A.tsx" effectSource).outcome = .ok c) ∧
    (∃ call, InCallback effectSource call ∧
      Effect.Requests call.node { kind := .axios, method := some "get", url := "/a" }) ∧
    ¬ ∃ call, InCallback effectSource call ∧ call.node.CallsBare "fetch" := by
  have hfacts : (Report.ofTree "A.tsx" effectSource).outcome.toOption.map
      (fun c => (c.apis, c.usesFetch)) =
        some ([{ kind := .axios, method := some "get", url := "/a" }], false) := by
    decide +kernel
  obtain ⟨c, hc, hrecorded⟩ := exists_of_toOption_map hfacts
  obtain ⟨hapis, hfetch⟩ := Prod.mk.inj hrecorded
  rcases network_of_callbacks hc with ⟨requests, usesFetch, -⟩
  refine ⟨⟨c, hc⟩, (requests _).mp ?_, fun hcall => ?_⟩
  · rw [hapis]
    exact List.mem_singleton_self _
  · rw [usesFetch.mpr hcall] at hfetch
    cases hfetch

end Analysis

end SuiteDraft
