import Mathlib.Data.Option.Basic
import SuiteDraft.Grammar.Program
import SuiteDraft.Proofs.Analysis.Calls
import SuiteDraft.Proofs.Analysis.Facts
import SuiteDraft.Proofs.Keyed
import SuiteDraft.Proofs.Lockstep

/-!
# The setters of handlers

A call of a setter counts for the nearest function around it, under the name by which that function
is known. The map of a component groups these calls by handler, wherever in the scope the states
are declared.
-/

namespace SuiteDraft

namespace Handler

/-- A function declares a name of its own; an arrow declares none. -/
def Declares (fn : Tree) (name : String) : Prop :=
  fn.kind ≠ .arrowFunction ∧ ∃ own, fn.child? .name = some own ∧ own.text = name

/-- The name by which a function is known: the one it declares; or else that of the variable which
it initialises; or else that of the variable which holds its `useCallback`. -/
inductive KnownAs (fn : Place) (name : String) : Prop
  | own (declares : Declares fn.node name)
  | bound {declarator : Place} (anonymous : ∀ own, ¬ Declares fn.node own)
      (parent : fn.parent? = some declarator) (binds : declarator.node.Binds name)
  | callback {call declarator : Place} (anonymous : ∀ own, ¬ Declares fn.node own)
      (wraps : call.node.Calls "useCallback") (first : call.callArguments.head? = some fn)
      (parent : call.parent? = some declarator) (binds : declarator.node.Binds name)

/-- The nearest function around a place. -/
def NearestFunction (p fn : Place) : Prop :=
  ∃ inner outer, p.ancestors = inner ++ fn :: outer ∧ fn.kind.isFunction = true ∧
    ∀ q ∈ inner, q.kind.isFunction = false

/-- A call, in a handler, of the setter of one of the states. -/
structure Sets (states : List StatePair) (call : Place) (handler setter : String) : Prop where
  calls : call.node.CallsBare setter
  isSetter : ∃ state ∈ states, state.setterName = setter
  named : ∃ fn, NearestFunction call fn ∧ KnownAs fn handler

/-! ## Names of functions -/

theorem variableName?_eq_some_iff {t : Tree} {name : String} :
    variableName? t = some name ↔ t.Binds name := by
  unfold variableName? Tree.Binds
  by_cases hkind : t.kind = .variableDeclarator
  · cases t.child? .name with
    | none => simp [hkind]
    | some binding => by_cases h : binding.kind = .identifier <;> simp [hkind, h]
  · simp [hkind]

theorem ownName?_eq_some_iff {fn : Tree} {name : String} :
    ownName? fn = some name ↔ Declares fn name := by
  unfold ownName? Declares
  by_cases hkind : fn.kind = .arrowFunction
  · simp [hkind]
  · rw [if_neg hkind, Option.map_eq_some_iff]
    exact ⟨fun h => ⟨hkind, h⟩, fun h => h.2⟩

theorem ownName?_eq_none_iff {fn : Tree} : ownName? fn = none ↔ ∀ name, ¬ Declares fn name := by
  simp only [Option.eq_none_iff_forall_ne_some, ne_eq, ownName?_eq_some_iff]

theorem parents_of_mem_callArguments {call arg : Place} (h : arg ∈ call.callArguments) :
    ∃ args, arg.parent? = some args ∧ args.kind = .arguments ∧ args.parent? = some call := by
  rcases Place.mem_callArguments_iff.mp h with ⟨args, hargs, hkind, harg⟩
  exact ⟨args, Place.parent?_of_mem_children (List.mem_of_mem_filter harg), hkind,
    Place.parent?_of_mem_children (Place.mem_children_of_child? hargs)⟩

-- Places that lie in one tree are told apart by their addresses, so that the test of the address
-- asks for this very function.
theorem callbackName?_eq_some_iff {tree : Tree} {fn args : Place} {name : String}
    (hfn : Place.Contains ⟨tree, []⟩ fn) (hargs : fn.parent? = some args) :
    callbackName? fn args = some name ↔ ∃ call declarator, args.parent? = some call ∧
      call.node.Calls "useCallback" ∧ call.callArguments.head? = some fn ∧
      call.parent? = some declarator ∧ declarator.node.Binds name := by
  have hsame : ∀ call first, args.parent? = some call → call.callArguments.head? = some first →
      first.address = fn.address → first = fn := by
    intro call first hcall hfirst haddress
    have hin : Place.Contains ⟨tree, []⟩ call :=
      ((hfn.mem_children_of_parent? hargs).1.mem_children_of_parent? hcall).1
    have hinFirst : Place.Contains ⟨tree, []⟩ first :=
      hin.trans (Place.contains_of_mem_callArguments (List.mem_of_mem_head? hfirst))
    exact hinFirst.eq_of_path_eq hfn (congrArg List.reverse haddress)
  simp only [callbackName?, Option.bind_eq_bind, Option.bind_eq_some_iff, Option.guard_eq_some',
    Tree.isCallOf_iff, variableName?_eq_some_iff, exists_const]
  constructor
  · rintro ⟨call, hcall, hwraps, first, hfirst, haddress, declarator, hparent, hbinds⟩
    rcases hsame call first hcall hfirst haddress with rfl
    exact ⟨call, declarator, hcall, hwraps, hfirst, hparent, hbinds⟩
  · rintro ⟨call, declarator, hcall, hwraps, hfirst, hparent, hbinds⟩
    exact ⟨call, hcall, hwraps, fn, hfirst, rfl, declarator, hparent, hbinds⟩

theorem positionName?_eq_some_iff {tree : Tree} {fn : Place} {name : String}
    (hfn : Place.Contains ⟨tree, []⟩ fn) :
    positionName? fn = some name ↔
      (∃ declarator, fn.parent? = some declarator ∧ declarator.node.Binds name) ∨
      ∃ call declarator : Place, call.node.Calls "useCallback" ∧ call.callArguments.head? = some fn ∧
        call.parent? = some declarator ∧ declarator.node.Binds name := by
  have hcallback : ∀ call, call.callArguments.head? = some fn → ∃ args,
      fn.parent? = some args ∧ args.kind = .arguments ∧ args.parent? = some call :=
    fun call hfirst => parents_of_mem_callArguments (List.mem_of_mem_head? hfirst)
  -- The parent decides: a declarator, a list of arguments, or nothing that gives a name.
  unfold positionName?
  cases hparent : fn.parent? with
  | none =>
    refine ⟨nofun, ?_⟩
    rintro (⟨declarator, h, -⟩ | ⟨call, declarator, -, hfirst, -⟩)
    · cases h
    · rcases hcallback call hfirst with ⟨args, hargs, -⟩
      rw [hparent] at hargs
      cases hargs
  | some parent =>
    change (if parent.kind = .variableDeclarator then variableName? parent.node
      else if parent.kind = .arguments then callbackName? fn parent else none) = some name ↔ _
    by_cases hdeclarator : parent.kind = .variableDeclarator
    · rw [if_pos hdeclarator, variableName?_eq_some_iff]
      refine ⟨fun h => .inl ⟨parent, rfl, h⟩, ?_⟩
      rintro (⟨declarator, h, hbinds⟩ | ⟨call, declarator, -, hfirst, -⟩)
      · cases h
        exact hbinds
      · rcases hcallback call hfirst with ⟨args, hargs, hkind, -⟩
        rw [hparent] at hargs
        cases hargs
        rw [hdeclarator] at hkind
        cases hkind
    · rw [if_neg hdeclarator]
      by_cases harguments : parent.kind = .arguments
      · rw [if_pos harguments, callbackName?_eq_some_iff hfn hparent]
        constructor
        · rintro ⟨call, declarator, -, hcalls⟩
          exact .inr ⟨call, declarator, hcalls⟩
        · rintro (⟨declarator, h, hbinds⟩ | ⟨call, declarator, hwraps, hfirst, hcalls⟩)
          · cases h
            exact absurd hbinds.1 hdeclarator
          · rcases hcallback call hfirst with ⟨args, hargs, -, hcall⟩
            rw [hparent] at hargs
            cases hargs
            exact ⟨call, declarator, hcall, hwraps, hfirst, hcalls⟩
      · rw [if_neg harguments]
        refine ⟨nofun, ?_⟩
        rintro (⟨declarator, h, hbinds⟩ | ⟨call, declarator, -, hfirst, -⟩)
        · cases h
          exact absurd hbinds.1 hdeclarator
        · rcases hcallback call hfirst with ⟨args, hargs, hkind, -⟩
          rw [hparent] at hargs
          cases hargs
          exact absurd hkind harguments

theorem name?_eq_some_iff {tree : Tree} {fn : Place} {name : String}
    (hfn : Place.Contains ⟨tree, []⟩ fn) : name? fn = some name ↔ KnownAs fn name := by
  rw [name?, Option.or_eq_some_iff, ownName?_eq_some_iff, ownName?_eq_none_iff,
    positionName?_eq_some_iff hfn]
  constructor
  · rintro (declares | ⟨anonymous, ⟨declarator, parent, binds⟩ | ⟨call, declarator, h⟩⟩)
    · exact .own declares
    · exact .bound anonymous parent binds
    · exact .callback anonymous h.1 h.2.1 h.2.2.1 h.2.2.2
  · intro h
    cases h with
    | own declares => exact .inl declares
    | bound anonymous parent binds => exact .inr ⟨anonymous, .inl ⟨_, parent, binds⟩⟩
    | callback anonymous wraps first parent binds =>
      exact .inr ⟨anonymous, .inr ⟨_, _, wraps, first, parent, binds⟩⟩

theorem enclosingFunction?_eq_some_iff {p fn : Place} :
    enclosingFunction? p = some fn ↔ NearestFunction p fn := by
  rw [enclosingFunction?, List.find?_eq_some_iff_append, NearestFunction]
  constructor
  · rintro ⟨hfn, inner, outer, happend, hinner⟩
    exact ⟨inner, outer, happend, hfn, fun q hq => by simpa using hinner q hq⟩
  · rintro ⟨inner, outer, happend, hfn, hinner⟩
    exact ⟨hfn, inner, outer, happend, fun q hq => by simpa using hinner q hq⟩

theorem NearestFunction.mem_ancestors {p fn : Place} (h : NearestFunction p fn) :
    fn ∈ p.ancestors := by
  rcases h with ⟨inner, outer, happend, -⟩
  rw [happend]
  exact List.mem_append_right inner List.mem_cons_self

/-! ## Calls of setters -/

/-- The handler around a node and the setter that it calls, when it calls one. -/
def setting? (states : List StatePair) (p : Place) : Option (String × String) :=
  (bareCall? p).bind (setterCall? (states.map (·.setterName)))

theorem setting?_eq_some_iff {tree : Tree} {states : List StatePair} {p : Place}
    {handler setter : String} (hp : Place.Contains ⟨tree, []⟩ p) :
    setting? states p = some (handler, setter) ↔ Sets states p handler setter := by
  have hname : ∀ fn, NearestFunction p fn → (name? fn = some handler ↔ KnownAs fn handler) :=
    fun fn hfn => name?_eq_some_iff (hp.of_mem_ancestors hfn.mem_ancestors)
  simp only [setting?, setterCall?, Option.bind_eq_bind, Option.bind_eq_some_iff,
    bareCall?_eq_some_iff, Option.guard_eq_some', enclosingFunction?_eq_some_iff, exists_const,
    List.mem_map]
  constructor
  · rintro ⟨⟨name, place⟩, ⟨rfl, hcall⟩, hsetter, fn, hfn, handler', hhandler, heq⟩
    cases heq
    exact ⟨hcall, hsetter, fn, hfn, (hname fn hfn).mp hhandler⟩
  · rintro ⟨hcall, hsetter, fn, hfn, hhandler⟩
    exact ⟨(setter, p), ⟨rfl, hcall⟩, hsetter, fn, hfn, handler, (hname fn hfn).mpr hhandler, rfl⟩

/-- A call sets at most one state, for at most one handler. -/
theorem Sets.unique {tree : Tree} {states : List StatePair} {p : Place}
    {handler handler' setter setter' : String} (hp : Place.Contains ⟨tree, []⟩ p)
    (h : Sets states p handler setter) (h' : Sets states p handler' setter') :
    handler = handler' ∧ setter = setter' := by
  have heq : some (handler, setter) = some (handler', setter') :=
    ((setting?_eq_some_iff hp).mpr h).symm.trans ((setting?_eq_some_iff hp).mpr h')
  exact Prod.mk.inj (Option.some.inj heq)

-- One more call changes the groups as it changes the map that is built.
theorem record_groups (pairs : List (String × String)) (call : String × String) :
    record (Keyed.groups pairs) call = Keyed.groups (pairs ++ [call]) := by
  rcases call with ⟨handler, setter⟩
  rw [record, Keyed.groups_get?, ← eraseDups_concat, Keyed.groups,
    Keyed.put_table (nodup_eraseDups _), ← eraseDups_concat, Keyed.groups, List.map_append,
    List.map_singleton]
  refine List.map_congr_left fun name _ => ?_
  rw [List.filter_append, List.filter_singleton]
  by_cases h : name = handler
  · subst h
    simp
  · simp [h, Ne.symm h]

theorem foldl_record (done pairs : List (String × String)) :
    pairs.foldl record (Keyed.groups done) = Keyed.groups (done ++ pairs) := by
  induction pairs generalizing done with
  | nil => rw [List.append_nil, List.foldl_nil]
  | cons call pairs ih =>
    rw [List.foldl_cons, record_groups, ih, List.append_assoc, List.singleton_append]

theorem setterMap_eq_groups (states : List StatePair) (places : List Place) :
    setterMap states (places.filterMap bareCall?) =
      Keyed.groups (places.filterMap (setting? states)) := by
  rw [setterMap, List.filterMap_filterMap]
  exact foldl_record [] _

end Handler

namespace Analysis

/-- The map of a component groups the calls of its setters, taken in the order of the document, by
the handlers that they are in. -/
theorem setters_of_handlers {path : String} {tree : Tree} {c : Component}
    (analysed : (Report.ofTree path tree).outcome = .ok c) :
    ∃ (calls : List Place) (pairs : List (String × String)),
      calls.Pairwise Place.Precedes ∧
      (∀ p, p ∈ calls ↔ InScope tree p ∧ ∃ handler setter, Handler.Sets c.states p handler setter) ∧
      List.Forall₂ (fun call pair => Handler.Sets c.states call pair.1 pair.2) calls pairs ∧
      c.eventToSetterMap = Keyed.groups pairs ∧ c.eventToSetterMap.names.Nodup ∧
      ∀ handler setters, (handler, setters) ∈ c.eventToSetterMap →
        setters ≠ [] ∧ setters.Nodup := by
  rcases report_collected analysed with ⟨facts, props, collected, rfl⟩
  -- The states are those of the whole walk, wherever they were met.
  let setting := Handler.setting? facts.states
  have hmap : Handler.setterMap facts.states facts.calls =
      Keyed.groups ((scopeNodes tree).filterMap setting) := by
    rw [collected.calls, List.nil_append, Handler.setterMap_eq_groups]
  have hsets : ∀ p ∈ scopeNodes tree, ∀ pair, setting p = some pair ↔
      Handler.Sets facts.states p pair.1 pair.2 := fun p hp _ =>
    Handler.setting?_eq_some_iff (mem_scopeNodes_iff.mp hp).contains
  refine ⟨(scopeNodes tree).filter fun p => (setting p).isSome, (scopeNodes tree).filterMap setting,
    (scopeNodes_pairwise tree).filter _, fun p => ?_, ?_, hmap, ?_, ?_⟩
  · rw [List.mem_filter, mem_scopeNodes_iff, Option.isSome_iff_exists]
    refine and_congr_right fun hp => ?_
    simp only [hsets p (mem_scopeNodes_iff.mpr hp), Prod.exists]
    rfl
  · exact forall₂_filterMap fun p hp pair => (hsets p hp pair).mp
  · change (Handler.setterMap facts.states facts.calls).names.Nodup
    rw [hmap, Keyed.groups_names]
    exact nodup_eraseDups _
  · intro handler setters h
    change _ ∈ Handler.setterMap facts.states facts.calls at h
    rw [hmap] at h
    exact Keyed.groups_values h

/-- A file in which an arrow and the component itself set a state that is declared after them. -/
def handlerSource : Tree := Grammar.treeOf .markup <| .ofGlyphs <| Glyph.ofText
  "function A(){var h=()=>s(s(1)),[v,s]=useState();s(2)}export default A"

theorem setters_of_handlerSource :
    ∃ c, (Report.ofTree "A.tsx" handlerSource).outcome = .ok c ∧
      c.eventToSetterMap = [("h", ["s"]), ("A", ["s"])] ∧
      ∃ (calls : List Place) (pairs : List (String × String)),
        (∀ p, p ∈ calls ↔
          InScope handlerSource p ∧ ∃ handler setter, Handler.Sets c.states p handler setter) ∧
        List.Forall₂ (fun call pair => Handler.Sets c.states call pair.1 pair.2) calls pairs ∧
        c.eventToSetterMap = Keyed.groups pairs := by
  have hmap : (Report.ofTree "A.tsx" handlerSource).outcome.toOption.map (·.eventToSetterMap) =
      some [("h", ["s"]), ("A", ["s"])] := by decide +kernel
  obtain ⟨c, hc, hrecorded⟩ := exists_of_toOption_map hmap
  rcases setters_of_handlers hc with ⟨calls, pairs, -, hmem, hpairs, hgroups, -⟩
  exact ⟨c, hc, hrecorded, calls, pairs, hmem, hpairs, hgroups⟩

end Analysis

end SuiteDraft
