import SuiteDraft.Proofs.Analysis.Readings
import SuiteDraft.Proofs.Analysis.Handlers

/-!
# Places that tell the same

Two places are twins when their nodes are alike and the ways up from them correspond, as far as
anything there gives a name. What an analysis finds from twins downwards are twins, and the function
around a call and its name, which it looks for upwards, are the same.
-/

namespace SuiteDraft

open SuiteDraft.Tree (Alike HidesComments)

variable {hidden : Kind → Bool}

namespace Place

/-- The children of a node that are not hidden, in their places. -/
def shown (hidden : Kind → Bool) (p : Place) : List Place :=
  p.children.filter fun c => !hidden c.kind

/-- Nothing but the file and an export stands above a place. -/
def Outermost (p : Place) : Prop :=
  ∀ f ∈ p.above, f.parent.kind = .program ∨ f.parent.kind = .exportStatement

/-- Places with nodes that are alike, reached by the same way from outermost ones. -/
inductive Twins (hidden : Kind → Bool) : Place → Place → Prop
  | outermost {p p' : Place} (alike : p.node.Alike hidden p'.node) (above : p.Outermost)
      (above' : p'.Outermost) : Twins hidden p p'
  | child {p p' c c' : Place} (parents : Twins hidden p p')
      (pair : (c, c') ∈ (p.shown hidden).zip (p'.shown hidden)) : Twins hidden c c'

/-! ## Pairs of children -/

theorem node_shown (p : Place) : (p.shown hidden).map (·.node) = p.node.shown hidden := by
  rw [shown, Tree.shown, ← node_children, List.filter_map]
  rfl

theorem mem_children_of_mem_shown {p c : Place} (h : c ∈ p.shown hidden) : c ∈ p.children :=
  List.mem_of_mem_filter h

theorem contains_of_mem_shown {p c : Place} (h : c ∈ p.shown hidden) : p.Contains c :=
  .of_mem_children (mem_children_of_mem_shown h)

theorem shown_nodup (p : Place) : (p.shown hidden).Nodup :=
  ((childrenFrom_pairwise p.node p.above 0 p.node.children).imp
    fun h => (Precedes.of_turnsOffBefore h).ne).filter _

theorem pair_nodes {p p' c c' : Place} (h : (c, c') ∈ (p.shown hidden).zip (p'.shown hidden)) :
    (c.node, c'.node) ∈ (p.node.shown hidden).zip (p'.node.shown hidden) := by
  rw [← node_shown, ← node_shown, List.zip_map]
  exact List.mem_map_of_mem h

theorem node_mem_children {p c : Place} (h : c ∈ p.children) : c.node ∈ p.node.children := by
  rw [← node_children]
  exact List.mem_map_of_mem h

/-- Hidden children are not found by what is false of comments. -/
theorem children_filter_eq {p : Place} (h : HidesComments hidden p.node) {q : Tree → Bool}
    (hq : ∀ c, c.kind = .comment → c.label.field = none → q c = false) :
    (p.children.filter fun c => q c.node) = (p.shown hidden).filter fun c => q c.node := by
  rw [shown, List.filter_filter]
  refine List.filter_congr fun c hc => ?_
  cases hhidden : hidden c.kind with
  | false => rw [Bool.not_false, Bool.and_true]
  | true =>
    rcases h c.node (node_mem_children hc) hhidden with ⟨hkind, hfield, -⟩
    rw [hq c.node hkind hfield]
    rfl

namespace Twins

variable {p p' : Place}

theorem alike (h : Twins hidden p p') : p.node.Alike hidden p'.node := by
  induction h with
  | outermost alike => exact alike
  | child _ pair ih => exact ih.children _ _ (pair_nodes pair)

/-- The children that are shown correspond, with their fields. -/
theorem shown (h : Twins hidden p p') :
    List.Forall₂ (fun c c' => (c, c') ∈ (p.shown hidden).zip (p'.shown hidden) ∧
      c.node.label.field = c'.node.label.field ∧ c.node.named = c'.node.named ∧
      Twins hidden c c') (p.shown hidden) (p'.shown hidden) := by
  have hlength : (p.shown hidden).length = (p'.shown hidden).length := by
    rw [← List.length_map (f := fun c : Place => c.node), node_shown,
      h.alike.shown.length_eq, ← node_shown, List.length_map]
  rw [List.forall₂_iff_zip]
  refine ⟨hlength, fun {c c'} hc => ?_⟩
  have hnodes := List.forall₂_zip h.alike.shown (pair_nodes hc)
  exact ⟨hc, hnodes.2.1, hnodes.2.2.1, .child h hc⟩

theorem filter_shown (h : Twins hidden p p') {q : Tree → Bool}
    (hq : ∀ c c' : Tree, c.named = c'.named → c.kind = c'.kind → q c = q c') :
    List.Forall₂ (fun c c' => (c, c') ∈ (p.shown hidden).zip (p'.shown hidden) ∧ Twins hidden c c')
      ((p.shown hidden).filter fun c => q c.node) ((p'.shown hidden).filter fun c => q c.node) :=
  (forall₂_filter (fun c c' hc => hq c.node c'.node hc.2.2.1 hc.2.2.2.alike.kind) h.shown).imp
    fun _ _ hc => ⟨hc.1.1, hc.1.2.2.2⟩

theorem pair_child? (h : Twins hidden p p') (f : Field) :
    Option.Rel (fun c c' => (c, c') ∈ (p.shown hidden).zip (p'.shown hidden) ∧ Twins hidden c c')
      (p.child? f) (p'.child? f) := by
  have hfield : ∀ c : Tree, c.kind = .comment → c.label.field = none →
      (c.label.field == some f) = false := fun c _ hc => by rw [hc]; rfl
  rw [Place.child?, Place.child?, ← List.head?_filter, ← List.head?_filter,
    children_filter_eq h.alike.hides.1 hfield, children_filter_eq h.alike.hides.2 hfield]
  refine forall₂_head? ((forall₂_filter (fun c c' hc => ?_) h.shown).imp
    fun _ _ hc => ⟨hc.1.1, hc.1.2.2.2⟩)
  rw [hc.2.1]

theorem child? (h : Twins hidden p p') (f : Field) :
    Option.Rel (Twins hidden) (p.child? f) (p'.child? f) := by
  rcases rel_cases (h.pair_child? f) with ⟨hc, hc'⟩ | ⟨c, c', hc, hc', -, htwins⟩
  · rw [hc, hc']
    exact .none
  · rw [hc, hc']
    exact .some htwins

theorem pair_meaningful (h : Twins hidden p p') :
    List.Forall₂ (fun c c' => (c, c') ∈ (p.shown hidden).zip (p'.shown hidden) ∧ Twins hidden c c')
      p.meaningful p'.meaningful := by
  have hcomment : ∀ c : Tree, c.kind = .comment → c.label.field = none → c.isMeaningful = false :=
    fun c hc _ => by rw [Tree.isMeaningful, hc, bne_self_eq_false, Bool.and_false]
  rw [Place.meaningful, Place.meaningful, children_filter_eq h.alike.hides.1 hcomment,
    children_filter_eq h.alike.hides.2 hcomment]
  exact h.filter_shown fun c c' hn hk => by rw [Tree.isMeaningful, Tree.isMeaningful, hn, hk]

theorem namedChildren_shown (h : Twins hidden p p') :
    List.Forall₂ (Twins hidden) (p.namedChildren.filter fun c => !hidden c.kind)
      (p'.namedChildren.filter fun c => !hidden c.kind) := by
  have hnamed : ∀ q : Place, (q.namedChildren.filter fun c => !hidden c.kind) =
      (q.shown hidden).filter fun c => c.node.named := by
    intro q
    rw [Place.namedChildren, Place.shown, List.filter_filter, List.filter_filter]
    exact List.filter_congr fun c _ => Bool.and_comm _ _
  rw [hnamed, hnamed]
  exact (h.filter_shown fun _ _ hn _ => hn).imp fun _ _ hc => hc.2

theorem pair_callArguments (h : Twins hidden p p') :
    List.Forall₂ (fun c c' => (∃ args args', (args, args') ∈ (p.shown hidden).zip (p'.shown hidden) ∧
      (c, c') ∈ (args.shown hidden).zip (args'.shown hidden)) ∧ Twins hidden c c')
      p.callArguments p'.callArguments := by
  unfold Place.callArguments
  rcases rel_cases (h.pair_child? .arguments) with ⟨hc, hc'⟩ | ⟨args, args', hc, hc', hpair, hargs⟩
  · rw [hc, hc']
    exact .nil
  · have hkind : args.kind = args'.kind := hargs.alike.kind
    rw [hc, hc']
    dsimp only
    rw [← hkind]
    split
    · exact hargs.pair_meaningful.imp fun _ _ hc => ⟨⟨args, args', hpair, hc.1⟩, hc.2⟩
    · exact .nil

theorem callArguments (h : Twins hidden p p') :
    List.Forall₂ (Twins hidden) p.callArguments p'.callArguments :=
  h.pair_callArguments.imp fun _ _ hc => hc.2

theorem wrappedFunction? (h : Twins hidden p p') :
    Option.Rel (Twins hidden) p.wrappedFunction? p'.wrappedFunction? := by
  have hkind : p.kind = p'.kind := h.alike.kind
  unfold Place.wrappedFunction?
  rw [← hkind]
  split
  · exact .some h
  · split
    · match p.callArguments, p'.callArguments, h.callArguments with
      | [], [], .nil => exact .none
      | first :: _, first' :: _, .cons hfirst _ =>
        have hfirstKind : first.kind = first'.kind := hfirst.alike.kind
        dsimp only
        rw [← hfirstKind]
        split
        · exact .some hfirst
        · exact .none
    · exact .none

/-! ## Enumerations -/

/-- A hidden child stands alone in what is enumerated. -/
theorem nodes_of_hidden (h : HidesComments hidden p.node) {c : Place} (hc : c ∈ p.namedChildren)
    (hhidden : hidden c.kind = true) : c.nodes = [c] := by
  rcases h c.node (node_mem_children (mem_children_of_mem_namedChildren hc)) hhidden with
    ⟨-, -, hchildren, -⟩
  rw [nodes_eq, namedChildren, children, hchildren]
  rfl

theorem nodes_filter (h : HidesComments hidden p.node) :
    (p.nodes.filter fun q => !hidden q.kind) = ([p].filter fun q => !hidden q.kind) ++
      (p.namedChildren.filter fun c => !hidden c.kind).flatMap fun c =>
        c.nodes.filter fun q => !hidden q.kind := by
  have hchildren : ∀ c ∈ p.namedChildren, (!hidden c.kind) = false →
      (c.nodes.filter fun q => !hidden q.kind) = [] := by
    intro c hc hkept
    rw [nodes_of_hidden h hc (by simpa using hkept), List.filter_singleton, hkept]
    rfl
  rw [nodes_eq, ← List.singleton_append, List.filter_append, List.filter_flatMap,
    flatMap_filter_eq hchildren]

/-- The nodes below twins that are not hidden are twins, one by one. -/
theorem nodes (h : Twins hidden p p') :
    List.Forall₂ (Twins hidden) (p.nodes.filter fun q => !hidden q.kind)
      (p'.nodes.filter fun q => !hidden q.kind) := by
  induction p using Place.induction generalizing p' with
  | step p ih =>
    rw [nodes_filter h.alike.hides.1, nodes_filter h.alike.hides.2]
    refine List.rel_append ?_ (forall₂_flatMap (fun c hc c' hcc' => ?_) h.namedChildren_shown)
    · have hself : List.Forall₂ (Twins hidden) [p] [p'] := .cons h .nil
      refine (forall₂_filter (fun q q' hq => ?_) hself).imp fun _ _ hq => hq.1
      exact congrArg (!hidden ·) hq.alike.kind
    · exact ih c (List.mem_of_mem_filter hc) hcc'

end Twins

end Place

open Place (Twins)

variable {p p' : Place}

/-! ## Definitions -/

namespace Location

theorem definition?_rel (name : String) (h : Twins hidden p p') :
    Option.Rel (Twins hidden) (definition? name p) (definition? name p') := by
  have hkind : p.kind = p'.kind := h.alike.kind
  unfold definition?
  rw [← hkind]
  split
  · rename_i hdeclaration
    rw [h.alike.names.ofFunction (Kind.isFunction_of_isFunctionDeclaration hdeclaration)]
    split
    · exact .some h
    · exact .none
  · split
    · rcases h.alike.child?_cases .name with ⟨hn, hn'⟩ | ⟨binding, binding', hn, hn', hbinding⟩
      · rw [hn, hn']
        exact .none
      · rw [hn, hn']
        dsimp only
        by_cases hidentifier : binding.kind = .identifier
        · rw [← hbinding.kind, hbinding.text (by rw [hidentifier]; rfl)]
          split
          · rcases rel_cases (h.child? .value) with ⟨hv, hv'⟩ | ⟨value, value', hv, hv', hvalue⟩
            · rw [hv, hv']
              exact .none
            · rw [hv, hv']
              exact hvalue.wrappedFunction?
          · exact .none
        · rw [if_neg (by simp [hidentifier]), if_neg (by simp [← hbinding.kind, hidentifier])]
          exact .none
    · exact .none

theorem definitions_of_hidden (name : String) (h : HidesComments hidden p.node) {c : Place}
    (hc : c ∈ p.namedChildren) (hhidden : hidden c.kind = true) : definitions name c = [] := by
  rcases h c.node (Place.node_mem_children (Place.mem_children_of_mem_namedChildren hc)) hhidden with
    ⟨hkind, -, hchildren, -⟩
  have hnone : definition? name c = none := by
    change c.kind = .comment at hkind
    rw [definition?, hkind]
    rfl
  rw [definitions_eq_flatMap hnone, Place.namedChildren, Place.children, hchildren]
  rfl

/-- What the search for definitions finds below twins are twins. -/
theorem definitions_rel (name : String) (h : Twins hidden p p') :
    List.Forall₂ (Twins hidden) (definitions name p) (definitions name p') := by
  induction p using Place.induction generalizing p' with
  | step p ih =>
    rcases rel_cases (definition?_rel name h) with ⟨hd, hd'⟩ | ⟨fn, fn', hd, hd', hfn⟩
    · have hshown : ∀ q : Place, HidesComments hidden q.node →
          q.namedChildren.flatMap (definitions name) =
            (q.namedChildren.filter fun c => !hidden c.kind).flatMap (definitions name) :=
        fun q hq => (flatMap_filter_eq fun c hc hkept =>
          definitions_of_hidden name hq hc (by simpa using hkept)).symm
      rw [definitions_eq_flatMap hd, definitions_eq_flatMap hd', hshown p h.alike.hides.1,
        hshown p' h.alike.hides.2]
      exact forall₂_flatMap (fun c hc c' hcc' => ih c (List.mem_of_mem_filter hc) hcc')
        h.namedChildren_shown
    · rw [definitions_eq_singleton hd, definitions_eq_singleton hd']
      exact .cons hfn .nil

end Location

/-! ## Names from above -/

namespace Place

theorem Outermost.kind_of_mem_ancestors (h : p.Outermost) {q : Place} (hq : q ∈ p.ancestors) :
    q.kind = .program ∨ q.kind = .exportStatement := by
  rcases p with ⟨node, above⟩
  induction above with
  | nil => cases hq
  | cons f above ih =>
    rcases List.mem_cons.mp hq with rfl | hq
    · exact h f List.mem_cons_self
    · exact ih (fun g hg => h g (List.mem_cons_of_mem f hg)) hq

theorem Outermost.kind_of_parent? (h : p.Outermost) {q : Place} (hq : p.parent? = some q) :
    q.kind = .program ∨ q.kind = .exportStatement := by
  rcases p with ⟨node, _ | ⟨f, above⟩⟩
  · cases hq
  · cases hq
    exact h f List.mem_cons_self

theorem Twins.parent?_cases (h : Twins hidden p p') :
    (p.Outermost ∧ p'.Outermost) ∨ ∃ q q', p.parent? = some q ∧ p'.parent? = some q' ∧
      Twins hidden q q' ∧ (p, p') ∈ (q.shown hidden).zip (q'.shown hidden) := by
  cases h with
  | outermost _ above above' => exact .inl ⟨above, above'⟩
  | @child q q' _ _ parents pair =>
    rcases List.of_mem_zip pair with ⟨hp, hp'⟩
    exact .inr ⟨q, q', parent?_of_mem_children (mem_children_of_mem_shown hp),
      parent?_of_mem_children (mem_children_of_mem_shown hp'), parents, pair⟩

end Place

namespace Handler

theorem enclosingFunction?_rel (h : Twins hidden p p') :
    Option.Rel (fun fn fn' => Twins hidden fn fn' ∧ fn.kind.isFunction = true)
      (enclosingFunction? p) (enclosingFunction? p') := by
  have houtermost : ∀ {q : Place}, q.Outermost → enclosingFunction? q = none := by
    intro q hq
    refine List.find?_eq_none.mpr fun a ha => ?_
    rcases hq.kind_of_mem_ancestors ha with hkind | hkind <;> rw [hkind] <;> decide
  induction h with
  | outermost _ above above' =>
    rw [houtermost above, houtermost above']
    exact .none
  | @child p p' c c' parents pair ih =>
    rcases List.of_mem_zip pair with ⟨hc, hc'⟩
    have hkind : p.kind = p'.kind := parents.alike.kind
    rw [enclosingFunction?, enclosingFunction?,
      Place.ancestors_of_mem_children (Place.mem_children_of_mem_shown hc),
      Place.ancestors_of_mem_children (Place.mem_children_of_mem_shown hc'), List.find?_cons,
      List.find?_cons, ← hkind]
    cases hfunction : p.kind.isFunction with
    | true => exact .some ⟨parents, hfunction⟩
    | false => exact ih

theorem variableName?_eq {t t' : Tree} (h : Alike hidden t t') :
    variableName? t = variableName? t' := by
  unfold variableName?
  rcases h.child?_cases .name with ⟨hn, hn'⟩ | ⟨binding, binding', hn, hn', hbinding⟩
  · rw [hn, hn', h.kind]
  · rw [hn, hn', ← h.kind]
    dsimp only
    rw [← hbinding.kind]
    split
    · split
      · rename_i hidentifier
        rw [hbinding.text (by rw [hidentifier]; rfl)]
      · rfl
    · rfl

theorem variableName?_of_kind {t : Tree} (h : t.kind ≠ .variableDeclarator) :
    variableName? t = none := if_neg h

/-- The variable that twins initialise, when they initialise one, has one name. -/
theorem parentVariable_eq (h : Twins hidden p p') :
    p.parent?.bind (fun q => variableName? q.node) =
      p'.parent?.bind fun q => variableName? q.node := by
  have houtermost : ∀ {q : Place}, q.Outermost →
      q.parent?.bind (fun r => variableName? r.node) = none := by
    intro q hq
    refine Option.bind_eq_none_iff.mpr fun r hr => variableName?_of_kind ?_
    change r.kind ≠ _
    rcases hq.kind_of_parent? hr with hkind | hkind <;> rw [hkind] <;> decide
  rcases h.parent?_cases with ⟨above, above'⟩ | ⟨q, q', hq, hq', parents, -⟩
  · rw [houtermost above, houtermost above']
  · rw [hq, hq']
    exact variableName?_eq parents.alike

/-- A function is the first argument of a call when its twin is. -/
theorem isFirst_iff {call call' args args' fn fn' first first' : Place}
    (hargs : (args, args') ∈ (call.shown hidden).zip (call'.shown hidden))
    (hfn : (fn, fn') ∈ (args.shown hidden).zip (args'.shown hidden))
    (hfirst : ∃ a a', (a, a') ∈ (call.shown hidden).zip (call'.shown hidden) ∧
      (first, first') ∈ (a.shown hidden).zip (a'.shown hidden)) :
    first = fn ↔ first' = fn' := by
  rcases hfirst with ⟨a, a', ha, hfirst⟩
  have hparent : ∀ {q q' r : Place}, r ∈ q.shown hidden → r ∈ q'.shown hidden → q = q' := by
    intro q q' r hq hq'
    have hp := Place.parent?_of_mem_children (Place.mem_children_of_mem_shown hq)
    rw [Place.parent?_of_mem_children (Place.mem_children_of_mem_shown hq')] at hp
    exact (Option.some.inj hp).symm
  constructor
  · rintro rfl
    rcases hparent (List.of_mem_zip hfirst).1 (List.of_mem_zip hfn).1 with rfl
    rcases zip_right_unique (Place.shown_nodup call) ha hargs with rfl
    exact zip_right_unique (Place.shown_nodup a) hfirst hfn
  · rintro rfl
    rcases hparent (List.of_mem_zip hfirst).2 (List.of_mem_zip hfn).2 with rfl
    rcases zip_left_unique (Place.shown_nodup call') ha hargs with rfl
    exact zip_left_unique (Place.shown_nodup a') hfirst hfn

theorem address_eq_iff {root q r : Place} (hq : root.Contains q) (hr : root.Contains r) :
    q.address = r.address ↔ q = r :=
  ⟨fun h => hq.eq_of_path_eq hr (congrArg List.reverse h), fun h => by rw [h]⟩

theorem callbackName?_eq {args args' fn fn' : Place} (parents : Twins hidden args args')
    (hfn : (fn, fn') ∈ (args.shown hidden).zip (args'.shown hidden)) :
    callbackName? fn args = callbackName? fn' args' := by
  have houtermost : ∀ {q r : Place}, q.Outermost → callbackName? r q = none := by
    intro q r hq
    refine Option.bind_eq_none_iff.mpr fun call hcall => ?_
    have hno : call.node.isCallOf "useCallback" = false := by
      rw [Tree.isCallOf, Bool.and_eq_false_iff]
      refine .inl (beq_false_of_ne fun h => ?_)
      change call.kind = _ at h
      rcases hq.kind_of_parent? hcall with hkind | hkind <;> rw [hkind] at h <;> cases h
    rw [hno]
    rfl
  rcases parents.parent?_cases with ⟨above, above'⟩ | ⟨call, call', hcall, hcall', calls, hargs⟩
  · rw [houtermost above, houtermost above']
  · rcases List.of_mem_zip hargs with ⟨hshown, hshown'⟩
    rcases List.of_mem_zip hfn with ⟨hfnShown, hfnShown'⟩
    have hin : call.Contains fn :=
      (Place.contains_of_mem_shown hshown).trans (Place.contains_of_mem_shown hfnShown)
    have hin' : call'.Contains fn' :=
      (Place.contains_of_mem_shown hshown').trans (Place.contains_of_mem_shown hfnShown')
    simp only [callbackName?, hcall, hcall', Option.bind_eq_bind, Option.bind_some,
      calls.alike.isCallOf_eq]
    rcases rel_cases (forall₂_head? calls.pair_callArguments) with
      ⟨hf, hf'⟩ | ⟨first, first', hf, hf', hfirst, -⟩
    · rw [hf, hf']
      rfl
    · have haddress : first.address = fn.address ↔ first'.address = fn'.address := by
        rw [address_eq_iff (Place.contains_of_mem_callArguments (List.mem_of_mem_head? hf)) hin,
          address_eq_iff (Place.contains_of_mem_callArguments (List.mem_of_mem_head? hf')) hin']
        exact isFirst_iff hargs hfn hfirst
      have hvariable := parentVariable_eq calls
      simp only [hf, hf', Option.bind_some, haddress]
      rw [hvariable]

theorem positionName?_eq (h : Twins hidden p p') : positionName? p = positionName? p' := by
  have houtermost : ∀ {q : Place}, q.Outermost → positionName? q = none := by
    intro q hq
    refine Option.bind_eq_none_iff.mpr fun parent hparent => ?_
    rcases hq.kind_of_parent? hparent with hkind | hkind <;> rw [hkind] <;> rfl
  rcases h.parent?_cases with ⟨above, above'⟩ | ⟨q, q', hq, hq', parents, pair⟩
  · rw [houtermost above, houtermost above']
  · have hkind : q.kind = q'.kind := parents.alike.kind
    simp only [positionName?, hq, hq', Option.bind_eq_bind, Option.bind_some, hkind,
      variableName?_eq parents.alike, callbackName?_eq parents pair]

theorem name?_eq (h : Twins hidden p p') (function : p.kind.isFunction = true) :
    name? p = name? p' := by
  have hkind : p.node.kind = p'.node.kind := h.alike.kind
  rw [name?, name?, ownName?, ownName?, positionName?_eq h, h.alike.functionName_eq function, hkind]

theorem bareCall?_rel (h : Twins hidden p p') :
    Option.Rel (fun c c' => c.1 = c'.1 ∧ Twins hidden c.2 c'.2) (bareCall? p) (bareCall? p') := by
  have hkind : p.kind = p'.kind := h.alike.kind
  rw [bareCall?, bareCall?, ← hkind, ← h.alike.bareCallee?_eq]
  split
  · cases p.node.bareCallee? with
    | none => exact .none
    | some name => exact .some ⟨rfl, h⟩
  · exact .none

theorem setterCall?_eq (setters : List String) {c c' : String × Place}
    (h : c.1 = c'.1 ∧ Twins hidden c.2 c'.2) : setterCall? setters c = setterCall? setters c' := by
  rw [setterCall?, setterCall?, h.1]
  rcases rel_cases (enclosingFunction?_rel h.2) with ⟨hf, hf'⟩ | ⟨fn, fn', hf, hf', hfn, hfunction⟩
  · rw [hf, hf']
  · rw [hf, hf']
    simp only [Option.bind_eq_bind, Option.bind_some, name?_eq hfn hfunction]

theorem setterMap_eq (states : List StatePair) {calls calls' : List (String × Place)}
    (h : List.Forall₂ (fun c c' => c.1 = c'.1 ∧ Twins hidden c.2 c'.2) calls calls') :
    setterMap states calls = setterMap states calls' := by
  rw [setterMap, setterMap,
    filterMap_eq_of_forall₂ (fun _ _ => setterCall?_eq (states.map (·.setterName))) h]

end Handler

end SuiteDraft
