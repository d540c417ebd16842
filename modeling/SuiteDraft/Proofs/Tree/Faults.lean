import SuiteDraft.Analysis.Report

/-!
# The first fault of a tree

The search for a fault enters no node without one, and yet finds the first fault of all: the first in
the order in which each node, named or not, stands before its own children. A tree is rejected just
when there is a fault in it, and at the first one; where nodes lie in the source as they do in the
tree, no fault starts before it.
-/

namespace SuiteDraft

namespace Position

/-- A position comes no later in a source than another. -/
instance : LE Position := ⟨fun p q => p.row < q.row ∨ p.row = q.row ∧ p.column ≤ q.column⟩

instance (p q : Position) : Decidable (p ≤ q) := inferInstanceAs (Decidable (_ ∨ _))

theorem le_refl (p : Position) : p ≤ p := .inr ⟨rfl, Nat.le_refl _⟩

theorem le_trans {p q r : Position} (h : p ≤ q) (h' : q ≤ r) : p ≤ r := by
  have first : p.row < q.row ∨ p.row = q.row ∧ p.column ≤ q.column := h
  have second : q.row < r.row ∨ q.row = r.row ∧ q.column ≤ r.column := h'
  show p.row < r.row ∨ p.row = r.row ∧ p.column ≤ r.column
  omega

end Position

namespace Tree

/-! ## All nodes of a tree -/

mutual

/-- A node and all nodes below it, named or not, each before its own children. -/
def preorder : Tree → List Tree
  | node l cs => node l cs :: preorderIn cs

/-- The nodes of several trees, one tree after the other. -/
def preorderIn : List Tree → List Tree
  | [] => []
  | c :: cs => preorder c ++ preorderIn cs

end

theorem preorderIn_eq_flatMap (cs : List Tree) : preorderIn cs = cs.flatMap preorder := by
  induction cs with
  | nil => rfl
  | cons c cs ih => rw [preorderIn, ih, List.flatMap_cons]

theorem preorder_eq (t : Tree) : t.preorder = t :: t.children.flatMap preorder := by
  cases t with
  | node l cs => rw [preorder, preorderIn_eq_flatMap, children]

mutual

/-- The mark of a node tells whether there is a fault at or below it. -/
theorem hasFault_eq_any : ∀ t : Tree, t.hasFault = t.preorder.any isFault
  | node l cs => by rw [hasFault, preorder, List.any_cons, hasFaultIn_eq_any cs]

theorem hasFaultIn_eq_any : ∀ cs : List Tree, hasFaultIn cs = (preorderIn cs).any isFault
  | [] => rfl
  | c :: cs => by
    rw [hasFaultIn, preorderIn, List.any_append, hasFault_eq_any c, hasFaultIn_eq_any cs]

end

theorem hasFault_iff {t : Tree} :
    t.hasFault = true ↔ ∃ fault ∈ t.preorder, fault.isFault = true := by
  rw [hasFault_eq_any, List.any_eq_true]

/-! ## The search -/

/-- Searching a stack is searching all nodes of its trees, one tree after the other. -/
theorem searchFault?_eq_find? (stack : List Tree) :
    searchFault? stack = (stack.flatMap preorder).find? isFault := by
  -- The invariant is the right side itself: the nodes that are still to be looked at, in order.
  induction stack using searchFault?.induct with
  | case1 => rw [searchFault?, List.flatMap_nil, List.find?_nil]
  | case2 t stack isFault =>
    rw [searchFault?, if_pos isFault, List.flatMap_cons, preorder_eq, List.cons_append,
      List.find?_cons_of_pos isFault]
  | case3 t stack notFault hasFault ih =>
    rw [searchFault?, if_neg notFault, if_pos hasFault, ih, List.flatMap_append, List.flatMap_cons,
      preorder_eq, List.cons_append, List.find?_cons_of_neg notFault]
  | case4 t stack notFault noFault ih =>
    -- What is left out holds no fault, for its mark would tell.
    have none_found : t.preorder.find? isFault = none := by
      rw [List.find?_eq_none]
      intro x mem fault
      exact noFault (hasFault_iff.mpr ⟨x, mem, fault⟩)
    rw [searchFault?, if_neg notFault, if_neg noFault, ih, List.flatMap_cons, List.find?_append,
      none_found, Option.none_or]

theorem firstFault?_eq_find? (t : Tree) : t.firstFault? = t.preorder.find? isFault := by
  rw [firstFault?, searchFault?_eq_find?, List.flatMap_singleton]

theorem firstFault?_eq_none_iff {t : Tree} : t.firstFault? = none ↔ t.hasFault = false := by
  rw [firstFault?_eq_find?, List.find?_eq_none, hasFault_eq_any, List.any_eq_false]

/-- The position of a fault is that of the first fault, and never that of the tree for want of one. -/
theorem faultPosition?_eq (t : Tree) : t.faultPosition? = t.firstFault?.map (·.label.start) := by
  unfold faultPosition?
  cases found : t.firstFault? with
  | none => rw [firstFault?_eq_none_iff.mp found, if_neg Bool.false_ne_true, Option.map_none]
  | some fault =>
    have marked : t.hasFault = true := by
      rw [← Bool.not_eq_false, ← firstFault?_eq_none_iff, found]
      exact Option.some_ne_none fault
    rw [if_pos marked, Option.getD_some, Option.map_some]

/-! ## Faults and positions -/

mutual

/-- A tree can end at the position `stop`: between its start and there its children lie one after the
other, each of them with an end of its own. -/
def SpansTo : Tree → Position → Prop
  | node l cs, stop => LieBetween cs l.start stop

/-- Trees lie between two positions, one after the other. -/
def LieBetween : List Tree → Position → Position → Prop
  | [], start, stop => start ≤ stop
  | c :: cs, start, stop =>
    start ≤ c.label.start ∧ ∃ middle, SpansTo c middle ∧ LieBetween cs middle stop

end

mutual

theorem SpansTo.within : ∀ {t : Tree} {stop : Position}, t.SpansTo stop →
    ∀ x ∈ t.preorder, t.label.start ≤ x.label.start ∧ x.label.start ≤ stop
  | node l cs, stop, spans => by
    rw [SpansTo] at spans
    have ⟨start_le, below⟩ := LieBetween.within spans
    rw [preorder, List.forall_mem_cons]
    exact ⟨⟨Position.le_refl l.start, start_le⟩, below⟩

theorem LieBetween.within : ∀ {cs : List Tree} {start stop : Position}, LieBetween cs start stop →
    start ≤ stop ∧ ∀ x ∈ preorderIn cs, start ≤ x.label.start ∧ x.label.start ≤ stop
  | [], start, stop, lie => by
    rw [LieBetween] at lie
    exact ⟨lie, fun x mem => absurd mem List.not_mem_nil⟩
  | c :: cs, start, stop, lie => by
    rw [LieBetween] at lie
    obtain ⟨start_le, middle, spans, lie⟩ := lie
    have first := SpansTo.within spans
    have ⟨middle_le, others⟩ := LieBetween.within lie
    have le_middle : start ≤ middle := by
      have ⟨_, upper⟩ := first c (by rw [preorder_eq]; exact List.mem_cons_self)
      exact Position.le_trans start_le upper
    refine ⟨Position.le_trans le_middle middle_le, ?_⟩
    rw [preorderIn, List.forall_mem_append]
    exact ⟨fun x mem => ⟨Position.le_trans start_le (first x mem).1,
      Position.le_trans (first x mem).2 middle_le⟩,
      fun x mem => ⟨Position.le_trans le_middle (others x mem).1, (others x mem).2⟩⟩

end

mutual

/-- In a tree that lies so, the order of the nodes is that of their positions. -/
theorem SpansTo.pairwise : ∀ {t : Tree} {stop : Position}, t.SpansTo stop →
    t.preorder.Pairwise fun x y => x.label.start ≤ y.label.start
  | node l cs, stop, spans => by
    rw [SpansTo] at spans
    have ⟨_, below⟩ := spans.within
    rw [preorder, List.pairwise_cons]
    exact ⟨fun x mem => (below x mem).1, LieBetween.pairwise spans⟩

theorem LieBetween.pairwise : ∀ {cs : List Tree} {start stop : Position}, LieBetween cs start stop →
    (preorderIn cs).Pairwise fun x y => x.label.start ≤ y.label.start
  | [], start, stop, lie => List.Pairwise.nil
  | c :: cs, start, stop, lie => by
    rw [LieBetween] at lie
    obtain ⟨_, middle, spans, lie⟩ := lie
    have ⟨_, others⟩ := lie.within
    rw [preorderIn, List.pairwise_append]
    refine ⟨SpansTo.pairwise spans, LieBetween.pairwise lie, fun x memFirst y memOthers => ?_⟩
    exact Position.le_trans (spans.within x memFirst).2 (others y memOthers).1

end

/-- Where nodes lie as they do in the tree, no fault starts before the first. -/
theorem SpansTo.le_of_isFault {t fault other : Tree} {stop : Position} (spans : t.SpansTo stop)
    (found : t.firstFault? = some fault) (mem : other ∈ t.preorder)
    (isFault : other.isFault = true) : fault.label.start ≤ other.label.start := by
  rw [firstFault?_eq_find?] at found
  have ⟨_, before, after, split, sound⟩ := List.find?_eq_some_iff_append.mp found
  have ordered := spans.pairwise
  rw [split] at ordered mem
  have ⟨_, ordered, _⟩ := List.pairwise_append.mp ordered
  rcases List.mem_append.mp mem with early | late
  · have notFault := sound other early
    rw [isFault] at notFault
    cases notFault
  · rcases List.mem_cons.mp late with rfl | late
    · exact Position.le_refl _
    · exact (List.pairwise_cons.mp ordered).1 other late

/-! ## Rejected trees -/

theorem outcome_ofTree_eq_rejected_iff {path : String} {t : Tree} {r : Rejection} :
    (Report.ofTree path t).outcome = .error (.rejected r) ↔
      ∃ fault, t.firstFault? = some fault ∧ r = ⟨path, .malformed fault.label.start⟩ := by
  unfold Report.ofTree
  rw [faultPosition?_eq]
  cases t.firstFault? with
  | some fault =>
    show Except.error (Failure.rejected ⟨path, .malformed fault.label.start⟩) = _ ↔ _
    simp [eq_comm]
  | none =>
    have never (x : Except LiteralError Component) :
        x.mapError Failure.literal ≠ .error (.rejected r) := by
      cases x <;> exact nofun
    exact ⟨fun rejected => absurd rejected (never _), nofun⟩

/-- The search finds the first of all faults, and nothing just when the tree is not marked. A tree is
rejected just when there is a fault in it, at the position of the first one; and where nodes lie in
the source as they do in the tree, no fault starts before that position. -/
theorem rejected_at_first_fault (path : String) (t : Tree) :
    t.firstFault? = t.preorder.find? isFault ∧
      (t.firstFault? = none ↔ t.hasFault = false) ∧
      ((∃ r, (Report.ofTree path t).outcome = .error (.rejected r)) ↔
        ∃ fault ∈ t.preorder, fault.isFault = true) ∧
      ∀ r, (Report.ofTree path t).outcome = .error (.rejected r) →
        ∃ fault, t.firstFault? = some fault ∧ r = ⟨path, .malformed fault.label.start⟩ ∧
          ∀ stop, t.SpansTo stop → ∀ other ∈ t.preorder, other.isFault = true →
            fault.label.start ≤ other.label.start := by
  refine ⟨firstFault?_eq_find? t, firstFault?_eq_none_iff, ?_, fun r rejected => ?_⟩
  · rw [← hasFault_iff, ← Bool.not_eq_false, ← firstFault?_eq_none_iff, ← ne_eq,
      Option.ne_none_iff_exists']
    constructor
    · rintro ⟨r, rejected⟩
      have ⟨fault, found, _⟩ := outcome_ofTree_eq_rejected_iff.mp rejected
      exact ⟨fault, found⟩
    · rintro ⟨fault, found⟩
      exact ⟨_, outcome_ofTree_eq_rejected_iff.mpr ⟨fault, found, rfl⟩⟩
  · have ⟨fault, found, r_eq⟩ := outcome_ofTree_eq_rejected_iff.mp rejected
    exact ⟨fault, found, r_eq, fun stop spans other mem isFault => spans.le_of_isFault found mem isFault⟩

/-- A call without its closing bracket, and on the next line a fault within a fault. -/
def unclosedCall : Tree :=
  .node { kind := .program } [
    .node { kind := .callExpression } [
      .node { kind := .identifier, field := some .function, text := "f" } [],
      .node { kind := .arguments, field := some .arguments, start := ⟨0, 1⟩ } [
        .node { kind := .other "(", named := false, start := ⟨0, 1⟩ } [],
        .node { kind := .other ")", named := false, missing := true, start := ⟨0, 2⟩ } []]],
    .node { kind := .fault, start := ⟨1, 0⟩ } [.node { kind := .fault, start := ⟨1, 1⟩ } []]]

theorem rejected_unclosedCall : unclosedCall.SpansTo ⟨1, 2⟩ ∧
    (Report.ofTree "A.tsx" unclosedCall).outcome = .error (.rejected ⟨"A.tsx", .malformed ⟨0, 2⟩⟩) ∧
    ∀ other ∈ unclosedCall.preorder, other.isFault = true → (⟨0, 2⟩ : Position) ≤ other.label.start := by
  have spans : unclosedCall.SpansTo ⟨1, 2⟩ := by
    simp only [unclosedCall, SpansTo, LieBetween]
    -- Each node with its end: the call and what it holds, then the line of faults.
    refine ⟨?_, ⟨0, 2⟩, ⟨?_, ⟨0, 1⟩, ?_, ?_, ⟨0, 2⟩, ⟨?_, ⟨0, 2⟩, ?_, ?_, ⟨0, 2⟩, ?_, ?_⟩, ?_⟩,
      ?_, ⟨1, 2⟩, ⟨?_, ⟨1, 2⟩, ?_, ?_⟩, ?_⟩ <;> decide
  have rejected : (Report.ofTree "A.tsx" unclosedCall).outcome =
      .error (.rejected ⟨"A.tsx", .malformed ⟨0, 2⟩⟩) := by
    have position : unclosedCall.faultPosition? = some ⟨0, 2⟩ := by decide +kernel
    rw [Report.ofTree, position]
  refine ⟨spans, rejected, ?_⟩
  have ⟨_, _, _, atFirst⟩ := rejected_at_first_fault "A.tsx" unclosedCall
  have ⟨fault, _, position, least⟩ := atFirst _ rejected
  have start_eq : fault.label.start = ⟨0, 2⟩ := by
    injection position with _ cause
    injection cause with start_eq
    exact start_eq.symm
  rw [← start_eq]
  exact least _ spans

end Tree

end SuiteDraft
