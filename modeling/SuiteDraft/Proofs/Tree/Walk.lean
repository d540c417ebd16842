import SuiteDraft.Proofs.Tree.Preorder

/-!
# What a walk visits

The stack of a walk always holds, from the top down, the subtrees that are still to be visited in
the order of the document. A walk therefore visits the nodes of its starts as the enumeration of
the document lists them, each once.
-/

namespace SuiteDraft

theorem ok_bind {ε α β : Type} (a : α) (f : α → Except ε β) : (Except.ok a >>= f) = f a := rfl

theorem exists_of_isOk {ε α : Type} {x : Except ε α} (h : x.isOk = true) : ∃ a, x = .ok a := by
  cases x with
  | error e => cases h
  | ok a => exact ⟨a, rfl⟩

theorem eq_ok_of_toOption {ε α : Type} {x : Except ε α} {a : α} (h : x.toOption = some a) :
    x = .ok a := by
  cases x with
  | error e => cases h
  | ok b => exact congrArg Except.ok (Option.some.inj h)

theorem exists_of_toOption_map {ε α β : Type} {x : Except ε α} {f : α → β} {b : β}
    (h : x.toOption.map f = some b) : ∃ a, x = .ok a ∧ f a = b := by
  cases x with
  | error e => cases h
  | ok a => exact ⟨a, rfl, Option.some.inj h⟩

theorem exists_of_join_map {ε α β : Type} {x : Except ε (Option α)} {f : α → β} {b : β}
    (h : x.toOption.join.map f = some b) : ∃ a, x = .ok (some a) ∧ f a = b := by
  obtain ⟨a, ha, hb⟩ := Option.map_eq_some_iff.mp h
  exact ⟨a, eq_ok_of_toOption (Option.join_eq_some_iff.mp ha), hb⟩

theorem exists_of_map_eq_ok {ε α β : Type} {x : Except ε α} {f : α → β} {b : β}
    (h : x.map f = .ok b) : ∃ a, x = .ok a ∧ f a = b := by
  cases x with
  | error e => cases h
  | ok a => exact ⟨a, rfl, Except.ok.inj h⟩

theorem bind_eq_ok_iff {ε α β : Type} {x : Except ε α} {f : α → Except ε β} {b : β} :
    (x >>= f) = .ok b ↔ ∃ a, x = .ok a ∧ f a = .ok b := by
  cases x with
  | error e =>
    refine ⟨fun h => ?_, fun ⟨a, h, _⟩ => ?_⟩
    · change Except.error e = Except.ok b at h
      cases h
    · cases h
  | ok a =>
    refine ⟨fun h => ⟨a, rfl, h⟩, ?_⟩
    rintro ⟨a', ha, h⟩
    cases ha
    exact h

namespace Place

variable {σ ε : Type} {visit : σ → Place → Except ε σ}

/-- Taking a node off the stack and putting its named children there keeps what is still to be
visited after it. -/
theorem flatMap_nodes_cons (p : Place) (stack : List Place) :
    (p :: stack).flatMap nodes = p :: (p.namedChildren ++ stack).flatMap nodes := by
  rw [List.flatMap_cons, nodes_eq, List.cons_append, List.flatMap_append]

theorem walk_eq_foldlM (visit : σ → Place → Except ε σ) (state : σ) (stack : List Place) :
    walk visit state stack = (stack.flatMap nodes).foldlM visit state := by
  -- The invariant is the right side itself: what is still to be visited, in order.
  induction state, stack using walk.induct with
  | case1 state => rw [walk]; rfl
  | case2 state p stack ih =>
    rw [walk, flatMap_nodes_cons, List.foldlM_cons]
    exact bind_congr ih

theorem walkAll_eq_foldlM (visit : σ → Place → Except ε σ) (state : σ) (roots : List Place) :
    walkAll visit state roots = (roots.flatMap nodes).foldlM visit state := by
  induction roots generalizing state with
  | nil => rfl
  | cons r roots ih =>
    rw [walkAll, List.foldlM_cons, List.flatMap_cons, List.foldlM_append, walk_eq_foldlM,
      List.flatMap_singleton]
    exact bind_congr ih

end Place

end SuiteDraft
