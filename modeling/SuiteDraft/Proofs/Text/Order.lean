import Mathlib.Data.List.Sort
import Mathlib.Data.String.Basic
import SuiteDraft.Text.Order

/-!
Putting things in the order of their names is the insertion sort of the library, by the order of
strings.
-/

namespace SuiteDraft

variable {α : Type}

theorem comesFirst_iff_le (s t : String) : comesFirst s.toList t.toList = true ↔ s ≤ t := by
  rw [← not_lt, String.lt_iff]
  generalize s.toList = a, t.toList = b
  induction a generalizing b with
  | nil => exact iff_of_true rfl (List.not_lt_nil b)
  | cons c a ih =>
    cases b with
    | nil => exact iff_of_false Bool.false_ne_true (not_not.mpr (List.nil_lt_cons c a))
    | cons e b =>
      rw [comesFirst, Bool.or_eq_true, Bool.and_eq_true, decide_eq_true_iff, beq_iff_eq, ih,
        List.cons_lt_cons_iff]
      rcases lt_trichotomy c e with hlt | rfl | hgt
      · simp [hlt, hlt.not_gt, hlt.ne']
      · simp
      · simp [hgt, hgt.not_gt, hgt.ne']

theorem inOrder_eq_insertionSort (name : α → String) (xs : List α) :
    inOrder name xs = xs.insertionSort fun x y => name x ≤ name y := by
  have hinsert : ∀ x ys, insertInOrder name x ys =
      ys.orderedInsert (fun x y => name x ≤ name y) x := by
    intro x ys
    induction ys with
    | nil => rfl
    | cons y ys ih =>
      simp only [insertInOrder, List.orderedInsert, comesFirst_iff_le, ih]
  induction xs with
  | nil => rfl
  | cons x xs ih =>
    change insertInOrder name x (inOrder name xs) = _
    rw [ih, hinsert]
    rfl

theorem perm_inOrder (name : α → String) (xs : List α) : (inOrder name xs).Perm xs := by
  rw [inOrder_eq_insertionSort]
  exact List.perm_insertionSort _ xs

theorem pairwise_inOrder (name : α → String) (xs : List α) :
    (inOrder name xs).Pairwise fun x y => name x ≤ name y := by
  have htotal : Std.Total fun x y : α => name x ≤ name y := ⟨fun x y => le_total (name x) (name y)⟩
  have htrans : IsTrans α fun x y => name x ≤ name y := ⟨fun _ _ _ => le_trans⟩
  rw [inOrder_eq_insertionSort]
  exact List.pairwise_insertionSort _ xs

/-- Names come in one order only, however they were listed. -/
theorem inOrder_eq_of_perm {names others : List String} (h : names.Perm others) :
    inOrder id names = inOrder id others := by
  refine List.Perm.eq_of_pairwise (fun _ _ _ _ => le_antisymm) (pairwise_inOrder id names)
    (pairwise_inOrder id others) ?_
  exact (perm_inOrder id names).trans (h.trans (perm_inOrder id others).symm)

/-- Things whose names are listed once stand in the strict order of their names. -/
theorem pairwise_lt_name_inOrder {name : α → String} {xs : List α} (h : (xs.map name).Nodup) :
    (inOrder name xs).Pairwise fun x y => name x < name y := by
  have hnodup : ((inOrder name xs).map name).Nodup := ((perm_inOrder name xs).map name).nodup_iff.mpr h
  refine (pairwise_inOrder name xs).imp₂ (fun _ _ hle hne => ?_) (List.pairwise_map.mp hnodup)
  exact lt_of_le_of_ne hle hne

/-- Names that are listed once stand in strict order. -/
theorem pairwise_lt_inOrder {names : List String} (h : names.Nodup) :
    (inOrder id names).Pairwise (· < ·) :=
  @pairwise_lt_name_inOrder _ id names ((List.map_id names).symm ▸ h)

/-- Values under names may be changed before or after they are put in order. -/
theorem inOrder_map_key {β : Type} (f : α → β) (xs : List (String × α)) :
    inOrder (·.1) (xs.map fun x => (x.1, f x.2)) = (inOrder (·.1) xs).map fun x => (x.1, f x.2) := by
  rw [inOrder_eq_insertionSort, inOrder_eq_insertionSort]
  exact (List.map_insertionSort _ _ (fun x : String × α => (x.1, f x.2)) xs fun _ _ _ _ => Iff.rfl).symm

end SuiteDraft
