import Mathlib.Data.List.Basic
import Mathlib.Data.List.Induction
import SuiteDraft.Keyed

/-! Values grouped under names, in the order in which the names are first met. -/

namespace SuiteDraft

theorem eraseDups_concat {α : Type} [DecidableEq α] (l : List α) (a : α) :
    (l ++ [a]).eraseDups = if a ∈ l.eraseDups then l.eraseDups else l.eraseDups ++ [a] := by
  rw [List.eraseDups_append]
  by_cases h : a ∈ l
  · have hnone : [a].removeAll l = [] := by simp [List.removeAll, h]
    rw [if_pos (List.mem_eraseDups.mpr h), hnone, List.eraseDups_nil, List.append_nil]
  · have hsome : [a].removeAll l = [a] := by simp [List.removeAll, h]
    rw [if_neg (mt List.mem_eraseDups.mp h), hsome]
    rfl

theorem nodup_eraseDups {α : Type} [DecidableEq α] (l : List α) : l.eraseDups.Nodup := by
  -- From the right, as the list is built.
  induction l using List.reverseRecOn with
  | nil => exact List.nodup_nil
  | append_singleton l a ih =>
    rw [eraseDups_concat]
    split
    · exact ih
    · rename_i h
      refine List.nodup_append.mpr ⟨ih, List.pairwise_singleton _ a, fun b hb c hc => ?_⟩
      rw [List.mem_singleton.mp hc]
      exact fun hba => h (hba ▸ hb)

/-- What is left without repetitions stands in the order in which it is first met. -/
theorem pairwise_idxOf_eraseDups {α : Type} [DecidableEq α] (l : List α) :
    l.eraseDups.Pairwise fun a b => l.idxOf a < l.idxOf b := by
  induction l using List.reverseRecOn with
  | nil => exact List.Pairwise.nil
  | append_singleton l c ih =>
    have same {a : α} (h : a ∈ l.eraseDups) : (l ++ [c]).idxOf a = l.idxOf a :=
      List.idxOf_append_of_mem (List.mem_eraseDups.mp h)
    have kept : l.eraseDups.Pairwise fun a b => (l ++ [c]).idxOf a < (l ++ [c]).idxOf b := by
      refine ih.imp_of_mem fun {a b} ha hb before => ?_
      rwa [same ha, same hb]
    rw [eraseDups_concat]
    split
    · exact kept
    · rename_i new
      have last : l.length ≤ (l ++ [c]).idxOf c := by
        rw [List.idxOf_append_of_notMem fun h => new (List.mem_eraseDups.mpr h)]
        exact Nat.le_add_right _ _
      refine List.pairwise_append.mpr ⟨kept, List.pairwise_singleton _ c, fun a ha b hb => ?_⟩
      rw [List.mem_singleton.mp hb, same ha]
      exact Nat.lt_of_lt_of_le (List.idxOf_lt_length_of_mem (List.mem_eraseDups.mp ha)) last

namespace Keyed

variable {α : Type}

theorem mem_of_get? {k : Keyed α} {name : String} {value : α} (h : k.get? name = some value) :
    (name, value) ∈ k := by
  obtain ⟨before, after, rfl, -⟩ := List.lookup_eq_some_iff.mp h
  exact List.mem_append_right before List.mem_cons_self

theorem mem_put {k : Keyed α} {name name' : String} {value value' : α}
    (h : (name', value') ∈ k.put name value) :
    (name', value') ∈ k ∨ name' = name ∧ value' = value := by
  induction k with
  | nil => exact .inr (Prod.mk.inj (List.mem_singleton.mp h))
  | cons e k ih =>
    rw [put] at h
    split at h
    · rename_i same
      rcases List.mem_cons.mp h with here | h
      · exact .inr ⟨(Prod.mk.inj here).1.trans same, (Prod.mk.inj here).2⟩
      · exact .inl (List.mem_cons_of_mem _ h)
    · rcases List.mem_cons.mp h with here | h
      · exact .inl (here ▸ List.mem_cons_self)
      · exact (ih h).imp_left (List.mem_cons_of_mem _)

theorem get?_of_mem {k : Keyed α} (hnodup : k.names.Nodup) {name : String} {value : α}
    (h : (name, value) ∈ k) : k.get? name = some value := by
  induction k with
  | nil => cases h
  | cons e k ih =>
    obtain ⟨hfirst, hrest⟩ : e.1 ∉ names k ∧ (names k).Nodup := List.nodup_cons.mp hnodup
    rcases List.mem_cons.mp h with rfl | h
    · exact get?_cons_self name value k
    · have hname : name ∈ names k := List.mem_map_of_mem h
      have hne : name ≠ e.1 := fun heq => hfirst (heq ▸ hname)
      rw [get?_cons_of_ne hne]
      exact ih hrest h

-- A table is a map whose values are given by a function of their names.
theorem get?_table (names : List String) (f : String → α) (name : String) :
    get? (names.map fun n => (n, f n)) name = if name ∈ names then some (f name) else none := by
  induction names with
  | nil => rfl
  | cons n names ih =>
    rw [List.map_cons]
    by_cases h : name = n
    · rw [h, get?_cons_self, if_pos List.mem_cons_self]
    · rw [get?_cons_of_ne h, ih]
      simp [h]

theorem put_table {names : List String} (hnodup : names.Nodup) (f : String → α) (name : String)
    (value : α) :
    put (names.map fun n => (n, f n)) name value =
      (if name ∈ names then names else names ++ [name]).map fun n =>
        (n, if n = name then value else f n) := by
  induction names with
  | nil => simp [put]
  | cons n names ih =>
    rcases List.nodup_cons.mp hnodup with ⟨hn, hnames⟩
    rw [List.map_cons, put]
    by_cases h : n = name
    · subst h
      rw [if_pos rfl, if_pos List.mem_cons_self, List.map_cons, if_pos rfl]
      refine congrArg _ (List.map_congr_left fun m hm => ?_)
      have hmn : m ≠ n := fun hmn => hn (hmn ▸ hm)
      rw [if_neg hmn]
    · have hmem : name ∈ n :: names ↔ name ∈ names := by simp [Ne.symm h]
      rw [if_neg h, ih hnames]
      by_cases hname : name ∈ names
      · rw [if_pos hname, if_pos (hmem.mpr hname), List.map_cons, if_neg h]
      · rw [if_neg hname, if_neg (mt hmem.mp hname), List.cons_append, List.map_cons, if_neg h]

/-- The values of pairs grouped by their names: the names in the order in which they are first met,
and under each its values in the order in which they are, each once. -/
def groups [DecidableEq α] (pairs : List (String × α)) : Keyed (List α) :=
  (pairs.map (·.1)).eraseDups.map fun name =>
    (name, ((pairs.filter fun p => p.1 = name).map (·.2)).eraseDups)

theorem groups_names [DecidableEq α] (pairs : List (String × α)) :
    (groups pairs).names = (pairs.map (·.1)).eraseDups := by
  rw [names, groups, List.map_map]
  exact List.map_id _

theorem groups_get? [DecidableEq α] (pairs : List (String × α)) (name : String) :
    ((groups pairs).get? name).getD [] =
      ((pairs.filter fun p => p.1 = name).map (·.2)).eraseDups := by
  rw [groups, get?_table]
  split
  · rfl
  · rename_i h
    have hnone : (pairs.filter fun p => p.1 = name) = [] := by
      rw [List.filter_eq_nil_iff]
      intro p hp hname
      exact h (List.mem_eraseDups.mpr (List.mem_map.mpr ⟨p, hp, by simpa using hname⟩))
    rw [hnone]
    rfl

/-- No group is empty and none repeats a value. -/
theorem groups_values [DecidableEq α] {pairs : List (String × α)} {name : String} {values : List α}
    (h : (name, values) ∈ groups pairs) : values ≠ [] ∧ values.Nodup := by
  rcases List.mem_map.mp h with ⟨n, hn, heq⟩
  cases heq
  refine ⟨?_, nodup_eraseDups _⟩
  rcases List.mem_map.mp (List.mem_eraseDups.mp hn) with ⟨p, hp, rfl⟩
  have hfilter : p ∈ pairs.filter fun q => q.1 = p.1 :=
    List.mem_filter.mpr ⟨hp, decide_eq_true rfl⟩
  exact List.ne_nil_of_mem (List.mem_eraseDups.mpr (List.mem_map.mpr ⟨p, hfilter, rfl⟩))

end Keyed

end SuiteDraft
