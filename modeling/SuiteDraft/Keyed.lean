/-!
Values under names, in the order in which the names were first given. Giving a name again changes
its value and leaves its place.
-/

namespace SuiteDraft

/-- Values under names, in the order of first insertion. -/
abbrev Keyed (α : Type) := List (String × α)

namespace Keyed

variable {α : Type}

def get? (k : Keyed α) (name : String) : Option α := k.lookup name

-- Puts a value under a name: at the name's place, or at the end when the name is new.
def put : Keyed α → String → α → Keyed α
  | [], name, value => [(name, value)]
  | (n, v) :: rest, name, value =>
    if n = name then (n, value) :: rest else (n, v) :: put rest name value

def names (k : Keyed α) : List String := k.map (·.1)

theorem get?_cons_self (name : String) (value : α) (k : Keyed α) :
    get? ((name, value) :: k) name = some value := List.lookup_cons_self

theorem get?_cons_of_ne {name other : String} (h : name ≠ other) (value : α) (k : Keyed α) :
    get? ((other, value) :: k) name = k.get? name := by
  rw [get?, List.lookup_cons, beq_false_of_ne h]
  rfl

theorem get?_put_self (k : Keyed α) (name : String) (value : α) :
    (k.put name value).get? name = some value := by
  induction k with
  | nil => exact get?_cons_self name value []
  | cons e rest ih =>
    obtain ⟨n, v⟩ := e
    rw [put]
    split
    · rename_i h
      rw [h, get?_cons_self]
    · rename_i h
      rw [get?_cons_of_ne (Ne.symm h), ih]

theorem get?_put_of_ne (k : Keyed α) {name other : String} (value : α) (h : other ≠ name) :
    (k.put name value).get? other = k.get? other := by
  induction k with
  | nil => exact get?_cons_of_ne h value []
  | cons e rest ih =>
    obtain ⟨n, v⟩ := e
    rw [put]
    split
    · rename_i hn
      rw [hn, get?_cons_of_ne h, get?_cons_of_ne h]
    · by_cases ho : other = n
      · rw [ho, get?_cons_self, get?_cons_self]
      · rw [get?_cons_of_ne ho, get?_cons_of_ne ho, ih]

theorem get?_put (k : Keyed α) (name other : String) (value : α) :
    (k.put name value).get? other = if name = other then some value else k.get? other := by
  by_cases h : name = other
  · rw [← h, get?_put_self, if_pos rfl]
  · rw [get?_put_of_ne k value (Ne.symm h), if_neg h]

theorem names_put (k : Keyed α) (name : String) (value : α) :
    (k.put name value).names = if name ∈ k.names then k.names else k.names ++ [name] := by
  induction k with
  | nil => simp [put, names]
  | cons e rest ih =>
    obtain ⟨n, v⟩ := e
    by_cases h : n = name
    · simp [put, names, h]
    · have h' : ¬ name = n := fun e => h e.symm
      simp only [put, h, if_false, names, List.map_cons, List.mem_cons, h', false_or] at ih ⊢
      rw [ih]
      split <;> simp [*]

end Keyed

end SuiteDraft
