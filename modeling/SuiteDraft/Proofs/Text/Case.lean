import SuiteDraft.Text.Case

/-!
# Marks and upper case

Upper case makes letters out of letters: a quote or an ampersand in the upper case of a text stood
there before.
-/

namespace SuiteDraft.Text

/-- The quote and the ampersand. -/
def attributeMarks : List Char := ['"', '&']

theorem upperSequences_high : ∀ r ∈ upperSequences, ∀ n ∈ r.2, 38 < n := by decide +kernel

theorem upperRuns_high : ∀ r ∈ upperRuns, 38 < (r.first : Int) + r.shift := by decide +kernel

theorem ofNat_unmarked {n : Nat} (h : 38 < n) : Char.ofNat n ∉ attributeMarks := by
  have number : (Char.ofNat n).toNat = n ∨ (Char.ofNat n).toNat = 0 := by
    by_cases valid : n.isValidChar
    · rw [Char.ofNat, dif_pos valid]
      exact .inl rfl
    · rw [Char.ofNat, dif_neg valid]
      exact .inr rfl
  intro mem
  simp only [attributeMarks, List.mem_cons, List.not_mem_nil, or_false] at mem
  rcases mem with eq | eq <;> rw [eq] at number <;> simp only [Char.reduceToNat] at number <;> omega

theorem toUpper_unmarked : ∀ n < 128, (Char.ofNat n).toUpper ∈ attributeMarks → Char.ofNat n ∈ attributeMarks := by
  decide +kernel

/-- The upper case of a character other than these marks holds none of them. -/
theorem upper_unmarked {c d : Char} (h : c ∉ attributeMarks) (mem : d ∈ upper c) : d ∉ attributeMarks := by
  rw [upper] at mem
  split at mem
  · rename_i ascii
    have kept := toUpper_unmarked c.toNat ascii
    rw [Char.ofNat_toNat] at kept
    rw [List.mem_singleton.mp mem]
    exact fun marked => h (kept marked)
  split at mem
  · rename_i ms found
    obtain ⟨n, inside, rfl⟩ := List.mem_map.mp mem
    obtain ⟨before, after, split, -⟩ := List.lookup_eq_some_iff.mp found
    have high := upperSequences_high (c.toNat, ms) (by rw [split]; simp) n inside
    exact ofNat_unmarked high
  split at mem
  · rename_i r found
    rw [List.mem_singleton.mp mem]
    have high := upperRuns_high r (List.mem_of_find?_eq_some found)
    have within := List.find?_some found
    simp only [CaseRun.holds, Bool.and_eq_true, decide_eq_true_eq] at within
    exact ofNat_unmarked (by omega)
  · rw [List.mem_singleton.mp mem]
    exact h

theorem capitalize_unmarked {text : String} (h : ∀ c ∈ text.toList, c ∉ attributeMarks) :
    ∀ c ∈ (capitalize text).toList, c ∉ attributeMarks := by
  intro c mem
  rw [capitalize] at mem
  split at mem
  · cases mem
  · rename_i first rest text_eq
    rw [text_eq] at h
    obtain ⟨own, others⟩ := List.forall_mem_cons.mp h
    rw [String.toList_ofList] at mem
    rcases List.mem_append.mp mem with mem | mem
    · exact upper_unmarked own mem
    · exact others c mem

end SuiteDraft.Text
