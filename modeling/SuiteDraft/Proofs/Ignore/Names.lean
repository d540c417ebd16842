import SuiteDraft.Proofs.Ignore.Confinement

/-!
# How a name is read

A name is read from its start, one atom after the other, until nothing is left of it. It comes to no
atoms where a character class has no end, and is refused where a backslash has nothing behind it.
-/

namespace SuiteDraft.Ignore

/-- One step through a name: the atom that its first characters make, and what is left. -/
inductive Reads : List Char → Atom → List Char → Prop where
  | escaped (c : Char) (rest : List Char) : Reads ('\\' :: c :: rest) (.one (.exactly c)) rest
  | star (rest : List Char) : Reads ('*' :: rest) .run rest
  | mark (rest : List Char) : Reads ('?' :: rest) (.one .withinName) rest
  | oneOf {rest : List Char} {test : CharTest} {after : List Char} (h : classTest rest = some (test, after)) :
      Reads ('[' :: rest) (.one test) after
  | plain {c : Char} (rest : List Char) (h : c ∉ ['*', '?', '[', '\\']) :
      Reads (c :: rest) (.one (.exactly c)) rest

variable {s rest : List Char} {a : Atom} {n : Nat}

theorem Reads.nameAtoms (h : Reads s a rest) :
    nameAtoms (n + 1) s = (nameAtoms n rest).map (Option.map (a :: ·)) := by
  cases h with
  | escaped c => rw [Ignore.nameAtoms, bind_map_eq]
  | star => rw [Ignore.nameAtoms, bind_map_eq]
  | mark => rw [Ignore.nameAtoms, bind_map_eq]
  | oneOf h =>
    rw [Ignore.nameAtoms, h]
    exact bind_map_eq _ _
  | plain _ h =>
    simp only [List.mem_cons, List.not_mem_nil, or_false, not_or] at h
    rw [Ignore.nameAtoms, bind_map_eq]
    all_goals simp_all

theorem reads_or (s : List Char) : s = [] ∨ s = ['\\'] ∨
    (∃ rest, s = '[' :: rest ∧ classTest rest = none) ∨ ∃ a rest, Reads s a rest := by
  rcases s with _ | ⟨c, rest⟩
  · exact .inl rfl
  by_cases hback : c = '\\'
  · subst hback
    rcases rest with _ | ⟨c, rest⟩
    · exact .inr (.inl rfl)
    · exact .inr (.inr (.inr ⟨_, _, .escaped c rest⟩))
  by_cases hopen : c = '['
  · subst hopen
    cases htest : classTest rest with
    | none => exact .inr (.inr (.inl ⟨rest, rfl, htest⟩))
    | some found => exact .inr (.inr (.inr ⟨_, _, .oneOf htest⟩))
  refine .inr (.inr (.inr ?_))
  by_cases hstar : c = '*'
  · subst hstar
    exact ⟨_, _, .star rest⟩
  by_cases hmark : c = '?'
  · subst hmark
    exact ⟨_, _, .mark rest⟩
  · exact ⟨_, _, .plain rest (by simp [hstar, hmark, hopen, hback])⟩

theorem length_lt_of_classBody {inner : List Char} (h : classBody s = some (inner, rest)) :
    rest.length < s.length := by
  cases s with
  | nil => cases h
  | cons c s =>
    unfold classBody at h
    dsimp only at h
    split at h
    · cases h
    · rename_i d after hafter
      obtain ⟨-, rfl⟩ := Prod.mk.inj (Option.some.inj h)
      have hlength := (List.dropWhile_suffix (· != ']') (l := s)).length_le
      rw [hafter, List.length_cons] at hlength
      rw [List.length_cons]
      omega

theorem length_le_of_classTest {test : CharTest} (h : classTest s = some (test, rest)) :
    rest.length < s.length := by
  unfold classTest at h
  split at h
  all_goals
    obtain ⟨⟨inner, after⟩, hbody, heq⟩ := Option.map_eq_some_iff.mp h
    obtain ⟨-, rfl⟩ := Prod.mk.inj heq
    have hlength := length_lt_of_classBody hbody
  · exact Nat.lt_succ_of_lt hlength
  · exact Nat.lt_succ_of_lt hlength
  · exact hlength

theorem Reads.length_lt (h : Reads s a rest) : rest.length < s.length := by
  cases h with
  | oneOf h => exact Nat.lt_succ_of_lt (length_le_of_classTest h)
  | escaped | star | mark | plain =>
    simp only [List.length_cons]
    omega

/-- Induction along the steps through a name. -/
theorem reads_induction {motive : List Char → Prop} (nil : motive []) (lone : motive ['\\'])
    (unclosed : ∀ rest, classTest rest = none → motive ('[' :: rest))
    (step : ∀ s a rest, Reads s a rest → motive rest → motive s) (s : List Char) : motive s := by
  induction hn : s.length using Nat.strong_induction_on generalizing s with
  | _ n ih =>
    rcases reads_or s with rfl | rfl | ⟨rest, rfl, htest⟩ | ⟨a, rest, hreads⟩
    · exact nil
    · exact lone
    · exact unclosed rest htest
    · exact step s a rest hreads (ih rest.length (hn ▸ hreads.length_lt) rest rfl)

theorem nameAtoms_of_le (h : s.length ≤ n) : nameAtoms n s = nameAtoms s.length s := by
  induction s using reads_induction generalizing n with
  | nil => cases n <;> rfl
  | lone | unclosed rest htest =>
    obtain ⟨n, rfl⟩ := Nat.exists_eq_add_one_of_ne_zero (Nat.ne_of_gt (Nat.lt_of_lt_of_le (by simp) h))
    simp_all [nameAtoms]
  | step s a rest hreads ih =>
    have hlt := hreads.length_lt
    obtain ⟨m, hm⟩ := Nat.exists_eq_add_one_of_ne_zero (Nat.ne_of_gt (Nat.zero_lt_of_lt hlt))
    obtain ⟨n, rfl⟩ := Nat.exists_eq_add_one_of_ne_zero (by omega : n ≠ 0)
    rw [hm, hreads.nameAtoms, hreads.nameAtoms, ih (by omega), ih (by omega : rest.length ≤ m)]

/-- A name comes to the atom of its first characters and to those of what is left. -/
theorem Reads.nameAtoms_length (h : Reads s a rest) :
    Ignore.nameAtoms s.length s = (Ignore.nameAtoms rest.length rest).map (Option.map (a :: ·)) := by
  rw [← nameAtoms_of_le (Nat.le_succ s.length), h.nameAtoms, nameAtoms_of_le (Nat.le_of_lt h.length_lt)]

/-! ### What atoms of names are -/

/-- A segment that asks for a name: a star alone, or one with a character besides stars. -/
def Tells (s : List Char) : Prop := s = ['*'] ∨ ∃ c ∈ s, c ≠ '*'

instance (s : List Char) : Decidable (Tells s) :=
  decidable_of_iff (s = ['*'] ∨ s.any (· != '*') = true) (by simp [Tells])

theorem Tells.ne_nil (h : Tells s) : s ≠ [] := by
  rintro rfl
  exact absurd h (by decide)

theorem Tells.ne_deep (h : Tells s) : s ≠ deep := by
  rintro rfl
  exact absurd h (by decide)

theorem Reads.eq_run_or (h : Reads s a rest) : a = .run ∧ s = '*' :: rest ∨ ∃ test, a = .one test := by
  cases h with
  | star => exact .inl ⟨rfl, rfl⟩
  | escaped | mark | oneOf | plain => exact .inr ⟨_, rfl⟩

theorem eq_run_or_of_nameAtoms {as : List Atom} (h : nameAtoms s.length s = .ok (some as)) :
    ∀ a ∈ as, a = .run ∨ ∃ test, a = .one test := by
  induction s using reads_induction generalizing as with
  | nil =>
    cases h
    exact fun a ha => absurd ha List.not_mem_nil
  | lone => cases h
  | unclosed rest htest => simp [nameAtoms, htest] at h
  | step s a rest hreads ih =>
    rw [hreads.nameAtoms_length] at h
    obtain ⟨more, hmore, rfl⟩ := map_eq_ok_some h
    intro b hb
    rcases List.mem_cons.mp hb with rfl | hb
    · exact hreads.eq_run_or.imp_left And.left
    · exact ih hmore b hb

theorem asks_of_nameAtoms {as : List Atom} (h : nameAtoms s.length s = .ok (some as))
    (hs : ∃ c ∈ s, c ≠ '*') : ∃ test, .one test ∈ as := by
  induction s using reads_induction generalizing as with
  | nil => simp at hs
  | lone => cases h
  | unclosed rest htest => simp [nameAtoms, htest] at h
  | step s a rest hreads ih =>
    rw [hreads.nameAtoms_length] at h
    obtain ⟨more, hmore, rfl⟩ := map_eq_ok_some h
    rcases hreads.eq_run_or with ⟨rfl, rfl⟩ | ⟨test, rfl⟩
    · obtain ⟨test, htest⟩ := ih hmore (by simpa using hs)
      exact ⟨test, List.mem_cons_of_mem _ htest⟩
    · exact ⟨test, List.mem_cons_self⟩

theorem asks_of_partAtoms {as : List Atom} (h : partAtoms s = .ok (some as)) (hs : Tells s) :
    ∃ test, .one test ∈ as := by
  unfold partAtoms at h
  split at h
  · cases h
    exact ⟨_, List.mem_cons_self⟩
  · rename_i hstar
    exact asks_of_nameAtoms h (hs.resolve_left (by simpa using hstar))

theorem lead_not_mem_of_partAtoms {as : List Atom} (h : partAtoms s = .ok (some as)) : .lead ∉ as := by
  unfold partAtoms at h
  split at h
  · cases h
    decide
  · intro hlead
    rcases eq_run_or_of_nameAtoms h _ hlead with h | ⟨test, h⟩ <;> cases h

/-- One step through segments: the atoms of the first of them, and those of what stands behind. -/
theorem segmentAtoms_step {first afterName : Bool} {parts : List (List Char)} {as : List Atom}
    (h : segmentAtoms first afterName (s :: parts) = .ok (some as)) :
    ∃ here more, as = here ++ more ∧ (∃ afterName', segmentAtoms false afterName' parts = .ok (some more)) ∧
      (Tells s → ∃ test, .one test ∈ here) ∧ (first = false → .lead ∉ here) := by
  by_cases hs : s = deep
  · subst hs
    rw [segmentAtoms, if_pos (beq_self_eq_true deep), bind_map_eq] at h
    obtain ⟨more, hmore, rfl⟩ := map_eq_ok_some h
    refine ⟨_, more, rfl, ⟨_, hmore⟩, fun htells => absurd rfl htells.ne_deep, ?_⟩
    rintro rfl
    cases parts.isEmpty <;> decide
  · rw [segmentAtoms_cons hs] at h
    obtain ⟨name?, hname, h⟩ := bind_eq_ok_iff.mp h
    cases name? with
    | none => cases h
    | some name =>
      obtain ⟨more, hmore, rfl⟩ := map_eq_ok_some h
      refine ⟨_, more, rfl, ⟨_, hmore⟩, fun htells => ?_, fun _ => ?_⟩
      · obtain ⟨test, htest⟩ := asks_of_partAtoms hname htells
        exact ⟨test, by simp [htest]⟩
      · have hlead := lead_not_mem_of_partAtoms hname
        cases afterName <;> cases parts.isEmpty <;> simp [slash, hlead]

theorem asks_of_segmentAtoms {first afterName : Bool} {parts : List (List Char)} {as : List Atom}
    (h : segmentAtoms first afterName parts = .ok (some as)) (hs : s ∈ parts) (htells : Tells s) :
    ∃ test, .one test ∈ as := by
  induction parts generalizing first afterName as with
  | nil => cases hs
  | cons t parts ih =>
    obtain ⟨here, more, rfl, ⟨_, hmore⟩, hhere, -⟩ := segmentAtoms_step h
    rcases List.mem_cons.mp hs with rfl | hs
    · obtain ⟨test, htest⟩ := hhere htells
      exact ⟨test, List.mem_append_left _ htest⟩
    · obtain ⟨test, htest⟩ := ih hmore hs
      exact ⟨test, List.mem_append_right _ htest⟩

theorem lead_not_mem_of_segmentAtoms {afterName : Bool} {parts : List (List Char)} {as : List Atom}
    (h : segmentAtoms false afterName parts = .ok (some as)) : .lead ∉ as := by
  induction parts generalizing afterName as with
  | nil =>
    cases h
    exact List.not_mem_nil
  | cons t parts ih =>
    obtain ⟨here, more, rfl, ⟨_, hmore⟩, -, hlead⟩ := segmentAtoms_step h
    simp [hlead rfl, ih hmore]

end SuiteDraft.Ignore
