import SuiteDraft.Proofs.Ignore.Below
import SuiteDraft.Proofs.Ignore.Lines

/-!
# Which lines are refused

A line that is no rule mostly says nothing. It stops the reading of all lines when, name by name, a lone
backslash is come to before a character class without an end; or when all names are read and a range in one
of their classes runs backwards.
-/

namespace SuiteDraft.Ignore

/-- What some steps through a name leave of it. -/
inductive Arrives : List Char → List Char → Prop where
  | here (s : List Char) : Arrives s s
  | step {s rest left : List Char} {a : Atom} (h : Reads s a rest) (hrest : Arrives rest left) : Arrives s left

/-- A name that is read to its end. -/
def Whole (s : List Char) : Prop := Arrives s []

/-- A name that comes to a backslash with nothing behind it. -/
def Broken (s : List Char) : Prop := Arrives s ['\\']

/-- A name in which a step reads a class with a range that runs backwards. -/
def Backward (s : List Char) : Prop :=
  ∃ left a rest, Arrives s left ∧ Reads left a rest ∧ a.isBackward = true

/-- Names of which the first that is not whole is broken. -/
inductive Stumbles : List (List Char) → Prop where
  | broken {s : List Char} {parts : List (List Char)} (h : Broken s) : Stumbles (s :: parts)
  | later {s : List Char} {parts : List (List Char)} (h : Whole s) (hparts : Stumbles parts) :
      Stumbles (s :: parts)

/-- Names that are no pattern and stop the reading. -/
def Refuses (parts : List (List Char)) : Prop :=
  Stumbles parts ∨ (∀ s ∈ parts, Whole s) ∧ ∃ s ∈ parts, Backward s

variable {s rest left : List Char} {a : Atom} {parts : List (List Char)}

theorem Reads.unique {rest' : List Char} {a' : Atom} (h : Reads s a rest) (h' : Reads s a' rest') :
    a' = a ∧ rest' = rest := by
  cases h <;> cases h' <;> simp_all

theorem Reads.arrives_iff (h : Reads s a rest) (hne : left ≠ s) : Arrives s left ↔ Arrives rest left := by
  refine ⟨fun harrives => ?_, .step h⟩
  cases harrives with
  | here => exact absurd rfl hne
  | step h' hrest =>
    obtain ⟨-, rfl⟩ := h.unique h'
    exact hrest

/-- Where no step can be taken, nothing else is come to. -/
theorem arrives_iff_of_stuck (h : ∀ a rest, ¬ Reads s a rest) : Arrives s left ↔ left = s := by
  constructor
  · intro harrives
    cases harrives with
    | here => rfl
    | step hreads => exact absurd hreads (h _ _)
  · rintro rfl
    exact .here left

theorem Reads.ne_nil (h : Reads s a rest) : s ≠ [] := by
  rintro rfl
  cases h

theorem Reads.ne_lone (h : Reads s a rest) : s ≠ ['\\'] := by
  rintro rfl
  cases h with
  | plain _ h => exact h (by decide)

theorem Reads.whole_iff (h : Reads s a rest) : Whole s ↔ Whole rest := h.arrives_iff h.ne_nil.symm

theorem Reads.broken_iff (h : Reads s a rest) : Broken s ↔ Broken rest := h.arrives_iff h.ne_lone.symm

theorem Reads.backward_iff (h : Reads s a rest) : Backward s ↔ a.isBackward = true ∨ Backward rest := by
  constructor
  · rintro ⟨left, b, after, harrives, hreads, hback⟩
    cases harrives with
    | here =>
      obtain ⟨rfl, -⟩ := h.unique hreads
      exact .inl hback
    | step h' hrest =>
      obtain ⟨-, rfl⟩ := h.unique h'
      exact .inr ⟨left, b, after, hrest, hreads, hback⟩
  · rintro (hback | ⟨left, b, after, harrives, hreads, hback⟩)
    · exact ⟨s, a, rest, .here s, h, hback⟩
    · exact ⟨left, b, after, .step h harrives, hreads, hback⟩

/-- How a reading of names fares: to the end of them all, to a broken one, or to a class without an end. -/
inductive Fares (whole broken backward : Prop) : Except RuleError (Option (List Atom)) → Prop where
  | read {as : List Atom} (hwhole : whole) (hbroken : ¬ broken)
      (hback : as.any Atom.isBackward = true ↔ backward) : Fares whole broken backward (.ok (some as))
  | stopped (hbroken : broken) : Fares whole broken backward (.error .malformed)
  | unread (hwhole : ¬ whole) (hbroken : ¬ broken) : Fares whole broken backward (.ok none)

theorem Fares.map {whole broken backward : Prop} {x : Except RuleError (Option (List Atom))}
    (h : Fares whole broken backward x) (front : List Atom) {frontBack : Prop}
    (hfront : front.any Atom.isBackward = true ↔ frontBack) :
    Fares whole broken (frontBack ∨ backward) (x.map (Option.map (front ++ ·))) := by
  cases h with
  | read hwhole hbroken hback =>
    apply Fares.read hwhole hbroken
    rw [List.any_append, Bool.or_eq_true, hfront, hback]
  | stopped hbroken => exact .stopped hbroken
  | unread hwhole hbroken => exact .unread hwhole hbroken

theorem nameAtoms_fares (s : List Char) :
    Fares (Whole s) (Broken s) (Backward s) (nameAtoms s.length s) := by
  induction s using reads_induction with
  | nil =>
    have hstuck : ∀ a rest, ¬ Reads [] a rest := fun a rest h => h.ne_nil rfl
    apply Fares.read (.here [])
    · rw [Broken, arrives_iff_of_stuck hstuck]
      exact List.cons_ne_nil _ _
    · apply iff_of_false Bool.false_ne_true
      rintro ⟨left, a, rest, harrives, hreads, -⟩
      obtain rfl := (arrives_iff_of_stuck hstuck).mp harrives
      exact hstuck a rest hreads
  | lone => exact .stopped (.here _)
  | unclosed rest htest =>
    have hstuck : ∀ a left, ¬ Reads ('[' :: rest) a left := by
      intro a left h
      cases h with
      | oneOf h =>
        rw [htest] at h
        cases h
      | plain _ h => exact h (by decide)
    have hnone : nameAtoms ('[' :: rest).length ('[' :: rest) = .ok none := by simp [nameAtoms, htest]
    rw [hnone]
    apply Fares.unread
    · rw [Whole, arrives_iff_of_stuck hstuck]
      exact (List.cons_ne_nil _ _).symm
    · rw [Broken, arrives_iff_of_stuck hstuck]
      exact fun h => absurd (List.cons.inj h).1 (by decide)
  | step s a rest hreads ih =>
    rw [hreads.whole_iff, hreads.broken_iff, hreads.backward_iff, hreads.nameAtoms_length]
    exact ih.map [a] (by simp)

theorem harmless_of_nameAtoms {as : List Atom} (h : nameAtoms s.length s = .ok (some as))
    (has : as.any Atom.isBackward = false) : Whole s ∧ ¬ Broken s ∧ ¬ Backward s := by
  have hfares := nameAtoms_fares s
  rw [h] at hfares
  cases hfares with
  | read hwhole hbroken hback => exact ⟨hwhole, hbroken, by simp [← hback, has]⟩

theorem partAtoms_fares (s : List Char) : Fares (Whole s) (Broken s) (Backward s) (partAtoms s) := by
  by_cases hstar : s = ['*']
  · -- A star by itself asks for a character too, which changes nothing here.
    subst hstar
    obtain ⟨hwhole, hbroken, hback⟩ := harmless_of_nameAtoms (s := ['*']) rfl rfl
    exact .read hwhole hbroken (iff_of_false Bool.false_ne_true hback)
  · have hname : partAtoms s = nameAtoms s.length s := if_neg (by simpa using hstar)
    rw [hname]
    exact nameAtoms_fares s

theorem deep_harmless : Whole deep ∧ ¬ Broken deep ∧ ¬ Backward deep := harmless_of_nameAtoms rfl rfl

theorem stumbles_cons_iff : Stumbles (s :: parts) ↔ Broken s ∨ Whole s ∧ Stumbles parts := by
  constructor
  · rintro (h | ⟨h, hparts⟩)
    · exact .inl h
    · exact .inr ⟨h, hparts⟩
  · rintro (h | ⟨h, hparts⟩)
    · exact .broken h
    · exact .later h hparts

theorem segmentAtoms_fares (first afterName : Bool) (parts : List (List Char)) :
    Fares (∀ s ∈ parts, Whole s) (Stumbles parts) (∃ s ∈ parts, Backward s)
      (segmentAtoms first afterName parts) := by
  induction parts generalizing first afterName with
  | nil => exact .read (by simp) nofun (by simp)
  | cons s parts ih =>
    rw [stumbles_cons_iff]
    simp only [List.forall_mem_cons, List.exists_mem_cons_iff]
    by_cases hs : s = deep
    · obtain ⟨hwhole, hbroken, hback⟩ := hs ▸ deep_harmless
      have hhere : ∀ here : List Atom, here.any Atom.isBackward = false →
          (here.any Atom.isBackward = true ↔ Backward s) := by
        intro here hno
        rw [hno]
        exact iff_of_false Bool.false_ne_true hback
      simp only [hwhole, hbroken, true_and, false_or]
      rw [segmentAtoms, if_pos (by simpa using hs), bind_map_eq]
      apply (ih false (!first)).map _ (hhere _ _)
      cases first <;> cases parts.isEmpty <;> rfl
    · rw [segmentAtoms_cons hs]
      have hpart := partAtoms_fares s
      generalize partAtoms s = x at hpart
      cases hpart with
      | read hwhole hbroken hback =>
        simp only [hwhole, hbroken, true_and, false_or, ok_bind]
        apply (ih false true).map
        have hclose : Atom.close.isBackward = false := rfl
        cases parts.isEmpty <;> simp [any_isBackward_slash, hclose, hback]
      | stopped hbroken => exact .stopped (.inl hbroken)
      | unread hwhole hbroken => exact .unread (fun h => hwhole h.1) (by simp [hbroken, hwhole])

theorem ofAtoms_isOk_iff (first afterName : Bool) (parts : List (List Char)) :
    (ofAtoms (segmentAtoms first afterName parts)).isOk = true ↔ ¬ Refuses parts := by
  have hfares := segmentAtoms_fares first afterName parts
  generalize segmentAtoms first afterName parts = x at hfares
  cases hfares with
  | @read as hwhole hno hback =>
    rw [ofAtoms, Refuses, ← hback]
    cases as.any Atom.isBackward with
    | true => exact iff_of_false Bool.false_ne_true (not_not.mpr (.inr ⟨hwhole, rfl⟩))
    | false => exact iff_of_true rfl (by simp [hno])
  | stopped hstumbles => exact iff_of_false Bool.false_ne_true (not_not.mpr (.inl hstumbles))
  | unread hwhole hno => exact iff_of_true rfl (by simp [Refuses, hno, hwhole])

/-! ### Names that have no say -/

/-- The names among segments that can be refused: those that are not empty and no gap. -/
def solid (parts : List (List Char)) : List (List Char) := parts.filter fun s => s != [] && s != deep

theorem mem_solid_or (parts : List (List Char)) :
    ∀ s ∈ parts, s ∈ solid parts ∨ Whole s ∧ ¬ Broken s ∧ ¬ Backward s := by
  intro s hs
  by_cases hempty : s = []
  · subst hempty
    exact .inr (@harmless_of_nameAtoms [] [] rfl rfl)
  by_cases hdeep : s = deep
  · exact .inr (hdeep ▸ deep_harmless)
  · exact .inl (List.mem_filter.mpr ⟨hs, by simp [hempty, hdeep]⟩)

theorem stumbles_solid (parts : List (List Char)) : Stumbles (solid parts) ↔ Stumbles parts := by
  induction parts with
  | nil => rfl
  | cons s parts ih =>
    have hs := mem_solid_or [s] s List.mem_cons_self
    unfold solid at hs ih ⊢
    rw [List.filter_cons] at hs ⊢
    split
    · rw [stumbles_cons_iff, stumbles_cons_iff, ih]
    · rename_i hout
      rw [if_neg hout] at hs
      obtain ⟨hwhole, hbroken, -⟩ := hs.resolve_left List.not_mem_nil
      rw [stumbles_cons_iff, ih]
      simp [hwhole, hbroken]

theorem refuses_solid (parts : List (List Char)) : Refuses (solid parts) ↔ Refuses parts := by
  have hsub : ∀ s ∈ solid parts, s ∈ parts := fun s hs => (List.mem_filter.mp hs).1
  have hwhole : (∀ s ∈ solid parts, Whole s) ↔ ∀ s ∈ parts, Whole s := by
    refine ⟨fun h s hs => ?_, fun h s hs => h s (hsub s hs)⟩
    exact (mem_solid_or parts s hs).elim (h s) And.left
  have hback : (∃ s ∈ solid parts, Backward s) ↔ ∃ s ∈ parts, Backward s := by
    refine ⟨fun ⟨s, hs, h⟩ => ⟨s, hsub s hs, h⟩, fun ⟨s, hs, h⟩ => ⟨s, ?_, h⟩⟩
    exact (mem_solid_or parts s hs).resolve_right fun hno => hno.2.2 h
  rw [Refuses, Refuses, stumbles_solid, hwhole, hback]

theorem solid_collapse (parts : List (List Char)) : solid (collapse parts) = solid parts := by
  induction parts with
  | nil => rfl
  | cons s parts ih =>
    rw [collapse]
    split
    · rename_i hdeep
      obtain rfl : s = deep := by simp_all
      exact ih
    · rw [solid, List.filter_cons, solid, List.filter_cons]
      rw [solid, solid] at ih
      rw [ih]

theorem solid_closed (parts : List (List Char)) : solid (closed parts) = solid parts := by
  unfold closed
  split
  · rename_i hlast
    have hparts : parts.dropLast ++ [[]] = parts := List.dropLast_append_getLast? [] (by simpa using hlast)
    rw [← hparts, solid, solid, List.dropLast_concat, List.filter_append, List.filter_append]
    rfl
  · rfl

theorem solid_segments (body : List Char) : solid (segments body) = solid (splitAt '/' body) := by
  have hclosed : ∀ parts : List (List Char),
      solid (if parts.getLast? == some [] then parts.dropLast ++ [deep] else parts) = solid parts :=
    solid_closed
  unfold segments
  dsimp only
  rw [solid_collapse, hclosed]
  split <;> simp_all [solid]

theorem segments_ne_nil {body : List Char} (h : body ≠ []) : segments body ≠ [] := by
  apply collapse_ne_nil
  apply closed_ne_nil
  split
  · rename_i rest hraw
    rintro rfl
    obtain ⟨c, body, rfl⟩ := List.exists_cons_of_ne_nil h
    rw [splitAt] at hraw
    split at hraw
    · exact splitAt_ne_nil '/' body (List.cons.inj hraw).2
    · split at hraw <;> cases hraw
  · exact List.cons_ne_nil _ _
  · exact List.cons_ne_nil _ _
  · exact splitAt_ne_nil '/' body

/-- A body is refused when its names are, whatever is made of the slashes between them. -/
theorem patternOf_isOk_iff {body : List Char} (hbody : body ≠ []) :
    (patternOf body).isOk = true ↔ ¬ Refuses (splitAt '/' body) := by
  rw [← refuses_solid, ← solid_segments, refuses_solid]
  by_cases hplain : segments body ∈ [[], [deep], [deep, ['*']], [deep, ['*'], deep]]
  · have hread : ∀ parts, segments body = parts → (patternOf body).isOk = true →
        (ofAtoms (segmentAtoms true false parts)).isOk = true →
        ((patternOf body).isOk = true ↔ ¬ Refuses (segments body)) := by
      rintro parts rfl hok hatoms
      exact iff_of_true hok ((ofAtoms_isOk_iff true false _).mp hatoms)
    simp only [List.mem_cons, List.not_mem_nil, or_false] at hplain
    rcases hplain with hparts | hparts | hparts | hparts
    · exact absurd hparts (segments_ne_nil hbody)
    all_goals exact hread _ hparts (by rw [patternOf, hparts]; rfl) rfl
  · rw [patternOf_eq_ofAtoms rfl hplain, ofAtoms_isOk_iff]

/-- A line in terms of the root that is no comment, with names that are no pattern and stop the reading. -/
def Refused (line : List Char) : Prop :=
  (trimLine line).head? ≠ some '#' ∧ Refuses (splitAt '/' (unmarked '!' (trimLine line)))

theorem isOk_bind_pure {ε α β : Type} (x : Except ε α) (f : α → β) :
    (x >>= fun a => pure (f a)).isOk = x.isOk := by cases x <;> rfl

theorem ofLine?_isOk_iff {line : List Char} (h : unmarked '!' (trimLine line) ≠ []) :
    (Rule.ofLine? line).isOk = true ↔ ¬ Refused line := by
  unfold Refused
  unfold Rule.ofLine?
  generalize trimLine line = trimmed at h ⊢
  dsimp only
  split
  · exact absurd rfl h
  · exact iff_of_true rfl fun hno => hno.1 rfl
  · exact iff_of_true rfl fun hno => (patternOf_isOk_iff (List.cons_ne_nil '/' [])).mp rfl hno.2
  · rename_i body
    have hbody : body ≠ [] := h
    rw [isOk_bind_pure, patternOf_isOk_iff hbody]
    simp [unmarked]
  · rename_i hcomment _ hmark
    rw [unmarked_of_head (head?_ne_of_ne_cons hmark)] at h ⊢
    rw [isOk_bind_pure, patternOf_isOk_iff h]
    simp [head?_ne_of_ne_cons hcomment]

/-- A line gives a rule or none when what it becomes is not refused. -/
theorem ruleIn_isOk_iff {line way : List Char} : (ruleIn line way).isOk = true ↔
    ∀ relocated, relocate line way = some relocated → ¬ Refused relocated := by
  rw [ruleIn]
  cases hsilent : isSilent (trimEnd '\n' line) with
  | true =>
    rw [relocate_of_silent hsilent]
    refine iff_of_true rfl fun relocated h => ?_
    cases h
  | false =>
    rw [relocate_eq hsilent]
    simp only [Option.some.injEq, forall_eq']
    apply ofLine?_isOk_iff
    rw [trimLine_written]
    obtain ⟨pre, hpre⟩ := written_eq_append (isTied (unmarked '!' (trimEnd '\n' line))) way
    have hslash : ∀ s rest : List Char, '/' ∈ unmarked '!' (s ++ '/' :: rest) := by
      intro s rest
      cases s with
      | nil => exact List.mem_cons_self
      | cons c s =>
        simp only [List.cons_append, unmarked]
        split <;> simp
    rw [hpre, ← List.append_assoc]
    exact List.ne_nil_of_mem (hslash _ _)

end SuiteDraft.Ignore
