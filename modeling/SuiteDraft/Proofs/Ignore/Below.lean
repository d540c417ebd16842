import SuiteDraft.Proofs.Ignore.Names

/-!
# Patterns below a way

Segments behind the names of a way come to the pattern that they come to alone, moved below the way: it
holds on a path through the way when the other holds on what is left of it.
-/

namespace SuiteDraft.Ignore

/-! ### What atoms read -/

/-- Atoms that ask for a character read no empty text. -/
theorem readsAtoms_nil {as : List Atom} (h : ∃ test, .one test ∈ as) : readsAtoms as [] = false := by
  obtain ⟨test, htest⟩ := h
  induction as with
  | nil => cases htest
  | cons a as ih =>
    cases a with
    | one _ => rfl
    | run | lead | gap | close =>
      have hrest := ih (by simpa using htest)
      simp [readsAtoms, Atom.rests, afterRun, hrest]

theorem readsAtoms_slash_cons (as : List Atom) (s : List Char) :
    readsAtoms (slash true ++ as) ('/' :: s) = readsAtoms as s := by
  simp [slash, readsAtoms, Atom.rests, CharTest.holds]

theorem any_afterLine (as : List Atom) (s : List Char) :
    (afterLine s).any (readsAtoms (slash true ++ as)) = (afterSlashes s).any (readsAtoms as) := by
  induction s with
  | nil => rfl
  | cons c s ih =>
    have hhead : readsAtoms (slash true ++ as) (c :: s) =
        (if c == '/' then [s] else []).any (readsAtoms as) := by
      by_cases hc : c = '/'
      · subst hc
        simp [readsAtoms_slash_cons]
      · simp [slash, readsAtoms, Atom.rests, CharTest.holds, hc]
    rw [afterLine, afterSlashes, List.any_cons, List.any_append, hhead]
    by_cases hfeed : c = '\n' <;> simp [hfeed, ih]

/-- Behind a slash, a gap and the slash after it read what directories in front read. -/
theorem readsAtoms_gap (as : List Atom) (s : List Char) :
    readsAtoms (.gap :: (slash true ++ as)) ('/' :: s) = readsAtoms (.lead :: as) s := by
  cases s with
  | nil => simp [readsAtoms, Atom.rests, slash, CharTest.holds]
  | cons c s =>
    simp only [readsAtoms, Atom.rests, List.any_cons, readsAtoms_slash_cons]
    split
    · simp
    · rw [any_afterLine]

theorem readsAtoms_run_close (s : List Char) : readsAtoms [.run, .close] s = true := by
  have hrun : (afterRun s).any (readsAtoms [.close]) = true := by
    induction s with
    | nil => rfl
    | cons c s ih =>
      by_cases hc : c = '/'
      · subst hc
        rfl
      · simp [afterRun, hc, ih]
  exact hrun

theorem readsAtoms_run_slash (s : List Char) : readsAtoms (.run :: slash true) s = s.contains '/' := by
  have hrun : (afterRun s).any (readsAtoms (slash true)) = s.contains '/' := by
    induction s with
    | nil => rfl
    | cons c s ih =>
      by_cases hc : c = '/'
      · subst hc
        rfl
      · have hhead : readsAtoms (slash true) (c :: s) = false := by
          simp [slash, readsAtoms, Atom.rests, CharTest.holds, hc]
        simp [afterRun, hc, ih, hhead, Ne.symm hc]
  exact hrun

theorem mem_of_mem_afterSlashes {s rest : List Char} (h : rest ∈ afterSlashes s) : '/' ∈ s := by
  induction s with
  | nil => cases h
  | cons c s ih =>
    by_cases hc : c = '/'
    · exact hc ▸ List.mem_cons_self
    · rw [afterSlashes, if_neg (by simpa using hc), List.nil_append] at h
      split at h
      · cases h
      · exact List.mem_cons_of_mem _ (ih h)

/-! ### A pattern below a way -/

/-- The pattern that holds below a way on what the given one holds on at the root. -/
def Pattern.below (way : List Char) : Pattern → Pattern
  | .everything => .atoms (literal way ++ .gap :: (slash true ++ [.one .withinName, .run, .close]))
  | .nested => .atoms (literal way ++ .gap :: (slash true ++ .one .withinName :: .run :: slash true))
  | .atoms (.lead :: as) => .atoms (literal way ++ .gap :: (slash true ++ as))
  | .atoms as => .atoms (literal way ++ (slash true ++ as))

theorem readsAtoms_literal_iff {s path : List Char} {as : List Atom} :
    readsAtoms (literal s ++ as) path = true ↔ ∃ rest, path = s ++ rest ∧ readsAtoms as rest = true := by
  refine ⟨readsAtoms_literal, ?_⟩
  rintro ⟨rest, rfl, hrest⟩
  induction s with
  | nil => exact hrest
  | cons c s ih => simpa [literal, readsAtoms, Atom.rests, CharTest.holds] using ih

theorem readsAtoms_way_gap {way path : List Char} {as : List Atom} :
    readsAtoms (literal way ++ .gap :: (slash true ++ as)) path = true ↔
      ∃ rest, path = way ++ '/' :: rest ∧ readsAtoms (.lead :: as) rest = true := by
  rw [readsAtoms_literal_iff]
  constructor
  · rintro ⟨rest, rfl, hrest⟩
    obtain ⟨rest, rfl⟩ := readsAtoms_gap_slash hrest
    exact ⟨rest, rfl, by rwa [readsAtoms_gap] at hrest⟩
  · rintro ⟨rest, rfl, hrest⟩
    exact ⟨'/' :: rest, rfl, by rwa [readsAtoms_gap]⟩

theorem readsAtoms_way_slash {way path : List Char} {as : List Atom} :
    readsAtoms (literal way ++ (slash true ++ as)) path = true ↔
      ∃ rest, path = way ++ '/' :: rest ∧ readsAtoms as rest = true := by
  rw [readsAtoms_literal_iff]
  constructor
  · rintro ⟨rest, rfl, hrest⟩
    obtain ⟨rest, rfl⟩ := readsAtoms_slash hrest
    exact ⟨rest, rfl, by rwa [readsAtoms_slash_cons] at hrest⟩
  · rintro ⟨rest, rfl, hrest⟩
    exact ⟨'/' :: rest, rfl, by rwa [readsAtoms_slash_cons]⟩

theorem below_of_no_lead {way : List Char} {as : List Atom} (h : as.head? ≠ some .lead) :
    (Pattern.atoms as).below way = .atoms (literal way ++ (slash true ++ as)) := by
  unfold Pattern.below
  split
  · contradiction
  · contradiction
  · simp_all
  · simp_all

theorem holds_below_atoms {way path : List Char} (as : List Atom) :
    ((Pattern.atoms as).below way).holds path = true ↔
      ∃ q, path = way ++ '/' :: q ∧ readsAtoms as q = true := by
  by_cases hlead : as.head? = some .lead
  · obtain ⟨as, rfl⟩ := List.head?_eq_some_iff.mp hlead
    exact readsAtoms_way_gap
  · rw [below_of_no_lead hlead]
    exact readsAtoms_way_slash

theorem readsAtoms_star {q : List Char} (hq : q.head? ≠ some '/') :
    readsAtoms [.lead, .one .withinName, .run, .close] q = true ↔ q ≠ [] := by
  cases q with
  | nil => exact ⟨fun h => absurd h (by decide), fun h => absurd rfl h⟩
  | cons c q =>
    have hc : c ≠ '/' := fun h => hq (congrArg some h)
    have hname : readsAtoms [.one .withinName, .run, .close] (c :: q) = true := by
      simpa [readsAtoms, Atom.rests, CharTest.holds, hc] using readsAtoms_run_close q
    simp only [readsAtoms, Atom.rests, List.any_cons] at hname ⊢
    simp [hname]

theorem readsAtoms_star_slash {q : List Char} (hq : q.head? ≠ some '/') :
    readsAtoms (.lead :: .one .withinName :: .run :: slash true) q = q.contains '/' := by
  cases q with
  | nil => rfl
  | cons c q =>
    have hc : c ≠ '/' := fun h => hq (congrArg some h)
    have hname : readsAtoms (.one .withinName :: .run :: slash true) (c :: q) = q.contains '/' := by
      rw [← readsAtoms_run_slash]
      simp [readsAtoms, Atom.rests, CharTest.holds, hc]
    have hlead : ∀ as, readsAtoms (.lead :: as) (c :: q) =
        (readsAtoms as (c :: q) || (if c == '\n' then [] else afterSlashes q).any (readsAtoms as)) :=
      fun as => rfl
    rw [hlead, hname]
    have hcontains : (c :: q).contains '/' = q.contains '/' := by simp [Ne.symm hc]
    rw [hcontains, Bool.or_eq_left_iff_imp, List.any_eq_true]
    rintro ⟨rest, hrest, -⟩
    split at hrest
    · cases hrest
    · simpa using mem_of_mem_afterSlashes hrest

/-- A path of the repository, perhaps with a slash at its end: no name on it is empty. -/
def IsWay (path : List Char) : Prop := ∀ s ∈ (splitAt '/' path).dropLast, s ≠ []

instance (path : List Char) : Decidable (IsWay path) := List.decidableBAll _ _

section

variable {names : List String} (hne : names ≠ []) (hsteps : ∀ name ∈ names, Path.IsStep name)
  {path : List Char}

include hne hsteps

theorem head?_of_isWay {q : List Char} (h : IsWay (wayOf names ++ '/' :: q)) : q.head? ≠ some '/' := by
  intro hhead
  obtain ⟨rest, rfl⟩ := List.head?_eq_some_iff.mp hhead
  have hslash : splitAt '/' ('/' :: rest) = [] :: splitAt '/' rest := rfl
  have hmem : [] ∈ (splitAt '/' (wayOf names ++ '/' :: '/' :: rest)).dropLast := by
    rw [splitAt_wayOf hne fun name hname => (hsteps name hname).2.1, hslash,
      List.dropLast_append_of_ne_nil (List.cons_ne_nil _ _),
      List.dropLast_cons_of_ne_nil (splitAt_ne_nil _ _)]
    simp
  exact h [] hmem rfl

/-- Below a way, a pattern holds on what it holds on at the root. The pattern of every path does not
read a line feed there, and so has no say on names of line feeds alone. -/
theorem holds_below (hpath : IsWay path) {pattern : Pattern}
    (hasks : ∀ as, pattern = .atoms as → ∃ test, .one test ∈ as) :
    (pattern.below (wayOf names)).holds path = true ↔
      ∃ q ≠ [], path = wayOf names ++ '/' :: q ∧
        (pattern.holds q = true ∨ pattern = .everything ∧ ∀ c ∈ q, c = '\n') := by
  have hhead : ∀ {q}, path = wayOf names ++ '/' :: q → q.head? ≠ some '/' := by
    rintro q rfl
    exact head?_of_isWay hne hsteps hpath
  cases pattern with
  | everything =>
    have hevery : ∀ q, Pattern.everything.holds q = true ∨ ∀ c ∈ q, c = '\n' := by
      intro q
      by_cases h : ∀ c ∈ q, c = '\n'
      · exact .inr h
      · exact .inl (by simpa [Pattern.holds] using h)
    constructor
    · intro h
      obtain ⟨q, hq, hreads⟩ := readsAtoms_way_gap.mp h
      exact ⟨q, (readsAtoms_star (hhead hq)).mp hreads, hq, (hevery q).imp_right fun h => ⟨rfl, h⟩⟩
    · rintro ⟨q, hnil, hq, -⟩
      exact readsAtoms_way_gap.mpr ⟨q, hq, (readsAtoms_star (hhead hq)).mpr hnil⟩
  | nested =>
    constructor
    · intro h
      obtain ⟨q, hq, hreads⟩ := readsAtoms_way_gap.mp h
      rw [readsAtoms_star_slash (hhead hq)] at hreads
      refine ⟨q, ?_, hq, .inl hreads⟩
      rintro rfl
      cases hreads
    · rintro ⟨q, -, hq, hreads | ⟨hpattern, -⟩⟩
      · exact readsAtoms_way_gap.mpr ⟨q, hq, by rw [readsAtoms_star_slash (hhead hq)]; exact hreads⟩
      · cases hpattern
  | atoms as =>
    rw [holds_below_atoms]
    constructor
    · rintro ⟨q, hq, hreads⟩
      refine ⟨q, ?_, hq, .inl hreads⟩
      rintro rfl
      rw [readsAtoms_nil (hasks as rfl)] at hreads
      cases hreads
    · rintro ⟨q, -, hq, hreads | ⟨hpattern, -⟩⟩
      · exact ⟨q, hq, hreads⟩
      · cases hpattern

end

/-! ### The pattern of a body -/

theorem ofAtoms_map {x : Except RuleError (Option (List Atom))} {f g : List Atom → List Atom}
    {moved : Pattern → Pattern}
    (hback : ∀ as, (f as).any Atom.isBackward = (g as).any Atom.isBackward)
    (hmoved : ∀ as, x = .ok (some as) → moved (.atoms (g as)) = .atoms (f as)) :
    ofAtoms (x.map (Option.map f)) = (ofAtoms (x.map (Option.map g))).map (Option.map moved) := by
  rcases x with e | _ | as
  · rfl
  · rfl
  · simp only [Except.map, Option.map_some, ofAtoms, hback]
    split
    · rfl
    · simp [hmoved as rfl]

theorem map_map_some {ε α β γ : Type} (x : Except ε (Option α)) (f : α → β) (g : β → γ) :
    (x.map (Option.map f)).map (Option.map g) = x.map (Option.map fun a => g (f a)) := by
  rcases x with e | _ | a <;> rfl

theorem any_isBackward_literal (s : List Char) : (literal s).any Atom.isBackward = false := by
  simp [literal, Atom.isBackward]

theorem any_isBackward_slash (afterName : Bool) : (slash afterName).any Atom.isBackward = false := by
  rw [slash_eq_literal, any_isBackward_literal]

theorem ofAtoms_literal {s : List Char} {as : List Atom} (h : as.any Atom.isBackward = false) :
    ofAtoms ((Except.ok (some as)).map (Option.map (literal s ++ ·))) = .ok (some (.atoms (literal s ++ as))) := by
  simp [Except.map, ofAtoms, any_isBackward_literal, h]

theorem segmentAtoms_of_patternOf {body : List Char} {as : List Atom}
    (h : patternOf body = .ok (some (.atoms as))) : segmentAtoms true false (segments body) = .ok (some as) := by
  by_cases hplain : segments body ∈ [[], [deep], [deep, ['*']], [deep, ['*'], deep]]
  · simp only [List.mem_cons, List.not_mem_nil, or_false] at hplain
    unfold patternOf at h
    rcases hplain with hparts | hparts | hparts | hparts
    all_goals rw [hparts] at h
    · cases h
    · by_cases hlast : body.getLast? = some '/' <;> simp [hlast] at h
    · cases h
    · cases h
  · rw [patternOf_eq_ofAtoms rfl hplain] at h
    obtain ⟨as', has, heq⟩ := ofAtoms_eq_ok_some h
    cases heq
    exact has

section

variable {names : List String} (hne : names ≠ []) (hliteral : ∀ name ∈ names, IsLiteral name)

include hne hliteral

/-- Segments behind a way come to the pattern that they come to alone, moved below the way. -/
theorem patternOf_below {parts : List (List Char)} (hsettled : Settled parts)
    (htells : ∃ s ∈ parts, Tells s) {body moved : List Char} (hbody : segments body = parts)
    (hmoved : segments moved = names.map String.toList ++ parts) :
    patternOf moved = (patternOf body).map (Option.map (Pattern.below (wayOf names))) := by
  obtain ⟨t, ht, htells⟩ := htells
  have hparts : parts ≠ [] := List.ne_nil_of_mem ht
  have hway : segmentAtoms true false (names.map String.toList ++ parts) =
      (segmentAtoms false true parts).map (Option.map (literal (wayOf names) ++ ·)) :=
    segmentAtoms_way hne hliteral hparts true false
  rw [patternOf_eq_ofAtoms hmoved (way_not_plain hne hliteral parts), hway]
  by_cases hplain : parts ∈ [[], [deep], [deep, ['*']], [deep, ['*'], deep]]
  · simp only [List.mem_cons, List.not_mem_nil, or_false] at hplain
    rcases hplain with rfl | rfl | rfl | rfl
    · cases ht
    · exact absurd (List.mem_singleton.mp ht) htells.ne_deep
    · have hpattern : patternOf body = .ok (some .everything) := by
        rw [patternOf, hbody]
        rfl
      have hatoms : segmentAtoms false true [deep, ['*']] =
          .ok (some (.gap :: (slash true ++ [.one .withinName, .run, .close]))) := rfl
      rw [hpattern, hatoms]
      exact ofAtoms_literal rfl
    · have hpattern : patternOf body = .ok (some .nested) := by
        rw [patternOf, hbody]
        rfl
      have hatoms : segmentAtoms false true [deep, ['*'], deep] =
          .ok (some (.gap :: (slash true ++ .one .withinName :: .run :: slash true))) := rfl
      rw [hpattern, hatoms]
      exact ofAtoms_literal rfl
  rw [patternOf_eq_ofAtoms hbody hplain]
  obtain ⟨s, parts, rfl⟩ := List.exists_cons_of_ne_nil hparts
  by_cases hs : s = deep
  · subst hs
    obtain ⟨u, parts, rfl⟩ : ∃ u more, parts = u :: more := by
      cases parts with
      | nil => simp at hplain
      | cons u more => exact ⟨u, more, rfl⟩
    have hu : u ≠ deep := by
      rintro rfl
      exact hsettled parts rfl
    rw [segmentAtoms_deep (List.cons_ne_nil _ _), segmentAtoms_deep (List.cons_ne_nil _ _),
      segmentAtoms_of_ne_deep hu _ false (!true), segmentAtoms_of_ne_deep hu _ false (!false)]
    rw [map_map_some, map_map_some, map_map_some]
    apply ofAtoms_map
    · intro as
      simp [any_isBackward_literal, any_isBackward_slash, Atom.isBackward]
    · intro as _
      rfl
  · rw [segmentAtoms_of_ne_deep hs, segmentAtoms_of_ne_deep hs _ true, map_map_some]
    apply ofAtoms_map
    · intro as
      simp [any_isBackward_literal, any_isBackward_slash]
    · intro as has
      have hlead := lead_not_mem_of_segmentAtoms has
      exact below_of_no_lead fun hhead => hlead (List.mem_of_mem_head? hhead)

end

end SuiteDraft.Ignore
