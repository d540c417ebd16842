import SuiteDraft.Proofs.Files.Ways
import SuiteDraft.Proofs.Suite.Placement

/-!
# Where tests go

A test's path may lead through links. Then the test comes to stand elsewhere, and what a placement comes
to is told by what stands there. While other tests are placed, this does not change: a test goes where
it would have gone before.
-/

namespace SuiteDraft.Suite

open Disk

variable {d d' : Disk} {p : Path} {files : List Path} {c : Component} {replace : Bool}
  {names other : List String}

/-- The path of the folder for the tests of the files beside a path. -/
def testsPath (p : Path) : Path := ⟨p.anchor, testsFolder p⟩

/-- The name of a test. -/
def testName (p : Path) : String := p.stem ++ ".test.tsx"

theorem testName_ne_dots (p : Path) : testName p ≠ ".." := append_testSuffix_ne (by decide) _

/-- Once there is a folder for it, the test of a file goes to the place at the end of names. -/
def Goes (d : Disk) (p : Path) (names : List String) : Prop :=
  ∃ links ≤ maxLinks, (withFolder d p).Reaches links [] (pathFor p).parts names

theorem Goes.unique (h : Goes d p names) (h' : Goes d p other) : names = other := by
  obtain ⟨links, -, hreaches⟩ := h
  obtain ⟨more, -, hreaches'⟩ := h'
  exact (hreaches.unique hreaches').2

theorem withFolder_of_some (h : (d.bare? (testsFolder p)).isSome) : withFolder d p = d := if_pos h

theorem current_withFolder (d : Disk) (p : Path) : (withFolder d p).current = d.current := by
  rw [withFolder]
  split <;> rfl

namespace InFolder

theorem bare?_testsFolder (h : InFolder d p) (hnone : d.bare? (testsFolder p) = none) :
    (withFolder d p).bare? (testsFolder p) = some (.folder []) := by
  rw [h.bare?_withFolder, if_pos ⟨rfl, hnone⟩]

theorem bare?_pathFor (h : InFolder d p) (hnone : d.bare? (testsFolder p) = none) :
    (withFolder d p).bare? (pathFor p).parts = none := by
  rw [h.bare?_withFolder, if_neg fun heq => pathFor_ne_testsFolder p p heq.1, parts_pathFor]
  exact bare?_append_eq_none (List.cons_ne_nil _ _) (by simp [hnone])

/-- Where there is no folder for it yet, a test goes to where its path says. -/
theorem goes_of_none (h : InFolder d p) (hnone : d.bare? (testsFolder p) = none) :
    Goes d p (pathFor p).parts := by
  have hfolder := h.bare?_testsFolder hnone
  have hto : (withFolder d p).Reaches 0 [] (testsFolder p) (testsFolder p) :=
    reaches_folders hfolder (not_mem_testsFolder h.noDots)
  have hon : (withFolder d p).Reaches 0 (testsFolder p) [testName p] (pathFor p).parts := by
    refine .step (testName_ne_dots p) (fun target => ?_) (fun hnil => absurd rfl hnil) (.nil _)
    have hfree := h.bare?_pathFor hnone
    rw [parts_pathFor] at hfree
    rw [testName, hfree]
    exact fun h => nomatch h
  exact ⟨0, Nat.zero_le _, hto.append hfolder hon⟩

theorem origin_pathFor (h : InFolder d p) (d' : Disk) : d'.origin (pathFor p) = [] := if_neg h.anchored

theorem locate_of_goes (h : InFolder d p) (hgoes : Goes d p names) :
    (withFolder d p).locate true (pathFor p) = .ok ((withFolder d p).foundAt names) := by
  obtain ⟨links, hlinks, hreaches⟩ := hgoes
  rw [locate, h.origin_pathFor]
  exact hreaches.locateWithin hlinks

theorem goes_of_locate (h : InFolder d p) {found : Found}
    (hfound : (withFolder d p).locate true (pathFor p) = .ok found) : Goes d p found.names := by
  rw [locate, h.origin_pathFor] at hfound
  exact reaches_of_locateWithin hfound

/-- A test goes to a place in a folder, unless a folder stands there. -/
theorem parent_of_goes (hgoes : Goes d p names) :
    (withFolder d p).bare? names = some (.folder []) ∨ ∃ inside name, names = inside ++ [name] ∧
      (withFolder d p).bare? inside = some (.folder []) ∧
      ∀ target, (withFolder d p).bare? names ≠ some (.link target) := by
  obtain ⟨links, -, hreaches⟩ := hgoes
  rcases hreaches.last_cases (bare?_root _) with hfolder | ⟨inside, name, hnames, hinside, -, hlink⟩
  · exact .inl hfolder
  · exact .inr ⟨inside, name, hnames, hinside, hlink⟩

/-- A new folder for tests is not where the test itself goes. -/
theorem bare?_withFolder_of_goes (h : InFolder d p) (hgoes : Goes d p names) :
    (withFolder d p).bare? names = d.bare? names := by
  rw [h.bare?_withFolder]
  apply if_neg
  rintro ⟨rfl, hnone⟩
  exact pathFor_ne_testsFolder p p ((h.goes_of_none hnone).unique hgoes)

/-! ### Making the folder -/

/-- Nothing stands in the place of the folder for tests only if a lookup comes to a free place there. -/
theorem makeOne_testsPath (h : InFolder d p) :
    d.makeOne (testsPath p) = if (d.bare? (testsFolder p)).isSome then .error .present
      else .ok (withFolder d p) := by
  have hlocate : d.locate false (testsPath p) =
      d.locateWithin false maxLinks p.parts.dropLast ["__tests__"] :=
    locate_names h.anchored rfl h.folder h.noDots
  rw [makeOne, hlocate, locateWithin_cons, if_neg (by decide), ← testsFolder, withFolder]
  cases hbare : d.bare? (testsFolder p) with
  | none => rfl
  | some e =>
    cases e with
    | file bytes => rfl
    | link target => rfl
    | folder es =>
      obtain ⟨es, hes⟩ := bare?_eq_folder_iff.mp (bare?_folder_nil hbare)
      dsimp only
      rw [locateWithin_nil, hes]
      rfl

theorem holdsFolder_of_none (h : InFolder d p) (hnone : d.bare? (testsFolder p) = none) :
    (withFolder d p).holdsFolder (testsPath p) = true := by
  have hfolder := h.bare?_testsFolder hnone
  have hplain : (withFolder d p).Plain (testsPath p) :=
    ⟨h.anchored, not_mem_testsFolder h.noDots, noLinkAlong_of_bare? hfolder rfl⟩
  exact hplain.holdsFolder_iff.mpr hfolder

/-- There is a folder for tests after it was made, or something else is in its place. -/
theorem makeFolder (h : InFolder d p) :
    d.makeFolder (testsPath p) = if (withFolder d p).holdsFolder (testsPath p) then
      .ok (withFolder d p) else .error ⟨⟨.present, testsPath p⟩, d⟩ := by
  have hone := h.makeOne_testsPath
  cases hbare : d.bare? (testsFolder p) with
  | none =>
    rw [hbare] at hone
    rw [makeFolder_eq_makeOrKeep (by simp [hone]), makeOrKeep, hone, h.holdsFolder_of_none hbare]
    rfl
  | some e =>
    rw [hbare] at hone
    rw [makeFolder_eq_makeOrKeep (by simp [hone]), makeOrKeep, hone,
      withFolder_of_some (by rw [hbare]; rfl)]
    rfl

/-- Where a test goes somewhere, there is a folder for it. -/
theorem holdsFolder_of_goes (h : InFolder d p) (hgoes : Goes d p names) :
    (withFolder d p).holdsFolder (testsPath p) = true := by
  obtain ⟨links, hlinks, hreaches⟩ := hgoes
  rw [parts_pathFor] at hreaches
  obtain ⟨first, second, middle, rfl, hfirst, -, hmiddle⟩ := hreaches.split
  have hfolder := hmiddle (bare?_root _) (List.cons_ne_nil _ _)
  have horigin : (withFolder d p).origin (testsPath p) = [] := if_neg h.anchored
  have hfound := hfirst.locateWithin (Nat.le_of_add_right_le hlinks)
  obtain ⟨es, hes⟩ := bare?_eq_folder_iff.mp hfolder
  rw [foundAt, hes] at hfound
  rw [holdsFolder_iff]
  refine ⟨es, follow_eq_ok_iff.mpr ⟨middle, ?_⟩⟩
  rw [locate, horigin]
  exact hfound

/-- Whether there is something in a test's place does not depend on the folder for it. -/
theorem holds_withFolder (h : InFolder d p) :
    (withFolder d p).holds (pathFor p) = d.holds (pathFor p) := by
  cases hbare : d.bare? (testsFolder p) with
  | some e => rw [withFolder_of_some (by rw [hbare]; rfl)]
  | none =>
    have hmissing : d.locate true (pathFor p) = .error .missing := by
      have hfolder : d.bare? ([] ++ p.parts.dropLast) = some (.folder []) := h.folder
      rw [locate, h.origin_pathFor, parts_pathFor, testsFolder, List.append_assoc,
        Disk.locateWithin_append hfolder h.noDots, List.nil_append, List.singleton_append,
        locateWithin_cons, if_neg (by decide), ← testsFolder, hbare]
      rfl
    have hfree := h.locate_of_goes (h.goes_of_none hbare)
    rw [foundAt, bare?_eq_none_iff.mp (h.bare?_pathFor hbare)] at hfree
    rw [holds, follow, hfree, holds, follow, hmissing]
    rfl

/-! ### What comes of a placement -/

/-- Where something stands where a test goes, there is a folder for it already. -/
theorem withFolder_of_goes (h : InFolder d p) (hgoes : Goes d p names)
    (hsome : (d.bare? names).isSome) : withFolder d p = d := by
  apply withFolder_of_some
  by_contra hnone
  rw [Option.not_isSome_iff_eq_none] at hnone
  have hfree := h.bare?_pathFor hnone
  rw [(h.goes_of_none hnone).unique hgoes, h.bare?_withFolder_of_goes hgoes] at hfree
  rw [hfree] at hsome
  cases hsome

theorem holds_of_goes (h : InFolder d p) (hgoes : Goes d p names) :
    d.holds (pathFor p) = (d.bare? names).isSome := by
  rw [← h.holds_withFolder, ← h.bare?_withFolder_of_goes hgoes, holds, follow, h.locate_of_goes hgoes,
    foundAt, bare?]
  cases Disk.entry? (withFolder d p) names <;> rfl

theorem not_link_of_goes (h : InFolder d p) (hgoes : Goes d p names) (target : String) :
    d.bare? names ≠ some (.link target) := by
  rw [← h.bare?_withFolder_of_goes hgoes]
  rcases parent_of_goes hgoes with hfolder | ⟨-, -, -, -, hno⟩
  · simp [hfolder]
  · exact hno target

theorem write_of_folder (h : InFolder d p) (hgoes : Goes d p names)
    (hfolder : d.bare? names = some (.folder [])) (bytes : List UInt8) :
    (withFolder d p).write (pathFor p) bytes = .error ⟨⟨.isDirectory, pathFor p⟩, d⟩ := by
  have hd := h.withFolder_of_goes hgoes (by rw [hfolder]; rfl)
  obtain ⟨es, hes⟩ := bare?_eq_folder_iff.mp hfolder
  rw [write, h.locate_of_goes hgoes, hd, foundAt, hes]
  rfl

theorem write_of_ne_folder (h : InFolder d p) (hgoes : Goes d p names)
    (hne : d.bare? names ≠ some (.folder [])) (bytes : List UInt8) :
    (withFolder d p).write (pathFor p) bytes = .ok ((withFolder d p).put names (.file bytes)) := by
  have hsame := h.bare?_withFolder_of_goes hgoes
  rw [write, h.locate_of_goes hgoes, foundAt]
  cases hentry : Disk.entry? (withFolder d p) names with
  | none => rfl
  | some e =>
    cases e with
    | file old => rfl
    | folder es => exact absurd (hsame ▸ bare?_eq_folder_iff.mpr ⟨es, hentry⟩) hne
    | link target =>
      exact absurd (hsame ▸ bare?_eq_link_iff.mpr hentry) (h.not_link_of_goes hgoes target)

end InFolder

/-- What can come of a placement, by what stands where the test goes. -/
inductive Fate (d : Disk) (p : Path) (c : Component) (replace : Bool) :
    Except Setback (Option Disk) → Prop
  | nowhere (error : FileError) : (∀ names, ¬ Goes d p names) → Fate d p c replace (.error ⟨error, d⟩)
  | kept {names : List String} : Goes d p names → (d.bare? names).isSome → replace = false →
      Fate d p c replace (.ok none)
  | blocked {names : List String} (error : FileError) : Goes d p names →
      d.bare? names = some (.folder []) → replace = true → Fate d p c replace (.error ⟨error, d⟩)
  | written {names : List String} : Goes d p names →
      d.bare? names = none ∨ replace = true ∧ (∃ old, d.bare? names = some (.file old)) →
      Fate d p c replace (.ok (some ((withFolder d p).put names
        (.file (bytesOf (textFor p (some c)))))))

theorem InFolder.fate (h : InFolder d p) (c : Component) (replace : Bool) :
    Fate d p c replace (place d p (some c) replace) := by
  have hparent : (pathFor p).parent = testsPath p := parent_pathFor p
  rw [place_eq, hparent, h.makeFolder]
  by_cases hgoes : ∃ names, Goes d p names
  · obtain ⟨names, hgoes⟩ := hgoes
    rw [h.holdsFolder_of_goes hgoes, if_pos rfl, h.holds_of_goes hgoes]
    cases hbare : d.bare? names with
    | none =>
      rw [Option.isSome_none, Bool.false_and, if_neg Bool.false_ne_true, Except.bind,
        h.write_of_ne_folder hgoes (by simp [hbare])]
      exact .written hgoes (.inl hbare)
    | some e =>
      have hthere : (d.bare? names).isSome := by rw [hbare]; rfl
      cases replace with
      | false => exact .kept hgoes hthere rfl
      | true =>
        rw [Bool.not_true, Bool.and_false, if_neg Bool.false_ne_true, Except.bind]
        cases e with
        | file old =>
          rw [h.write_of_ne_folder hgoes (by simp [hbare])]
          exact .written hgoes (.inr ⟨rfl, old, hbare⟩)
        | folder es =>
          have hfolder := bare?_folder_nil hbare
          rw [h.write_of_folder hgoes hfolder]
          exact .blocked _ hgoes hfolder rfl
        | link target => exact absurd hbare (h.not_link_of_goes hgoes target)
  · rw [not_exists] at hgoes
    have hsome : (d.bare? (testsFolder p)).isSome := by
      by_contra hnone
      exact hgoes _ (h.goes_of_none (Option.not_isSome_iff_eq_none.mp hnone))
    have hd := withFolder_of_some hsome
    cases hlocate : d.locate true (pathFor p) with
    | ok found => exact absurd (h.goes_of_locate (hd.symm ▸ hlocate)) (hgoes _)
    | error fault =>
      have hholds : d.holds (pathFor p) = false := by
        rw [holds, follow, hlocate]
        rfl
      rw [hholds, Bool.false_and, if_neg Bool.false_ne_true, hd]
      split
      · rw [Except.bind, write, hlocate]
        exact .nowhere _ hgoes
      · exact .nowhere _ hgoes

/-- A placement succeeds unless its test goes nowhere or is to replace a folder. -/
theorem InFolder.place_eq_ok_iff (h : InFolder d p) (c : Component) (replace : Bool) :
    (∃ disk?, place d p (some c) replace = .ok disk?) ↔
      ∃ names, Goes d p names ∧ ¬ (replace = true ∧ d.bare? names = some (.folder [])) := by
  have hfate := h.fate c replace
  generalize place d p (some c) replace = outcome at hfate
  constructor
  · rintro ⟨disk?, rfl⟩
    cases hfate with
    | kept hgoes hsome hreplace => exact ⟨_, hgoes, fun h => by simp [hreplace] at h⟩
    | written hgoes hfree => exact ⟨_, hgoes, fun h => by simp [h.2] at hfree⟩
  · rintro ⟨names, hgoes, hnot⟩
    cases hfate with
    | nowhere error hno => exact absurd hgoes (hno names)
    | kept => exact ⟨_, rfl⟩
    | blocked error hgoes' hfolder hreplace =>
      rw [hgoes'.unique hgoes] at hfolder
      exact absurd ⟨hreplace, hfolder⟩ hnot
    | written => exact ⟨_, rfl⟩

namespace InFolder

theorem bare?_put (h : InFolder d p) (hgoes : Goes d p names)
    (hne : d.bare? names ≠ some (.folder [])) (bytes : List UInt8) (other : List String) :
    ((withFolder d p).put names (.file bytes)).bare? other =
      if other = names then some (.file bytes) else (withFolder d p).bare? other := by
  rw [← h.bare?_withFolder_of_goes hgoes] at hne
  rcases parent_of_goes hgoes with hfolder | ⟨inside, name, rfl, hinside, -⟩
  · exact absurd hfolder hne
  · exact bare?_put_bare hinside hne rfl other

theorem sameKinds_put (h : InFolder d p) (hgoes : Goes d p names)
    (hfree : d.bare? names = none ∨ ∃ old, d.bare? names = some (.file old)) {bytes : List UInt8} :
    (withFolder d p).SameKinds ((withFolder d p).put names (.file bytes)) := by
  rw [← h.bare?_withFolder_of_goes hgoes] at hfree
  rcases parent_of_goes hgoes with hfolder | ⟨inside, name, rfl, hinside, -⟩
  · simp [hfolder] at hfree
  · exact Disk.sameKinds_put hinside hfree

/-- A placement changes nothing but what stands where its test goes, and that there is a folder for
it. -/
theorem bare?_placed_of_ne (h : InFolder d p) (hnot : ¬ Goes d p other)
    (hthere : other = testsFolder p → (d.bare? other).isSome) (c : Component) (replace : Bool) :
    (placed d p c replace).bare? other = d.bare? other := by
  have hfate := h.fate c replace
  rw [placed]
  generalize place d p (some c) replace = outcome at hfate
  cases hfate with
  | nowhere => rfl
  | kept => rfl
  | blocked => rfl
  | @written names hgoes hfree =>
    have hne : d.bare? names ≠ some (.folder []) := fun h => by simp [h] at hfree
    have hother : other ≠ names := fun heq => hnot (heq ▸ hgoes)
    change ((withFolder d p).put names _).bare? other = _
    rw [h.bare?_put hgoes hne, if_neg hother, h.bare?_withFolder, if_neg]
    rintro ⟨heq, hnone⟩
    have hsome := hthere heq
    rw [hnone] at hsome
    cases hsome

/-- Where a test goes, a placement that succeeds leaves what was to be kept there, or the test. -/
theorem bare?_placed (h : InFolder d p) (hgoes : Goes d p names) {disk? : Option Disk}
    (hwell : place d p (some c) replace = .ok disk?) :
    (placed d p c replace).bare? names =
      if (d.bare? names).isSome && !replace then d.bare? names
      else some (.file (bytesOf (textFor p (some c)))) := by
  have hfate := h.fate c replace
  rw [placed, hwell]
  rw [hwell] at hfate
  cases hfate with
  | kept hgoes' hsome hreplace =>
    rw [hgoes'.unique hgoes] at hsome
    rw [hsome, hreplace]
    rfl
  | written hgoes' hfree =>
    rw [hgoes'.unique hgoes] at hfree
    have hne : d.bare? names ≠ some (.folder []) := fun h => by simp [h] at hfree
    have hnot : ((d.bare? names).isSome && !replace) = false := by
      rcases hfree with hnone | ⟨hreplace, -⟩
      · rw [hnone]
        rfl
      · rw [hreplace, Bool.not_true, Bool.and_false]
    change ((withFolder d p).put _ _).bare? names = _
    rw [hgoes'.unique hgoes, h.bare?_put hgoes hne, if_pos rfl, hnot]
    rfl

end InFolder

/-! ### Disks on which other tests were placed -/

/-- What a disk can become while the tests of files are placed: kinds are kept, new folders are those for
the tests of the files, and in the place of such a folder nothing else is new. -/
structure Evolved (files : List Path) (d d' : Disk) : Prop extends SameKinds d d' where
  current : d'.current = d.current
  tests : ∀ f ∈ files, d.bare? (testsFolder f) = none →
    d'.bare? (testsFolder f) = none ∨ d'.bare? (testsFolder f) = some (.folder [])
  new : ∀ names, d'.bare? names = some (.folder []) →
    d.bare? names = some (.folder []) ∨ ∃ f ∈ files, names = testsFolder f

namespace Evolved

theorem refl (files : List Path) (d : Disk) : Evolved files d d :=
  ⟨.refl d, rfl, fun _ _ => .inl, fun _ => .inl⟩

theorem trans {d₁ d₂ d₃ : Disk} (h : Evolved files d₁ d₂) (h' : Evolved files d₂ d₃) :
    Evolved files d₁ d₃ where
  toSameKinds := h.toSameKinds.trans h'.toSameKinds
  current := h'.current.trans h.current
  tests f hf hnone := (h.tests f hf hnone).elim (h'.tests f hf) fun hfolder =>
    .inr (h'.folder _ hfolder)
  new names hfolder := (h'.new names hfolder).elim (h.new names) .inr

theorem folder_back (he : Evolved files d d') (hfolder : d'.bare? names = some (.folder []))
    (htests : ∀ f ∈ files, names = testsFolder f → d.bare? names ≠ none) :
    d.bare? names = some (.folder []) := by
  rcases he.new names hfolder with hold | ⟨f, hf, hfor⟩
  · exact hold
  · obtain ⟨e, hbare⟩ := Option.ne_none_iff_exists'.mp (htests f hf hfor)
    cases e with
    | folder es => exact bare?_folder_nil hbare
    | file bytes =>
      obtain ⟨bytes', hfile⟩ := he.file _ _ hbare
      rw [hfolder] at hfile
      cases hfile
    | link target =>
      rw [(he.link _ target).mpr hbare] at hfolder
      cases hfolder

/-- A way was there before, unless it broke off where a folder for tests is missing. -/
theorem reaches_back (he : Evolved files d d') {n links : Nat} {done parts last : List String}
    (h : d'.Reaches links done parts last) (hn : links ≤ n)
    (hgap : ∀ f ∈ files, d.gapWithin? n done parts ≠ some (testsFolder f)) :
    d.Reaches links done parts last := by
  induction h generalizing n with
  | nil done => exact .nil done
  | up h ih =>
    rw [gapWithin?_cons, if_pos rfl] at hgap
    exact .up (ih hn hgap)
  | @step links done rest last name hname hlink hfolder h ih =>
    have hlink' : ∀ target, d.bare? (done ++ [name]) ≠ some (.link target) :=
      fun target hhere => hlink target ((he.link _ target).mpr hhere)
    rw [gapWithin?_cons, if_neg hname] at hgap
    by_cases hrest : rest = []
    · subst hrest
      cases h
      exact .step hname hlink' (fun hne => absurd rfl hne) (.nil _)
    · have hfolder' : d.bare? (done ++ [name]) = some (.folder []) := by
        apply he.folder_back (hfolder hrest)
        intro f hf hfor hnone
        rw [hnone] at hgap
        exact hgap f hf (congrArg some hfor)
      rw [hfolder'] at hgap
      exact .step hname hlink' (fun _ => hfolder') (ih hn hgap)
  | @link links done rest last name target hname hlink h ih =>
    obtain ⟨m, rfl⟩ := Nat.exists_eq_succ_of_ne_zero (by omega : n ≠ 0)
    have hlink' := (he.link _ target).mp hlink
    rw [gapWithin?_cons, if_neg hname, hlink'] at hgap
    exact .link hname hlink' (ih (by omega) hgap)

end Evolved

theorem InFolder.sameKinds_evolved (h : InFolder d p) (hp : p ∈ files) (he : Evolved files d d') :
    (withFolder d p).SameKinds (withFolder d' p) := by
  have hbare := h.bare?_withFolder
  have hbare' := (h.mono he.toSameKinds).bare?_withFolder
  by_cases hnone : d.bare? (testsFolder p) = none
  · have hfolder : (withFolder d p).bare? (testsFolder p) = some (.folder []) :=
      h.bare?_testsFolder hnone
    have hfolder' : (withFolder d' p).bare? (testsFolder p) = some (.folder []) := by
      rw [hbare']
      rcases he.tests p hp hnone with hnone' | hfolder'
      · rw [if_pos ⟨rfl, hnone'⟩]
      · rw [if_neg fun h => by simp [hfolder'] at h]
        exact hfolder'
    refine ⟨fun names hnames => ?_, fun names bytes hnames => ?_, fun names target => ?_⟩ <;>
      by_cases heq : names = testsFolder p
    · rw [heq, hfolder']
    · rw [hbare, if_neg fun h => heq h.1] at hnames
      rw [hbare', if_neg fun h => heq h.1]
      exact he.folder names hnames
    · rw [heq, hfolder] at hnames
      cases hnames
    · rw [hbare, if_neg fun h => heq h.1] at hnames
      rw [hbare', if_neg fun h => heq h.1]
      exact he.file names bytes hnames
    · rw [heq, hfolder, hfolder']
    · rw [hbare, if_neg fun h => heq h.1, hbare', if_neg fun h => heq h.1]
      exact he.link names target
  · have hsome := Option.isSome_iff_ne_none.mpr hnone
    rw [withFolder_of_some hsome, withFolder_of_some (he.isSome hsome)]
    exact he.toSameKinds

theorem Goes.evolved (hgoes : Goes d p names) (h : InFolder d p) (hp : p ∈ files)
    (he : Evolved files d d') : Goes d' p names := by
  obtain ⟨links, hlinks, hreaches⟩ := hgoes
  exact ⟨links, hlinks, (h.sameKinds_evolved hp he).reaches hreaches⟩

/-- One of the files, whose test goes to a place that can be told from the disk as it is: the way there
breaks off at no missing folder for the tests of the files but its own. -/
structure Fitting (files : List Path) (d : Disk) (p : Path) : Prop extends InFolder d p where
  mem : p ∈ files
  gap : ∀ f ∈ files, d.gap? (pathFor p) = some (testsFolder f) → testsFolder f = testsFolder p

namespace Fitting

/-- Where there is a folder for a test, the way to the test breaks off at no other. -/
theorem gap_ne_tests (h : Fitting files d p) (hsome : (d.bare? (testsFolder p)).isSome) :
    ∀ f ∈ files, d.gapWithin? maxLinks [] (pathFor p).parts ≠ some (testsFolder f) := by
  intro f hf hplace
  have hgap : d.gap? (pathFor p) = some (testsFolder f) := by
    rw [gap?, h.origin_pathFor]
    exact hplace
  rw [← h.gap f hf hgap, bare?_of_gapWithin? hplace] at hsome
  cases hsome

/-- The test goes where it would have gone before. -/
theorem goes_iff (h : Fitting files d p) (he : Evolved files d d') : Goes d' p names ↔ Goes d p names := by
  refine ⟨fun hgoes => ?_, fun hgoes => hgoes.evolved h.toInFolder h.mem he⟩
  by_cases hsome : (d.bare? (testsFolder p)).isSome
  · obtain ⟨links, hlinks, hreaches⟩ := hgoes
    rw [withFolder_of_some (he.isSome hsome)] at hreaches
    refine ⟨links, hlinks, ?_⟩
    rw [withFolder_of_some hsome]
    exact he.reaches_back hreaches hlinks (h.gap_ne_tests hsome)
  · have hown := h.goes_of_none (Option.not_isSome_iff_eq_none.mp hsome)
    rw [hgoes.unique (hown.evolved h.toInFolder h.mem he)]
    exact hown

/-- It does not go where a folder for tests is missing. -/
theorem isSome_of_tests (h : Fitting files d p) (he : Evolved files d d') {f : Path} (hf : f ∈ files)
    (hgoes : Goes d p (testsFolder f)) : (d'.bare? (testsFolder f)).isSome := by
  apply he.isSome
  by_contra hnone
  rw [Option.not_isSome_iff_eq_none] at hnone
  by_cases hsome : (d.bare? (testsFolder p)).isSome
  · obtain ⟨links, hlinks, hreaches⟩ := hgoes
    rw [withFolder_of_some hsome] at hreaches
    exact h.gap_ne_tests hsome f hf (hreaches.gapWithin?_eq hlinks d.bare?_root hnone)
  · have hown := h.goes_of_none (Option.not_isSome_iff_eq_none.mp hsome)
    exact pathFor_ne_testsFolder p f (hown.unique hgoes)

/-- So a disk goes on as it can while such tests are placed. -/
theorem evolved_placed (h : Fitting files d p) (he : Evolved files d d') (c : Component)
    (replace : Bool) : Evolved files d' (placed d' p c replace) := by
  have h' := h.toInFolder.mono he.toSameKinds
  have hfate := h'.fate c replace
  rw [placed]
  generalize place d' p (some c) replace = outcome at hfate
  cases hfate with
  | nowhere => exact .refl files d'
  | kept => exact .refl files d'
  | blocked => exact .refl files d'
  | @written spot hgoes hfree =>
    have hne : d'.bare? spot ≠ some (.folder []) := fun h => by simp [h] at hfree
    change Evolved files d' ((withFolder d' p).put spot _)
    have hbare := h'.bare?_put hgoes hne (bytesOf (textFor p (some c)))
    refine ⟨h'.sameKinds_withFolder.trans (h'.sameKinds_put hgoes (hfree.imp_right And.right)),
      current_withFolder d' p, fun f hf hnone => ?_, fun names hfolder => ?_⟩
    · have hspot : testsFolder f ≠ spot := by
        rintro rfl
        have hsome := h.isSome_of_tests he hf ((h.goes_iff he).mp hgoes)
        rw [hnone] at hsome
        cases hsome
      rw [hbare, if_neg hspot, h'.bare?_withFolder]
      split
      · exact .inr rfl
      · exact .inl hnone
    · rw [hbare] at hfolder
      split at hfolder
      · cases hfolder
      · rw [h'.bare?_withFolder] at hfolder
        split at hfolder
        · rename_i hown
          exact .inr ⟨p, h.mem, hown.1⟩
        · exact .inl hfolder

end Fitting

/-! ### Reading tests -/

/-- A placement that has nothing to keep does not keep it. -/
theorem place_ne_none (hnew : (d.holds (pathFor p) && !replace) = false) :
    place d p (some c) replace ≠ .ok none := by
  rw [place_eq, hnew, if_neg Bool.false_ne_true]
  cases d.makeFolder (pathFor p).parent with
  | error setback => exact fun h => nomatch h
  | ok d₁ =>
    rw [Except.bind]
    cases d₁.write (pathFor p) (bytesOf (textFor p (some c))) with
    | error setback => exact fun h => nomatch h
    | ok d₂ => exact fun h => nomatch h

/-- A test that was placed is read at its path. -/
theorem read_of_place (hp : p.anchor ≠ .here) (h : place d p (some c) replace = .ok (some d')) :
    d'.read (pathFor p) = .ok (bytesOf (textFor p (some c))) := by
  rw [place_eq] at h
  split at h
  · cases h
  · cases hmake : d.makeFolder (pathFor p).parent with
    | error setback =>
      rw [hmake] at h
      cases h
    | ok d₁ =>
      rw [hmake, Except.bind] at h
      cases hwrite : d₁.write (pathFor p) (bytesOf (textFor p (some c))) with
      | error setback =>
        rw [hwrite] at h
        cases h
      | ok d₂ =>
        rw [hwrite] at h
        cases h
        have hanchor : (pathFor p).anchor ≠ .here := hp
        exact read_of_write hanchor hwrite

namespace InFolder

/-- Where a test goes is what its path is without links. -/
theorem resolve_of_goes (h : InFolder d p) (hgoes : Goes d p names) :
    d.resolve (pathFor p) = .ok ⟨.root, names⟩ := by
  have hresolve := h.sameKinds_withFolder.resolve_eq (current_withFolder d p)
    (by rw [h.origin_pathFor]; exact d.bare?_root) (by rw [h.origin_pathFor]; exact List.not_mem_nil)
    (h.locate_of_goes hgoes)
  rwa [foundAt_names] at hresolve

theorem read_of_goes (h : InFolder d p) (hgoes : Goes d p names) (hsome : (d.bare? names).isSome) :
    d.read (pathFor p) = reading (d.bare? names) := by
  have hlocate := h.locate_of_goes hgoes
  rw [h.withFolder_of_goes hgoes hsome] at hlocate
  rw [read_of_locate hlocate, foundAt_names]

end InFolder

end SuiteDraft.Suite
