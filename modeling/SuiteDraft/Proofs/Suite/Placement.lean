import SuiteDraft.Proofs.Files.Change
import SuiteDraft.Suite.Placement

/-!
# Putting test files in their places

Unless it is to be replaced, what stands in a test's place stays, and so does all else: a placement
adds folders and at most one file, the test. Where no links are in the way, what comes of a placement
is told by what stands in the test's place and in that of the folder around it.
-/

namespace SuiteDraft.Suite

open Disk

variable {d d' : Disk} {p : Path} {c : Component} {replace : Bool} {names : List String}
  {bytes : List UInt8}

/-- The disk after a placement, whether it comes to its end or not. -/
def placed (d : Disk) (p : Path) (c : Component) (replace : Bool) : Disk :=
  left ((place d p (some c) replace).map (·.getD d))

theorem place_eq (d : Disk) (p : Path) (c : Component) (replace : Bool) :
    place d p (some c) replace =
      if d.holds (pathFor p) && !replace then .ok none
      else (d.makeFolder (pathFor p).parent).bind fun d' =>
        (d'.write (pathFor p) (bytesOf (textFor p (some c)))).map some := by
  rw [place]
  split <;> rfl

theorem placed_eq (d : Disk) (p : Path) (c : Component) (replace : Bool) :
    placed d p c replace =
      if d.holds (pathFor p) && !replace then d
      else
        match d.makeFolder (pathFor p).parent with
        | .error setback => setback.disk
        | .ok d' => left (d'.write (pathFor p) (bytesOf (textFor p (some c)))) := by
  rw [placed, place_eq]
  split
  · rfl
  · cases d.makeFolder (pathFor p).parent with
    | error setback => rfl
    | ok d' =>
      change left (((d'.write _ _).map some).map _) = left (d'.write _ _)
      cases d'.write (pathFor p) (bytesOf (textFor p (some c))) <;> rfl

/-- The place of the folder for the tests of the files beside a path. -/
def testsFolder (p : Path) : List String := p.parts.dropLast ++ ["__tests__"]

theorem parts_pathFor (p : Path) : (pathFor p).parts = testsFolder p ++ [p.stem ++ ".test.tsx"] := rfl

theorem parent_pathFor (p : Path) : (pathFor p).parent = ⟨p.anchor, testsFolder p⟩ := by
  rw [Path.parent, parts_pathFor, List.dropLast_concat]
  rfl

theorem append_testSuffix_ne {word : String} (h : word.toList.getLast? ≠ some 'x') (stem : String) :
    stem ++ ".test.tsx" ≠ word := by
  rintro rfl
  have hlast : ".test.tsx".toList.getLast? = some 'x' := by decide
  rw [String.toList_append, List.getLast?_append, hlast, Option.some_or] at h
  exact h rfl

theorem not_mem_testsFolder (h : ".." ∉ p.parts.dropLast) : ".." ∉ testsFolder p := by
  rw [testsFolder, List.mem_append, List.mem_singleton, not_or]
  exact ⟨h, by decide⟩

theorem not_mem_pathFor (h : ".." ∉ p.parts.dropLast) : ".." ∉ (pathFor p).parts := by
  rw [parts_pathFor, List.mem_append, List.mem_singleton, not_or]
  exact ⟨not_mem_testsFolder h, (append_testSuffix_ne (by decide) p.stem).symm⟩

/-! ### What is there stays -/

/-- At the end of names stands the test of the component `c` of the file at `p`. -/
def IsTest (d : Disk) (p : Path) (c : Component) (names : List String) (bytes : List UInt8) : Prop :=
  d.locate true (pathFor p) = .ok (.present names (.file bytes)) ∧ bytes = bytesOf (textFor p (some c))

theorem IsTest.mono (h : d.Grows d') (htest : IsTest d p c names bytes) :
    IsTest d' p c names bytes := by
  obtain ⟨e, hfound, hbare⟩ := h.locate_present htest.1
  rw [Entry.bare_eq_file_iff.mp hbare] at hfound
  exact ⟨hfound, htest.2⟩

/-- A placement that is not to replace anything adds folders and the test, if anything: also where it
fails, and also where the folder of the test lies behind links. -/
theorem gains_placed (hp : p.anchor ≠ .here) (hdots : ".." ∉ p.parts.dropLast)
    (hlinks : d.NoneDangles) (hd : d.NoDots) (c : Component) :
    d.Gains (placed d p c false) (IsTest (placed d p c false) p c) := by
  rw [placed_eq]
  cases hholds : d.holds (pathFor p) with
  | true => exact .refl d _
  | false =>
    have hmade := addsFolders_makeFolder (p := (pathFor p).parent) hp d
    rw [Bool.false_and, if_neg Bool.false_ne_true]
    cases hmake : d.makeFolder (pathFor p).parent with
    | error setback =>
      rw [hmake] at hmade
      exact hmade.mono fun _ _ => False.elim
    | ok d₁ =>
      rw [hmake] at hmade
      have hmade : d.AddsFolders d₁ := hmade
      -- no file has come to stand in the test's place with the new folders
      have hfile : ∀ names bytes, d₁.locate true (pathFor p) ≠ .ok (.present names (.file bytes)) := by
        intro names bytes hfound
        have horigin : ∀ d : Disk, d.origin (pathFor p) = [] := fun _ => if_neg hp
        rw [locate, horigin] at hfound
        have hbefore := hmade.file_of_locateWithin hlinks hd (Nat.le_refl maxLinks) [] (.inl rfl)
          (not_mem_pathFor hdots) hfound
        have hfollow : d.follow (pathFor p) = .ok (.file bytes) :=
          follow_eq_ok_iff.mpr ⟨names, by rw [locate, horigin]; exact hbefore⟩
        rw [holds_iff.mpr ⟨_, hfollow⟩] at hholds
        cases hholds
      have hwritten := gains_write (p := pathFor p) hp hfile (bytesOf (textFor p (some c)))
      exact (hmade.mono fun _ _ => False.elim).trans
        (hwritten.mono fun _ _ hnew => ⟨hnew.2, hnew.1⟩)

/-! ### Where no links are in the way -/

/-- A path from the root, without double dots up to its last name, in a folder that stands on a disk. -/
structure InFolder (d : Disk) (p : Path) : Prop where
  anchored : p.anchor ≠ .here
  noDots : ".." ∉ p.parts.dropLast
  folder : d.bare? p.parts.dropLast = some (.folder [])

theorem InFolder.mono (h : InFolder d p) (hkinds : d.SameKinds d') : InFolder d' p :=
  ⟨h.anchored, h.noDots, hkinds.folder _ h.folder⟩

/-- A path in a folder in which there are no links. -/
structure Housed (d : Disk) (p : Path) : Prop extends InFolder d p where
  linkFree : d.LinkFreeBelow p.parts.dropLast

namespace Housed

theorem plain_testsFolder (h : Housed d p) : d.Plain ⟨p.anchor, testsFolder p⟩ where
  anchored := h.anchored
  noDots := not_mem_testsFolder h.noDots
  noLink := h.linkFree.noLinkAlong h.folder _

theorem plain_pathFor (h : Housed d p) : d.Plain (pathFor p) where
  anchored := h.anchored
  noDots := not_mem_pathFor h.noDots
  noLink := by
    rw [parts_pathFor, testsFolder, List.append_assoc]
    exact h.linkFree.noLinkAlong h.folder _

end Housed

/-- Nothing but a folder stands in the place of the folder for the tests, if anything. -/
def HasRoom (d : Disk) (p : Path) : Prop :=
  d.bare? (testsFolder p) = none ∨ d.bare? (testsFolder p) = some (.folder [])

/-- The disk with the folder for tests. -/
def withFolder (d : Disk) (p : Path) : Disk :=
  if (d.bare? (testsFolder p)).isSome then d else d.put (testsFolder p) (.folder [])

/-- The disk with a test in its place. -/
def withTest (d : Disk) (p : Path) (c : Component) : Disk :=
  (withFolder d p).put (pathFor p).parts (.file (bytesOf (textFor p (some c))))

theorem InFolder.bare?_withFolder (h : InFolder d p) (names : List String) :
    (withFolder d p).bare? names =
      if names = testsFolder p ∧ d.bare? names = none then some (.folder []) else d.bare? names := by
  rw [withFolder]
  cases hbare : d.bare? (testsFolder p) with
  | some e =>
    have hnot : ¬ (names = testsFolder p ∧ d.bare? names = none) := by
      rintro ⟨rfl, hnone⟩
      rw [hbare] at hnone
      cases hnone
    rw [if_neg hnot]
    rfl
  | none =>
    have hfree : d.bare? (testsFolder p) ≠ some (.folder []) := by simp [hbare]
    change (d.put (testsFolder p) (.folder [])).bare? names = _
    rw [testsFolder] at hfree hbare ⊢
    rw [bare?_put_bare h.folder hfree rfl]
    refine if_congr ⟨?_, And.left⟩ rfl rfl
    rintro rfl
    exact ⟨rfl, hbare⟩

theorem InFolder.sameKinds_withFolder (h : InFolder d p) : d.SameKinds (withFolder d p) := by
  have hbare := h.bare?_withFolder
  refine ⟨fun names hnames => ?_, fun names bytes hnames => ⟨bytes, ?_⟩, fun names target => ?_⟩
  · rw [hbare, hnames, ite_self]
  · rw [hbare, if_neg fun h => by simp [hnames] at h]
    exact hnames
  · rw [hbare]
    split
    · rename_i hnone
      rw [hnone.2]
      exact iff_of_false (fun h => nomatch h) fun h => nomatch h
    · exact .rfl

theorem bare?_withFolder (h : Housed d p) (hroom : HasRoom d p) (path : List String) :
    (withFolder d p).bare? path =
      if path = testsFolder p then some (.folder []) else d.bare? path := by
  rw [h.toInFolder.bare?_withFolder]
  by_cases hpath : path = testsFolder p
  · rw [if_pos hpath, hpath]
    rcases hroom with hnone | hfolder
    · exact if_pos ⟨rfl, hnone⟩
    · rw [hfolder, ite_self]
  · rw [if_neg hpath, if_neg fun h => hpath h.1]

theorem bare?_withFolder_self (h : Housed d p) (hroom : HasRoom d p) :
    (withFolder d p).bare? (testsFolder p) = some (.folder []) := by
  rw [bare?_withFolder h hroom, if_pos rfl]

theorem Housed.withFolder (h : Housed d p) (hroom : HasRoom d p) : Housed (withFolder d p) p where
  anchored := h.anchored
  noDots := h.noDots
  folder := by
    rw [bare?_withFolder h hroom, h.folder, ite_self]
  linkFree rest target hlink := by
    rw [← bare?_eq_link_iff, bare?_withFolder h hroom] at hlink
    split at hlink
    · cases hlink
    · exact h.linkFree rest target (bare?_eq_link_iff.mp hlink)

theorem pathFor_ne_testsFolder (p q : Path) : (pathFor p).parts ≠ testsFolder q := by
  rw [parts_pathFor, testsFolder]
  intro heq
  have hlast : [p.stem ++ ".test.tsx"] = ["__tests__"] := List.append_inj_right' heq rfl
  exact append_testSuffix_ne (by decide) _ (List.cons.inj hlast).1

theorem bare?_withFolder_pathFor (h : Housed d p) (hroom : HasRoom d p) :
    (withFolder d p).bare? (pathFor p).parts = d.bare? (pathFor p).parts := by
  rw [bare?_withFolder h hroom, if_neg (pathFor_ne_testsFolder p p)]

/-- A test that is put in its place changes nothing else, but that there is a folder for it. -/
theorem bare?_withTest (h : Housed d p) (hroom : HasRoom d p)
    (hfree : d.bare? (pathFor p).parts ≠ some (.folder [])) (path : List String) :
    (withTest d p c).bare? path =
      if path = (pathFor p).parts then some (.file (bytesOf (textFor p (some c))))
      else if path = testsFolder p then some (.folder [])
      else d.bare? path := by
  have hfree' : (withFolder d p).bare? (pathFor p).parts ≠ some (.folder []) := by
    rwa [bare?_withFolder_pathFor h hroom]
  rw [withTest, parts_pathFor, bare?_put_bare (bare?_withFolder_self h hroom) hfree' rfl,
    bare?_withFolder h hroom]

/-- What can come of a placement: the test that is there is kept, a test is written, or something
else stands in its way. -/
inductive Placement (d : Disk) (p : Path) (c : Component) (replace : Bool) :
    Except Setback (Option Disk) → Prop
  | kept : replace = false → (d.bare? (pathFor p).parts).isSome → Placement d p c replace (.ok none)
  | written : HasRoom d p →
      d.bare? (pathFor p).parts = none ∨
        replace = true ∧ (∃ old, d.bare? (pathFor p).parts = some (.file old)) →
      Placement d p c replace (.ok (some (withTest d p c)))
  | blocked error : (∃ bytes, d.bare? (testsFolder p) = some (.file bytes)) ∨
        replace = true ∧ d.bare? (pathFor p).parts = some (.folder []) →
      Placement d p c replace (.error ⟨error, d⟩)

theorem Housed.makeFolder (h : Housed d p) (hroom : HasRoom d p) :
    d.makeFolder ⟨p.anchor, testsFolder p⟩ = .ok (Suite.withFolder d p) := by
  rw [Suite.withFolder]
  rcases hroom with hnone | hfolder
  · rw [h.plain_testsFolder.makeFolder_of_none rfl h.folder hnone, hnone]
    rfl
  · rw [h.plain_testsFolder.makeFolder_of_some hfolder, hfolder]
    rfl

theorem Housed.file_of_not_hasRoom (h : Housed d p) (hroom : ¬ HasRoom d p) :
    ∃ bytes, d.bare? (testsFolder p) = some (.file bytes) := by
  rw [HasRoom, not_or] at hroom
  cases hbare : d.bare? (testsFolder p) with
  | none => exact absurd hbare hroom.1
  | some e =>
    cases e with
    | file bytes => exact ⟨bytes, rfl⟩
    | folder es => exact absurd (bare?_folder_nil hbare) hroom.2
    | link target =>
      exact absurd hbare (h.plain_testsFolder.noLink _ target (List.prefix_refl _))

/-- What a placement comes to where no links are in the way. -/
theorem Housed.placement (h : Housed d p) (c : Component) (replace : Bool) :
    Placement d p c replace (place d p (some c) replace) := by
  have hfile := h.plain_pathFor
  rw [place_eq, parent_pathFor]
  by_cases hkept : (d.holds (pathFor p) && !replace) = true
  · rw [if_pos hkept]
    rw [Bool.and_eq_true, Bool.not_eq_true', hfile.holds_iff] at hkept
    exact .kept hkept.2 hkept.1
  · rw [if_neg hkept]
    rw [Bool.and_eq_true, Bool.not_eq_true', hfile.holds_iff, not_and, Bool.not_eq_false] at hkept
    by_cases hroom : HasRoom d p
    · rw [h.makeFolder hroom]
      have hfile' := (h.withFolder hroom).plain_pathFor
      have hfolder := bare?_withFolder_self h hroom
      have hsame := bare?_withFolder_pathFor h hroom
      change Placement d p c replace
        (((Suite.withFolder d p).write (pathFor p) (bytesOf (textFor p (some c)))).map some)
      cases hbare : d.bare? (pathFor p).parts with
      | none =>
        rw [hfile'.write_of_none rfl hfolder (hsame.trans hbare)]
        exact .written hroom (.inl hbare)
      | some e =>
        have hreplace : replace = true := hkept (by rw [hbare]; rfl)
        cases e with
        | file old =>
          rw [hfile'.write_of_file (hsame.trans hbare)]
          exact .written hroom (.inr ⟨hreplace, old, hbare⟩)
        | link target => exact absurd hbare (hfile.noLink _ target (List.prefix_refl _))
        | folder es =>
          have hbare' := bare?_folder_nil hbare
          have hthere : (d.bare? (testsFolder p)).isSome := by
            rw [bare?_of_append (List.cons_ne_nil _ _) (by rw [← parts_pathFor, hbare]; rfl)]
            rfl
          have hd : Suite.withFolder d p = d := if_pos hthere
          rw [hfile'.write_of_folder (hsame.trans hbare'), hd]
          exact .blocked _ (.inr ⟨hreplace, hbare'⟩)
    · obtain ⟨bytes, hbytes⟩ := h.file_of_not_hasRoom hroom
      rw [h.plain_testsFolder.makeFolder_of_some hbytes]
      exact .blocked _ (.inl ⟨bytes, hbytes⟩)

/-- No further placement without replacing has an effect: there is something in the test's place, or no
room for the folder around it. -/
def Settled (d : Disk) (p : Path) : Prop :=
  (d.bare? (pathFor p).parts).isSome ∨ ∃ bytes, d.bare? (testsFolder p) = some (.file bytes)

theorem Housed.placed_cases (h : Housed d p) (c : Component) (replace : Bool) :
    placed d p c replace = d ∧ Settled d p ∨
      placed d p c replace = withTest d p c ∧ HasRoom d p ∧ (d.bare? (pathFor p).parts = none ∨
        replace = true ∧ ∃ old, d.bare? (pathFor p).parts = some (.file old)) := by
  have hplacement := h.placement c replace
  rw [placed]
  generalize place d p (some c) replace = outcome at hplacement
  cases hplacement with
  | kept hreplace hthere => exact .inl ⟨rfl, .inl hthere⟩
  | written hroom hfree => exact .inr ⟨rfl, hroom, hfree⟩
  | blocked error hway =>
    refine .inl ⟨rfl, hway.elim .inr fun ⟨_, hfolder⟩ => .inl ?_⟩
    rw [hfolder]
    rfl

theorem ne_folder_of_free (hfree : d.bare? (pathFor p).parts = none ∨
    replace = true ∧ ∃ old, d.bare? (pathFor p).parts = some (.file old)) :
    d.bare? (pathFor p).parts ≠ some (.folder []) := by
  rcases hfree with hnone | ⟨-, old, hfile⟩
  · rw [hnone]
    exact fun h => nomatch h
  · rw [hfile]
    exact fun h => nomatch h

/-- A placement changes no test's place but its own. -/
theorem Housed.bare?_placed_of_ne (h : Housed d p) {q : Path} (hq : (pathFor q).parts ≠ (pathFor p).parts)
    (c : Component) (replace : Bool) :
    (placed d p c replace).bare? (pathFor q).parts = d.bare? (pathFor q).parts := by
  rcases h.placed_cases c replace with ⟨hplaced, -⟩ | ⟨hplaced, hroom, hfree⟩
  · rw [hplaced]
  · rw [hplaced, bare?_withTest h hroom (ne_folder_of_free hfree), if_neg hq,
      if_neg (pathFor_ne_testsFolder q p)]

theorem Housed.mono (hp : Housed d p) (h : d.SameKinds d') : Housed d' p :=
  ⟨hp.toInFolder.mono h, h.linkFreeBelow hp.linkFree⟩

theorem Settled.mono (hp : Settled d p) (h : d.SameKinds d') : Settled d' p := by
  rcases hp with hsome | ⟨bytes, hfile⟩
  · exact .inl (h.isSome hsome)
  · exact .inr (h.file _ bytes hfile)

theorem Housed.sameKinds_placed (h : Housed d p) (c : Component) (replace : Bool) :
    SameKinds d (placed d p c replace) := by
  rcases h.placed_cases c replace with ⟨hplaced, -⟩ | ⟨hplaced, hroom, hfree⟩
  · rw [hplaced]
    exact .refl d
  · rw [hplaced]
    have hfree' := hfree.imp_right And.right
    rw [← bare?_withFolder_pathFor h hroom] at hfree'
    apply h.toInFolder.sameKinds_withFolder.trans
    exact sameKinds_put (bare?_withFolder_self h hroom) hfree'

theorem Housed.settled_placed (h : Housed d p) (c : Component) (replace : Bool) :
    Settled (placed d p c replace) p := by
  rcases h.placed_cases c replace with ⟨hplaced, hsettled⟩ | ⟨hplaced, hroom, hfree⟩
  · rwa [hplaced]
  · rw [hplaced, Settled, bare?_withTest h hroom (ne_folder_of_free hfree), if_pos rfl]
    exact .inl rfl

theorem Housed.placed_of_settled (h : Housed d p) (hsettled : Settled d p) (c : Component) :
    placed d p c false = d := by
  rcases h.placed_cases c false with ⟨hplaced, -⟩ | ⟨-, hroom, hfree⟩
  · exact hplaced
  · have hnone : d.bare? (pathFor p).parts = none :=
      hfree.resolve_right fun ⟨hreplace, _⟩ => nomatch hreplace
    rcases hsettled with hsome | ⟨bytes, hfile⟩
    · rw [hnone] at hsome
      cases hsome
    · rw [HasRoom, hfile] at hroom
      exact hroom.elim (fun h => nomatch h) fun h => nomatch h

end SuiteDraft.Suite
