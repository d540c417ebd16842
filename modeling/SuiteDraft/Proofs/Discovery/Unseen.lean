import Mathlib.Data.List.Find
import SuiteDraft.Proofs.Discovery.Files
import SuiteDraft.Proofs.Discovery.Outside

/-!
# What a scan does not see

A scan goes through no folder for tests, and asks the disk about nothing in one. So on two disks that
are the same but for such folders, and that have no links, it finds the same.
-/

namespace SuiteDraft

namespace Disk

variable {d d' : Disk} {p : Path}

theorem LinkFree.plain (h : d.LinkFree) (hp : p.anchor ≠ .here) (hdots : ".." ∉ p.parts) :
    d.Plain p :=
  ⟨hp, hdots, h.noLinkAlong d.bare?_root p.parts⟩

section

variable (hfree : d.LinkFree) (hfree' : d'.LinkFree) (hp : p.anchor ≠ .here) (hdots : ".." ∉ p.parts)
  (hsame : d'.bare? p.parts = d.bare? p.parts)

include hfree hfree' hp hdots hsame

theorem holdsFolder_congr : d'.holdsFolder p = d.holdsFolder p := by
  rw [Bool.eq_iff_iff, (hfree'.plain hp hdots).holdsFolder_iff, hsame,
    (hfree.plain hp hdots).holdsFolder_iff]

theorem holds_congr : d'.holds p = d.holds p := by
  rw [Bool.eq_iff_iff, (hfree'.plain hp hdots).holds_iff, hsame, (hfree.plain hp hdots).holds_iff]

theorem read_congr (hsome : (d.bare? p.parts).isSome) : d'.read p = d.read p := by
  have hplain := hfree.plain hp hdots
  have hplain' := hfree'.plain hp hdots
  obtain ⟨e, he⟩ := Option.isSome_iff_exists.mp hsome
  have he' := hsame.trans he
  cases e with
  | file bytes => rw [hplain.read_eq_ok_iff.mpr he, hplain'.read_eq_ok_iff.mpr he']
  | link target => exact absurd he (hplain.noLink _ _ (List.prefix_refl _))
  | folder es =>
    obtain ⟨inside, hinside⟩ := bare?_eq_folder_iff.mp (bare?_folder_nil he)
    obtain ⟨inside', hinside'⟩ := bare?_eq_folder_iff.mp (bare?_folder_nil he')
    rw [read, read, hplain.follow_eq_ok_iff.mpr hinside, hplain'.follow_eq_ok_iff.mpr hinside']
    rfl

end

end Disk

open Disk

/-- The same stands on two disks below the folder at `names`, outside of folders for tests. -/
def Agree (d d' : Disk) (names : List String) : Prop :=
  ∀ rest, "__tests__" ∉ rest → d'.bare? (names ++ rest) = d.bare? (names ++ rest)

variable {d d' : Disk} {names : List String} {name : String} {es : Folder} {e : Entry}

theorem Agree.child (h : Agree d d' names) (hname : name ≠ "__tests__") :
    Agree d d' (names ++ [name]) := by
  intro rest hrest
  rw [← List.append_cons]
  exact h (name :: rest) (List.not_mem_cons_of_ne_of_not_mem hname.symm hrest)

/-- Two disks without links of which one is sound. -/
structure Linkless (d d' : Disk) : Prop where
  sound : d.Sound
  linkFree : d.LinkFree
  linkFree' : d'.LinkFree

namespace Linkless

variable (h : Linkless d d')

include h

theorem isLink_of_mem (he : d.entry? names = some (.folder es)) {x : String × Entry} (hx : x ∈ es) :
    x.2.isLink = false := by
  obtain ⟨name, child⟩ := x
  cases child with
  | file bytes => rfl
  | folder inside => rfl
  | link target => exact absurd (h.sound.entry?_of_mem he hx) (h.linkFree (names ++ [name]) target)

theorem noDots_of_mem (he : d.entry? names = some (.folder es)) {x : String × Entry} (hx : x ∈ es) :
    ".." ∉ names ++ [x.1] := by
  refine h.sound.noDots _ ?_
  rw [bare?, h.sound.entry?_of_mem he hx]
  rfl

/-! ### Ignore files -/

theorem isFolderHere_congr (he : d.entry? names = some (.folder es)) {x : String × Entry} (hx : x ∈ es) :
    Scope.isFolderHere d' names x.1 x.2 = Scope.isFolderHere d names x.1 x.2 := by
  have hlink := h.isLink_of_mem he hx
  obtain ⟨name, child⟩ := x
  cases child with
  | file bytes => rfl
  | folder inside => rfl
  | link target => cases hlink

theorem ownLines_congr {root : List String} (he : d.entry? names = some (.folder es))
    (hagree : Agree d d' names) :
    Scope.ownLines d' root names es = Scope.ownLines d root names es := by
  rw [Scope.ownLines, Scope.ownLines]
  cases hfile : Keyed.get? es Scope.fileName with
  | none => rfl
  | some child =>
    have hmem := Keyed.mem_of_get? hfile
    have hthere : (d.bare? (names ++ [Scope.fileName])).isSome := by
      rw [bare?, h.sound.entry?_of_mem he hmem]
      rfl
    have hread : d'.read ⟨.root, names ++ [Scope.fileName]⟩ = d.read ⟨.root, names ++ [Scope.fileName]⟩ :=
      read_congr h.linkFree h.linkFree' (by simp) (h.noDots_of_mem he hmem)
        (hagree [Scope.fileName] (by decide)) hthere
    dsimp only
    rw [h.isFolderHere_congr he hmem, hread]

end Linkless

mutual

theorem linesIn_congr (h : Linkless d d') (root names : List String) : ∀ e : Entry,
    d.entry? names = some e → Agree d d' names →
      Scope.linesIn d' root names e = Scope.linesIn d root names e
  | .file _, _, _ => rfl
  | .link _, _, _ => rfl
  | .folder es, he, hagree => by
    rw [Scope.linesIn, Scope.linesIn, h.ownLines_congr he hagree,
      linesBelow_congr h root names es (fun x hx => h.sound.entry?_of_mem he hx) hagree]

theorem linesBelow_congr (h : Linkless d d') (root names : List String) :
    ∀ es : List (String × Entry), (∀ x ∈ es, d.entry? (names ++ [x.1]) = some x.2) →
      Agree d d' names → Scope.linesBelow d' root names es = Scope.linesBelow d root names es
  | [], _, _ => rfl
  | (name, e) :: rest, hes, hagree => by
    rw [Scope.linesBelow, Scope.linesBelow,
      linesBelow_congr h root names rest (fun x hx => hes x (List.mem_cons_of_mem _ hx)) hagree]
    split
    · rfl
    · rename_i hname
      have hne : name ≠ "__tests__" := by
        rintro rfl
        exact hname Discovery.contains_tests
      rw [linesIn_congr h root (names ++ [name]) e (hes _ List.mem_cons_self) (hagree.child hne)]

end

theorem ownLines_withoutTests (d : Disk) (root names : List String) (es : Folder) :
    Scope.ownLines d root names (Entry.withoutTestsIn es) = Scope.ownLines d root names es := by
  rw [Scope.ownLines, Scope.ownLines, Entry.get?_withoutTestsIn (by decide)]
  cases Keyed.get? es Scope.fileName with
  | none => rfl
  | some e => cases e <;> rfl

mutual

theorem linesIn_withoutTests (d : Disk) (root names : List String) : ∀ e : Entry,
    Scope.linesIn d root names e.withoutTests = Scope.linesIn d root names e
  | .file _ => rfl
  | .link _ => rfl
  | .folder es => by
    rw [Entry.withoutTests, Scope.linesIn, Scope.linesIn, ownLines_withoutTests,
      linesBelow_withoutTests d root names es]

theorem linesBelow_withoutTests (d : Disk) (root names : List String) : ∀ es : List (String × Entry),
    Scope.linesBelow d root names (Entry.withoutTestsIn es) = Scope.linesBelow d root names es
  | [] => rfl
  | (name, e) :: rest => by
    rw [Entry.withoutTestsIn, Scope.linesBelow]
    split
    · rename_i htests
      rw [htests.1, Discovery.contains_tests, if_pos rfl, linesBelow_withoutTests d root names rest]
      change _ = (Scope.linesBelow d root names rest).bind fun more => .ok ([] ++ more)
      cases Scope.linesBelow d root names rest <;> rfl
    · rw [Scope.linesBelow, linesBelow_withoutTests d root names rest,
        linesIn_withoutTests d root (names ++ [name]) e]

end

/-! ### Component files -/

section

variable {scope : Scope} {p : Path}

theorem isIgnored_congr (h : d'.holdsFolder p = d.holdsFolder p) :
    scope.isIgnored d' p = scope.isIgnored d p := by
  rw [Scope.isIgnored, Scope.isIgnored, h]

theorem Linkless.holdsFolder_of_mem (h : Linkless d d') (he : d.entry? names = some (.folder es))
    (hagree : Agree d d' names) {x : String × Entry} (hx : x ∈ es) (hname : x.1 ≠ "__tests__") :
    d'.holdsFolder ⟨.root, names ++ [x.1]⟩ = d.holdsFolder ⟨.root, names ++ [x.1]⟩ :=
  holdsFolder_congr h.linkFree h.linkFree' (fun h => nomatch h) (h.noDots_of_mem he hx)
    (hagree [x.1] fun hmem => hname (List.mem_singleton.mp hmem).symm)

theorem Linkless.enters_congr (h : Linkless d d') (he : d.entry? names = some (.folder es))
    (hagree : Agree d d' names) {x : String × Entry} (hx : x ∈ es) :
    Discovery.enters (scope.isIgnored d') names x.1 =
      Discovery.enters (scope.isIgnored d) names x.1 := by
  rw [Discovery.enters, Discovery.enters]
  by_cases hname : x.1 = "__tests__"
  · rw [hname, Discovery.contains_tests, Bool.not_true, Bool.false_and, Bool.false_and]
  · rw [isIgnored_congr (h.holdsFolder_of_mem he hagree hx hname)]

theorem Linkless.takes_congr (h : Linkless d d') (he : d.entry? names = some (.folder es))
    (hagree : Agree d d' names) {x : String × Entry} (hx : x ∈ es) :
    Discovery.takes (scope.isIgnored d') ⟨.root, names ++ [x.1]⟩ =
      Discovery.takes (scope.isIgnored d) ⟨.root, names ++ [x.1]⟩ := by
  rw [Discovery.takes, Discovery.takes]
  cases hcomponent : (⟨.root, names ++ [x.1]⟩ : Path).isComponentFile with
  | false => rw [Bool.false_and, Bool.false_and]
  | true =>
    have hname := ne_testsFolder_of_isComponentFile hcomponent
    rw [Path.name, List.getLastD_concat] at hname
    rw [isIgnored_congr (h.holdsFolder_of_mem he hagree hx hname)]

theorem Linkless.ownFiles_congr (h : Linkless d d') (he : d.entry? names = some (.folder es))
    (hagree : Agree d d' names) :
    Discovery.ownFiles d' (scope.isIgnored d') names es =
      Discovery.ownFiles d (scope.isIgnored d) names es := by
  have hfiles : (es.filter fun e => !Scope.isFolderHere d' names e.1 e.2) =
      es.filter fun e => !Scope.isFolderHere d names e.1 e.2 :=
    List.filter_congr fun x hx => by rw [h.isFolderHere_congr he hx]
  rw [Discovery.ownFiles, Discovery.ownFiles, hfiles]
  refine List.filter_congr fun f hf => ?_
  obtain ⟨x, hx, rfl⟩ := List.mem_map.mp hf
  exact h.takes_congr he hagree (List.mem_filter.mp ((perm_inOrder _ _).mem_iff.mp hx)).1

end

mutual

theorem filesIn_congr (h : Linkless d d') (scope : Scope) (names : List String) : ∀ e : Entry,
    d.entry? names = some e → Agree d d' names →
      Discovery.filesIn d' (scope.isIgnored d') names e =
        Discovery.filesIn d (scope.isIgnored d) names e
  | .file _, _, _ => rfl
  | .link _, _, _ => rfl
  | .folder es, he, hagree => by
    rw [Discovery.filesIn, Discovery.filesIn, h.ownFiles_congr he hagree,
      filesBelow_congr h scope names es (fun x hx => h.sound.entry?_of_mem he hx)
        (fun x hx => h.enters_congr he hagree hx) hagree]

theorem filesBelow_congr (h : Linkless d d') (scope : Scope) (names : List String) :
    ∀ es : List (String × Entry), (∀ x ∈ es, d.entry? (names ++ [x.1]) = some x.2) →
      (∀ x ∈ es, Discovery.enters (scope.isIgnored d') names x.1 =
        Discovery.enters (scope.isIgnored d) names x.1) →
      Agree d d' names → Discovery.filesBelow d' (scope.isIgnored d') names es =
        Discovery.filesBelow d (scope.isIgnored d) names es
  | [], _, _, _ => rfl
  | (name, e) :: rest, hes, henters, hagree => by
    rw [Discovery.filesBelow, Discovery.filesBelow, henters _ List.mem_cons_self,
      filesBelow_congr h scope names rest (fun x hx => hes x (List.mem_cons_of_mem _ hx))
        (fun x hx => henters x (List.mem_cons_of_mem _ hx)) hagree]
    split
    · rename_i hname
      rw [filesIn_congr h scope (names ++ [name]) e (hes _ List.mem_cons_self)
        (hagree.child (Discovery.ne_testsFolder_of_enters hname))]
    · rfl

end

theorem filter_withoutTests (d : Disk) (names : List String) (es : Folder) :
    (Entry.withoutTestsIn es).filter (fun e => !Scope.isFolderHere d names e.1 e.2) =
      es.filter fun e => !Scope.isFolderHere d names e.1 e.2 := by
  induction es with
  | nil => rfl
  | cons x es ih =>
    obtain ⟨name, e⟩ := x
    rw [Entry.withoutTestsIn]
    cases e with
    | file bytes =>
      rw [if_neg fun h => Bool.noConfusion h.2, List.filter_cons, List.filter_cons, ih]
      rfl
    | link target =>
      rw [if_neg fun h => Bool.noConfusion h.2, List.filter_cons, List.filter_cons, ih]
      rfl
    | folder inside =>
      have hout : ∀ inside, (!Scope.isFolderHere d names name (.folder inside)) = false := fun _ => rfl
      rw [List.filter_cons, hout, if_neg Bool.false_ne_true]
      split
      · exact ih
      · rw [List.filter_cons, Entry.withoutTests, hout, if_neg Bool.false_ne_true, ih]

mutual

theorem filesIn_withoutTests (d : Disk) (ignored : Path → Bool) (names : List String) : ∀ e : Entry,
    Discovery.filesIn d ignored names e.withoutTests = Discovery.filesIn d ignored names e
  | .file _ => rfl
  | .link _ => rfl
  | .folder es => by
    rw [Entry.withoutTests, Discovery.filesIn, Discovery.filesIn, Discovery.ownFiles,
      Discovery.ownFiles, filter_withoutTests, filesBelow_withoutTests d ignored names es]

theorem filesBelow_withoutTests (d : Disk) (ignored : Path → Bool) (names : List String) :
    ∀ es : List (String × Entry), Discovery.filesBelow d ignored names (Entry.withoutTestsIn es) =
      Discovery.filesBelow d ignored names es
  | [] => rfl
  | (name, e) :: rest => by
    rw [Entry.withoutTestsIn, Discovery.filesBelow]
    split
    · rename_i htests
      rw [htests.1, Discovery.enters_tests, if_neg Bool.false_ne_true, filesBelow_withoutTests d ignored names rest]
    · rw [Discovery.filesBelow, filesBelow_withoutTests d ignored names rest,
        filesIn_withoutTests d ignored (names ++ [name]) e]

end

/-! ### Roots and whole scans -/

theorem Disk.LinkFree.alongReal_eq (h : d.LinkFree)
    {onLink : List (List String) → List String → List String → List String × Bool}
    {opened : List (List String)} {parts : List String} (hdots : ".." ∉ parts) (done : List String) :
    d.alongReal onLink opened done parts = (done ++ parts, true) := by
  induction parts generalizing done with
  | nil => rw [alongReal, List.append_nil]
  | cons name rest ih =>
    obtain ⟨hname, hrest⟩ := List.ne_and_not_mem_of_not_mem_cons hdots
    rw [alongReal, if_neg (Ne.symm hname)]
    dsimp only
    split
    · rename_i target hlink
      exact absurd hlink (h (done ++ [name]) target)
    · rw [ih hrest, ← List.append_cons]

theorem Disk.LinkFree.realWithin_eq (h : d.LinkFree) {opened : List (List String)}
    {parts : List String} (hdots : ".." ∉ parts) (n : Nat) (done : List String) :
    d.realWithin n opened done parts = (done ++ parts, true) := by
  cases n with
  | zero => exact h.alongReal_eq hdots done
  | succ n => exact h.alongReal_eq hdots done

/-- Without links and double dots, a path leads where it says. -/
theorem Disk.LinkFree.resolve_eq (h : d.LinkFree) {p : Path} (hp : p.anchor ≠ .here)
    (hdots : ".." ∉ p.parts) : d.resolve p = .ok ⟨.root, p.parts⟩ := by
  have horigin : d.origin p = [] := if_neg hp
  have hreal : (d.realWithin 1000 [] (d.origin p) p.parts).1 = p.parts := by
    rw [horigin, h.realWithin_eq hdots, List.nil_append]
  rw [resolve, hreal, withoutDots_of_noDots hdots]
  split
  · rename_i hmany
    exact absurd hmany ((h.plain (p := ⟨.root, p.parts⟩) (fun h => nomatch h) hdots).locate_ne)
  · rfl

theorem prefix_of_mem_upward {p q : Path} (h : q ∈ Scope.upward p) :
    q.anchor = p.anchor ∧ q.parts <+: p.parts := by
  obtain ⟨n, -, rfl⟩ := List.mem_map.mp h
  exact ⟨rfl, List.take_prefix _ _⟩

/-- What is read off an entry without regard to tests is the same on both disks. -/
theorem map_entry?_congr {α : Type} {f : Disk → Entry → α}
    (hview : ∀ d e, f d e.withoutTests = f d e)
    (hcongr : ∀ e, d.entry? names = some e → f d' e = f d e)
    (hsame : (d'.entry? names).map Entry.withoutTests = (d.entry? names).map Entry.withoutTests) :
    (d'.entry? names).map (f d') = (d.entry? names).map (f d) := by
  have hviewed : ∀ e? : Option Entry, e?.map (f d') = (e?.map Entry.withoutTests).map (f d') := by
    intro e?
    rw [Option.map_map]
    exact Option.map_congr fun e _ => (hview d' e).symm
  rw [hviewed, hsame, ← hviewed]
  exact Option.map_congr fun e he => hcongr e he

theorem ofPath_eq (d : Disk) (p : Path) :
    Scope.ofPath d p = (Scope.rootOf d p).bind fun root =>
      (((d.entry? root.parts).map (Scope.linesIn d root.parts root.parts)).getD (.ok [])).bind
        fun lines => ((Ignore.rulesOf lines).mapError .rule).bind fun rules => .ok ⟨root, rules⟩ := by
  rw [Scope.ofPath]
  cases Scope.rootOf d p with
  | error e => rfl
  | ok root =>
    dsimp only [bind, Except.bind]
    cases d.entry? root.parts <;> rfl

section

variable {root : List String}

theorem rootOf_eq (hfree : d.LinkFree) (hdots : ".." ∉ root) : Scope.rootOf d ⟨.root, root⟩ =
    .ok (((Scope.upward ⟨.root, root⟩).find? fun q => d.holds (q.child ".git")).getD
      ⟨.root, root⟩) := by
  have hanchor : (⟨.root, root⟩ : Path).anchor ≠ .here := fun h => nomatch h
  rw [Scope.rootOf, hfree.resolve_eq hanchor hdots]
  rfl

variable (h : Linkless d d') (hsame : d.SameOutside d' root) (hdots : ".." ∉ root)

include h hdots hsame

theorem rootOf_congr : Scope.rootOf d' ⟨.root, root⟩ = Scope.rootOf d ⟨.root, root⟩ := by
  have hholds : ∀ q ∈ Scope.upward ⟨.root, root⟩,
      d'.holds (q.child ".git") = d.holds (q.child ".git") := by
    intro q hq
    obtain ⟨hanchor, hbefore⟩ := prefix_of_mem_upward hq
    have hroot : q.anchor ≠ .here := hanchor ▸ fun h => nomatch h
    refine holds_congr h.linkFree h.linkFree' hroot ?_ (hsame.bare? hbefore (by decide))
    change ".." ∉ q.parts ++ [".git"]
    rw [List.mem_append, not_or]
    exact ⟨fun hmem => hdots (hbefore.subset hmem), by decide⟩
  rw [rootOf_eq h.linkFree hdots, rootOf_eq h.linkFree' hdots, List.find?_congr hholds]

theorem ofPath_congr : Scope.ofPath d' ⟨.root, root⟩ = Scope.ofPath d ⟨.root, root⟩ := by
  rw [ofPath_eq, ofPath_eq, rootOf_congr h hsame hdots, rootOf_eq h.linkFree hdots]
  generalize hrepo : ((Scope.upward ⟨.root, root⟩).find? fun q => d.holds (q.child ".git")).getD
    ⟨.root, root⟩ = repo
  have hbefore : repo.parts <+: root := by
    rw [← hrepo]
    cases hfound : (Scope.upward ⟨.root, root⟩).find? fun q => d.holds (q.child ".git") with
    | none => exact List.prefix_refl root
    | some q => exact (prefix_of_mem_upward (List.mem_of_find?_eq_some hfound)).2
  have hlines := map_entry?_congr (fun d e => linesIn_withoutTests d repo.parts repo.parts e)
    (fun e he => linesIn_congr h repo.parts repo.parts e he fun rest => hsame.bare? hbefore)
    (hsame.entry repo.parts hbefore)
  dsimp only [Except.bind]
  rw [hlines]

end

theorem components_eq (hfree : d.LinkFree) {p : Path} (hp : p.anchor ≠ .here) (hdots : ".." ∉ p.parts) :
    Discovery.components d p = (Scope.ofPath d ⟨.root, p.parts⟩).map fun scope =>
      Discovery.filesUnder d (scope.isIgnored d) p.parts := by
  rw [Discovery.components, hfree.resolve_eq hp hdots]
  rfl

/-- On two disks without links that are the same but for folders for tests below the folder at a path,
the same files are found there. -/
theorem components_congr (h : Linkless d d') {p : Path} (hp : p.anchor ≠ .here) (hdots : ".." ∉ p.parts)
    (hsame : d.SameOutside d' p.parts) : Discovery.components d' p = Discovery.components d p := by
  have hfiles := fun scope : Scope => map_entry?_congr
    (fun d e => filesIn_withoutTests d (scope.isIgnored d) p.parts e)
    (fun e he => filesIn_congr h scope p.parts e he fun rest => hsame.bare? (List.prefix_refl _))
    (hsame.entry p.parts (List.prefix_refl _))
  rw [components_eq h.linkFree hp hdots, components_eq h.linkFree' hp hdots, ofPath_congr h hsame hdots]
  simp only [Discovery.filesUnder, hfiles]

end SuiteDraft
