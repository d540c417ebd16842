import SuiteDraft.Discovery.Walk
import SuiteDraft.Proofs.Files.Lookup
import SuiteDraft.Proofs.Text.Order

/-!
# Where a scan finds files

What a scan finds stands on the disk, below the folder that it starts from, and on the way there it
goes through no folder for tests.
-/

namespace SuiteDraft

namespace Disk

variable {d : Disk} {names : List String}

theorem Sound.entry?_of_mem (h : d.Sound) {es : Folder} {name : String} {e : Entry}
    (hes : d.entry? names = some (.folder es)) (hmem : (name, e) ∈ es) :
    d.entry? (names ++ [name]) = some e := by
  rw [entry?_append, hes, Option.bind_some, Entry.at?_folder,
    Keyed.get?_of_mem (h.nodup hes) hmem, Option.bind_some, Entry.at?]

end Disk

theorem ne_testsFolder_of_isComponentFile {p : Path} (h : p.isComponentFile = true) :
    p.name ≠ "__tests__" := by
  intro hname
  have hno : p.isComponentFile = (⟨.root, ["__tests__"]⟩ : Path).isComponentFile := by
    unfold Path.isComponentFile Path.suffix
    rw [hname]
    rfl
  rw [hno] at h
  exact absurd h (by decide +kernel)

namespace Discovery

variable {d : Disk} {ignored : Path → Bool} {names : List String} {f : Path}

theorem contains_tests : ignoredDirectories.contains "__tests__" = true := by decide

theorem enters_tests (ignored : Path → Bool) (names : List String) :
    enters ignored names "__tests__" = false := by
  rw [enters, contains_tests, Bool.not_true, Bool.false_and]

theorem ne_testsFolder_of_enters {name : String} (h : enters ignored names name = true) :
    name ≠ "__tests__" := by
  rintro rfl
  rw [enters_tests] at h
  cases h

theorem filesBelow_eq_map (d : Disk) (ignored : Path → Bool) (names : List String)
    (es : List (String × Entry)) :
    filesBelow d ignored names es = (es.filter fun x => enters ignored names x.1).map fun x =>
      (x.1, filesIn d ignored (names ++ [x.1]) x.2) := by
  induction es with
  | nil => rfl
  | cons x es ih =>
    obtain ⟨name, e⟩ := x
    rw [filesBelow, List.filter_cons, ih]
    split <;> rfl

theorem mem_ownFiles_iff {es : Folder} : f ∈ ownFiles d ignored names es ↔
    ∃ x ∈ es, Scope.isFolderHere d names x.1 x.2 = false ∧ f = ⟨.root, names ++ [x.1]⟩ ∧
      takes ignored f = true := by
  rw [ownFiles, List.mem_filter, List.mem_map]
  constructor
  · rintro ⟨⟨x, hx, rfl⟩, htakes⟩
    obtain ⟨hmem, hfile⟩ := List.mem_filter.mp ((perm_inOrder _ _).mem_iff.mp hx)
    exact ⟨x, hmem, (Bool.not_eq_true' _).mp hfile, rfl, htakes⟩
  · rintro ⟨x, hx, hfile, rfl, htakes⟩
    refine ⟨⟨x, (perm_inOrder _ _).mem_iff.mpr (List.mem_filter.mpr ⟨hx, ?_⟩), rfl⟩, htakes⟩
    exact (Bool.not_eq_true' _).mpr hfile

/-- What is found in a folder are files of its own and what is found in the folders in it. -/
theorem mem_filesIn_folder_iff {es : Folder} : f ∈ filesIn d ignored names (.folder es) ↔
    (∃ x ∈ es, Scope.isFolderHere d names x.1 x.2 = false ∧ f = ⟨.root, names ++ [x.1]⟩ ∧
        takes ignored f = true) ∨
      ∃ x ∈ es, enters ignored names x.1 = true ∧ f ∈ filesIn d ignored (names ++ [x.1]) x.2 := by
  have hbelow : f ∈ (inOrder (·.1) (filesBelow d ignored names es)).flatMap (·.2) ↔
      ∃ x ∈ es, enters ignored names x.1 = true ∧ f ∈ filesIn d ignored (names ++ [x.1]) x.2 := by
    rw [List.mem_flatMap]
    simp only [(perm_inOrder _ _).mem_iff, filesBelow_eq_map, List.mem_map, List.mem_filter]
    constructor
    · rintro ⟨_, ⟨x, ⟨hx, henters⟩, rfl⟩, h⟩
      exact ⟨x, hx, henters, h⟩
    · rintro ⟨x, hx, henters, h⟩
      exact ⟨_, ⟨x, ⟨hx, henters⟩, rfl⟩, h⟩
  rw [filesIn, List.mem_append, mem_ownFiles_iff, hbelow]

/-- A file stands below the folder at `names`, and not in a folder for tests. -/
def Lies (d : Disk) (names : List String) (f : Path) : Prop :=
  ∃ rest, f = ⟨.root, names ++ rest⟩ ∧ rest ≠ [] ∧ "__tests__" ∉ rest ∧ (d.bare? f.parts).isSome

theorem Lies.of_child {name : String} (hname : name ≠ "__tests__") (h : Lies d (names ++ [name]) f) :
    Lies d names f := by
  obtain ⟨rest, rfl, -, htests, hsome⟩ := h
  refine ⟨name :: rest, ?_, List.cons_ne_nil _ _, ?_, hsome⟩
  · rw [← List.append_cons]
  · exact List.not_mem_cons_of_ne_of_not_mem hname.symm htests

theorem Lies.anchor_eq (h : Lies d names f) : f.anchor = .root := by
  obtain ⟨rest, rfl, -⟩ := h
  rfl

theorem Lies.named (hd : d.Sound) (h : Lies d names f) : f.Named := by
  obtain ⟨rest, rfl, -, -, hsome⟩ := h
  exact ⟨fun h => (nomatch h), hd.isName_of_mem hsome⟩

theorem lies_of_mem_filesIn (hd : d.Sound) {e : Entry} (he : d.entry? names = some e)
    (h : f ∈ filesIn d ignored names e) : Lies d names f := by
  induction e using Entry.induction generalizing names with
  | file bytes => exact absurd h List.not_mem_nil
  | link target => exact absurd h List.not_mem_nil
  | folder es ih =>
    rcases mem_filesIn_folder_iff.mp h with ⟨x, hx, -, rfl, htakes⟩ | ⟨x, hx, henters, h⟩
    · have hname := ne_testsFolder_of_isComponentFile (Bool.and_eq_true_iff.mp htakes).1
      rw [Path.name, List.getLastD_concat] at hname
      refine ⟨[x.1], rfl, List.cons_ne_nil _ _, ?_, ?_⟩
      · exact fun hin => hname (List.mem_singleton.mp hin).symm
      · rw [Disk.bare?, hd.entry?_of_mem he hx]
        rfl
    · exact (ih x hx (hd.entry?_of_mem he hx) h).of_child (ne_testsFolder_of_enters henters)

/-- A scan is one with the verdict of the rules that hold where it starts. -/
theorem components_eq_ok_iff {p : Path} {files : List Path} : components d p = .ok files ↔
    ∃ root scope, d.resolve p = .ok root ∧ Scope.ofPath d root = .ok scope ∧
      files = filesUnder d (scope.isIgnored d) root.parts := by
  rw [components, bind_eq_ok_iff]
  constructor
  · rintro ⟨root, hroot, h⟩
    obtain ⟨scope, hscope, h⟩ := bind_eq_ok_iff.mp h
    cases h
    refine ⟨root, scope, ?_, hscope, rfl⟩
    cases hresolve : d.resolve p with
    | error fault =>
      rw [hresolve] at hroot
      cases hroot
    | ok root' =>
      rw [hresolve] at hroot
      cases hroot
      rfl
  · rintro ⟨root, scope, hroot, hscope, rfl⟩
    exact ⟨root, by rw [hroot]; rfl, bind_eq_ok_iff.mpr ⟨scope, hscope, rfl⟩⟩

/-- What a scan finds stands below the folder that its path leads to. -/
theorem lies_of_mem_components (hd : d.Sound) {p : Path} {files : List Path}
    (hfiles : components d p = .ok files) (hf : f ∈ files) :
    ∃ root, d.resolve p = .ok root ∧ Lies d root.parts f := by
  obtain ⟨root, scope, hroot, -, rfl⟩ := components_eq_ok_iff.mp hfiles
  refine ⟨root, hroot, ?_⟩
  rw [filesUnder] at hf
  cases he : d.entry? root.parts with
  | none =>
    rw [he] at hf
    exact absurd hf List.not_mem_nil
  | some e =>
    rw [he] at hf
    exact lies_of_mem_filesIn hd he hf

end Discovery

end SuiteDraft
