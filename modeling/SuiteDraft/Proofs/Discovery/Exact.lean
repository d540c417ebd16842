import SuiteDraft.Proofs.Discovery.Files

/-!
# A scan is exact

What a scan finds below a folder is told by the tree alone: a component file is found if it is not
ignored and if no folder on the way to it is one that a scan stays out of. Each is found once, a
folder's own files before those of the folders in it, so the order in which a disk lists its entries
does not show.
-/

namespace SuiteDraft

/-- Two disks on which the same stands at the end of all names. -/
theorem Disk.bare?_eq_of_places {d d' : Disk}
    (h : ∀ place ∈ d.places, d'.bare? place.1 = some place.2.bare)
    (h' : ∀ place ∈ d'.places, (d.bare? place.1).isSome) (names : List String) :
    d'.bare? names = d.bare? names := by
  cases he : d.entry? names with
  | some e => rw [h _ (mem_places he), bare?, he, Option.map_some]
  | none =>
    rw [bare?_eq_none_iff.mpr he, bare?_eq_none_iff]
    by_contra hsome
    obtain ⟨e, he'⟩ := Option.ne_none_iff_exists'.mp hsome
    have hthere := h' _ (mem_places he')
    rw [bare?_eq_none_iff.mpr he] at hthere
    cases hthere

namespace Discovery

/-- No folder on a way below `names` is one that a scan stays out of. -/
def Passes (ignored : Path → Bool) (names inside : List String) : Prop :=
  ∀ before folder, before ++ [folder] <+: inside → folder ∉ ignoredDirectories ∧
    folder ≠ "__tests__" ∧ ignored ⟨.root, names ++ before ++ [folder]⟩ = false

/-- What a scan is to find below the folder at `names`, where `ignored` is the verdict on paths. -/
def Sought (d : Disk) (ignored : Path → Bool) (names : List String) (f : Path) : Prop :=
  ∃ inside last, f = ⟨.root, names ++ inside ++ [last]⟩ ∧
    (∃ bytes, d.entry? f.parts = some (.file bytes)) ∧ f.isComponentFile = true ∧ ignored f = false ∧
    Passes ignored names inside

/-- The order of a listing, on the ways from the folder that it starts from. -/
inductive Before : List String → List String → Prop where
  /-- A folder's own files stand in the order of their names. -/
  | file {name other : String} (h : name < other) : Before [name] [other]
  /-- They come before those of the folders in it. -/
  | own {name folder : String} {rest : List String} (h : rest ≠ []) : Before [name] (folder :: rest)
  /-- The folders stand in the order of their names too. -/
  | folder {name other : String} {rest more : List String} (h : name < other) (hrest : rest ≠ [])
      (hmore : more ≠ []) : Before (name :: rest) (other :: more)
  /-- In each of them it is the same again. -/
  | inside {name : String} {rest more : List String} (h : Before rest more) :
      Before (name :: rest) (name :: more)

theorem Before.asymm {way other : List String} (h : Before way other) : ¬ Before other way := by
  induction h with
  | file h =>
    intro hback
    cases hback with
    | file h' => exact lt_asymm h h'
    | own hrest => exact hrest rfl
    | folder h' hrest => exact hrest rfl
    | inside h' => exact lt_irrefl _ h
  | own hrest =>
    intro hback
    cases hback with
    | file h' => exact hrest rfl
    | own hrest' => exact hrest' rfl
    | folder h' hrest' hmore => exact hmore rfl
    | inside h' => cases h'
  | folder h hrest hmore =>
    intro hback
    cases hback with
    | file h' => exact hrest rfl
    | own hrest' => exact hmore rfl
    | folder h' => exact lt_asymm h h'
    | inside h' => exact lt_irrefl _ h
  | inside h ih =>
    intro hback
    cases hback with
    | file h' => exact lt_irrefl _ h'
    | own hrest => cases h
    | folder h' => exact lt_irrefl _ h'
    | inside h' => exact ih h'

variable {d : Disk} {ignored : Path → Bool} {names : List String} {f : Path}

theorem enters_eq_true_iff {name : String} : enters ignored names name = true ↔
    name ∉ ignoredDirectories ∧ name ≠ "__tests__" ∧ ignored ⟨.root, names ++ [name]⟩ = false := by
  have htests : name ∉ ignoredDirectories → name ≠ "__tests__" := by
    rintro h rfl
    exact h (by decide)
  simp only [enters, Bool.and_eq_true, Bool.not_eq_true', List.contains_iff_mem,
    ← Bool.not_eq_true]
  tauto

theorem passes_cons_iff {name : String} {inside : List String} :
    Passes ignored names (name :: inside) ↔
      enters ignored names name = true ∧ Passes ignored (names ++ [name]) inside := by
  rw [enters_eq_true_iff]
  constructor
  · intro h
    refine ⟨by simpa using h [] name (by simp), fun before folder hbefore => ?_⟩
    simpa using h (name :: before) folder (List.cons_prefix_cons.mpr ⟨rfl, hbefore⟩)
  · rintro ⟨hname, h⟩ before folder hbefore
    cases before with
    | nil =>
      obtain rfl : folder = name := (List.cons_prefix_cons.mp hbefore).1
      simpa using hname
    | cons first before =>
      obtain ⟨rfl, hrest⟩ := List.cons_prefix_cons.mp hbefore
      simpa using h before folder hrest

/-- What is sought below a folder are files of its own and what is sought below the folders in it. -/
theorem sought_iff (hd : d.Sound) {es : Folder} (he : d.entry? names = some (.folder es))
    (hfree : d.LinkFreeBelow names) : Sought d ignored names f ↔
    (∃ x ∈ es, Scope.isFolderHere d names x.1 x.2 = false ∧ f = ⟨.root, names ++ [x.1]⟩ ∧
        takes ignored f = true) ∨
      ∃ x ∈ es, enters ignored names x.1 = true ∧ Sought d ignored (names ++ [x.1]) f := by
  have hchild : ∀ {name rest bytes}, d.entry? (names ++ name :: rest) = some (.file bytes) →
      ∃ e, (name, e) ∈ es := by
    intro name rest bytes hfile
    rw [Disk.entry?_append, he, Option.bind_some, Entry.at?_folder] at hfile
    obtain ⟨e, hget, -⟩ := Option.bind_eq_some_iff.mp hfile
    exact ⟨e, Keyed.mem_of_get? hget⟩
  constructor
  · rintro ⟨inside, last, rfl, ⟨bytes, hfile⟩, hcomponent, hnot, hpasses⟩
    cases inside with
    | nil =>
      left
      simp only [List.append_nil] at hfile hcomponent hnot
      obtain ⟨e, hmem⟩ := hchild hfile
      obtain rfl := Option.some.inj (hfile.symm.trans (hd.entry?_of_mem he hmem))
      exact ⟨_, hmem, rfl, by simp, by simp [takes, hcomponent, hnot]⟩
    | cons name inside =>
      right
      obtain ⟨henters, hrest⟩ := passes_cons_iff.mp hpasses
      obtain ⟨e, hmem⟩ := hchild (by simpa using hfile)
      exact ⟨_, hmem, henters, inside, last, by simp, ⟨bytes, hfile⟩, hcomponent, hnot, hrest⟩
  · rintro (⟨x, hx, hfile, rfl, htakes⟩ | ⟨x, hx, henters, h⟩)
    · obtain ⟨hcomponent, hnot⟩ := Bool.and_eq_true_iff.mp htakes
      refine ⟨[], x.1, by simp, ?_, hcomponent, by simpa using hnot, by simp [Passes]⟩
      have he' := hd.entry?_of_mem he hx
      obtain ⟨name, e⟩ := x
      cases e with
      | file bytes => exact ⟨bytes, he'⟩
      | link target => exact absurd he' (hfree [name] target)
      | folder inside => cases hfile
    · obtain ⟨inside, last, rfl, hfile, hcomponent, hnot, hpasses⟩ := h
      exact ⟨x.1 :: inside, last, by simp, hfile, hcomponent, hnot,
        passes_cons_iff.mpr ⟨henters, hpasses⟩⟩

/-- Nothing is sought below what is no folder. -/
theorem not_sought (h : d.bare? names ≠ some (.folder [])) : ¬ Sought d ignored names f := by
  rintro ⟨inside, last, rfl, ⟨bytes, hfile⟩, -⟩
  rw [List.append_assoc] at hfile
  have hsome : (d.bare? (names ++ (inside ++ [last]))).isSome := by simp [Disk.bare?, hfile]
  exact h (Disk.bare?_of_append (by simp) hsome)

/-- A scan of an entry finds all that is sought below it, and nothing else. -/
theorem mem_filesIn_iff (hd : d.Sound) {e : Entry} (he : d.entry? names = some e)
    (hfree : d.LinkFreeBelow names) : f ∈ filesIn d ignored names e ↔ Sought d ignored names f := by
  induction e using Entry.induction generalizing names with
  | file bytes => exact iff_of_false List.not_mem_nil (not_sought (by simp [Disk.bare?, he, Entry.bare]))
  | link target => exact iff_of_false List.not_mem_nil (not_sought (by simp [Disk.bare?, he, Entry.bare]))
  | folder es ih =>
    rw [mem_filesIn_folder_iff, sought_iff hd he hfree]
    apply or_congr Iff.rfl
    apply exists_congr
    intro x
    apply and_congr_right
    intro hx
    rw [ih x hx (hd.entry?_of_mem he hx) (hfree.append [x.1])]

/-! ### Order -/

/-- A file comes before another one in a listing from the folder at `names`. -/
def Precedes (names : List String) (f g : Path) : Prop :=
  Before (f.parts.drop names.length) (g.parts.drop names.length)

theorem precedes_iff {way other : List String} :
    Precedes names ⟨.root, names ++ way⟩ ⟨.root, names ++ other⟩ ↔ Before way other := by
  simp [Precedes]

theorem Precedes.of_child {name : String} {f g : Path} (hf : Lies d (names ++ [name]) f)
    (hg : Lies d (names ++ [name]) g) (h : Precedes (names ++ [name]) f g) : Precedes names f g := by
  obtain ⟨rest, rfl, -⟩ := hf
  obtain ⟨more, rfl, -⟩ := hg
  rw [precedes_iff] at h
  simpa [Precedes] using h.inside

theorem pairwise_ownFiles {es : Folder} (hnames : (Keyed.names es).Nodup) :
    (ownFiles d ignored names es).Pairwise (Precedes names) := by
  apply List.Pairwise.filter
  rw [List.pairwise_map]
  have hfiles : ((es.filter fun e => !Scope.isFolderHere d names e.1 e.2).map (·.1)).Nodup :=
    hnames.sublist (List.filter_sublist.map _)
  exact (pairwise_lt_name_inOrder hfiles).imp fun hlt => precedes_iff.mpr (.file hlt)

theorem pairwise_lt_filesBelow {es : Folder} (hnames : (Keyed.names es).Nodup) :
    (inOrder (·.1) (filesBelow d ignored names es)).Pairwise fun x y => x.1 < y.1 := by
  apply pairwise_lt_name_inOrder
  rw [filesBelow_eq_map, List.map_map]
  exact hnames.sublist (List.filter_sublist.map _)

theorem mem_filesBelow {es : Folder} {x : String × List Path}
    (h : x ∈ filesBelow d ignored names es) :
    ∃ e, (x.1, e) ∈ es ∧ x.2 = filesIn d ignored (names ++ [x.1]) e := by
  rw [filesBelow_eq_map] at h
  obtain ⟨⟨name, e⟩, hmem, rfl⟩ := List.mem_map.mp h
  exact ⟨e, (List.mem_filter.mp hmem).1, rfl⟩

/-- A scan lists what it finds in order. -/
theorem pairwise_filesIn (hd : d.Sound) {e : Entry} (he : d.entry? names = some e) :
    (filesIn d ignored names e).Pairwise (Precedes names) := by
  induction e using Entry.induction generalizing names with
  | file bytes => exact List.Pairwise.nil
  | link target => exact List.Pairwise.nil
  | folder es ih =>
    have hlies : ∀ x ∈ inOrder (·.1) (filesBelow d ignored names es), ∀ f ∈ x.2,
        Lies d (names ++ [x.1]) f := by
      intro x hx f hf
      obtain ⟨e, hmem, hfiles⟩ := mem_filesBelow ((perm_inOrder _ _).mem_iff.mp hx)
      exact lies_of_mem_filesIn hd (hd.entry?_of_mem he hmem) (hfiles ▸ hf)
    rw [filesIn, List.pairwise_append]
    refine ⟨pairwise_ownFiles (hd.nodup he), List.pairwise_flatMap.mpr ⟨?_, ?_⟩, ?_⟩
    · -- Within one of the folders in it.
      intro x hx
      obtain ⟨e, hmem, hfiles⟩ := mem_filesBelow ((perm_inOrder _ _).mem_iff.mp hx)
      have hinside := ih _ hmem (hd.entry?_of_mem he hmem)
      rw [← hfiles] at hinside
      exact hinside.imp_of_mem fun hf hg => Precedes.of_child (hlies x hx _ hf) (hlies x hx _ hg)
    · -- Between two of them.
      apply List.Pairwise.imp_of_mem ?_ (pairwise_lt_filesBelow (hd.nodup he))
      intro x y hx hy hxy f hf g hg
      obtain ⟨rest, rfl, hrest, -⟩ := hlies x hx f hf
      obtain ⟨more, rfl, hmore, -⟩ := hlies y hy g hg
      rw [List.append_assoc, List.append_assoc, precedes_iff]
      exact Before.folder hxy hrest hmore
    · -- Between its own files and theirs.
      intro f hf g hg
      obtain ⟨x, -, -, rfl, -⟩ := mem_ownFiles_iff.mp hf
      obtain ⟨y, hy, hg⟩ := List.mem_flatMap.mp hg
      obtain ⟨more, rfl, hmore, -⟩ := hlies y hy g hg
      rw [List.append_assoc, precedes_iff]
      exact Before.own hmore

/-- No scan finds a file twice. -/
theorem nodup_of_components (hd : d.Sound) {p : Path} {files : List Path}
    (hfiles : components d p = .ok files) : files.Nodup := by
  obtain ⟨root, scope, -, -, rfl⟩ := components_eq_ok_iff.mp hfiles
  rw [filesUnder]
  cases he : d.entry? root.parts with
  | none => exact List.nodup_nil
  | some e =>
    apply (pairwise_filesIn hd he).imp
    rintro f g h rfl
    exact h.asymm h

/-- These are the files sought below the folder at `names`, each once and in the order of a listing. -/
structure Exact (d : Disk) (ignored : Path → Bool) (names : List String) (files : List Path) :
    Prop where
  mem_iff : ∀ f, f ∈ files ↔ Sought d ignored names f
  nodup : files.Nodup
  ordered : files.Pairwise (Precedes names)

theorem exact_filesUnder (hd : d.Sound) (hfree : d.LinkFreeBelow names) (ignored : Path → Bool) :
    Exact d ignored names (filesUnder d ignored names) := by
  rw [filesUnder]
  cases he : d.entry? names with
  | none =>
    have hnot : ∀ f, ¬ Sought d ignored names f := fun f => not_sought (by simp [Disk.bare?, he])
    exact ⟨fun f => iff_of_false List.not_mem_nil (hnot f), List.nodup_nil, List.Pairwise.nil⟩
  | some e =>
    have hordered : (filesIn d ignored names e).Pairwise (Precedes names) := pairwise_filesIn hd he
    refine ⟨fun f => mem_filesIn_iff hd he hfree, hordered.imp ?_, hordered⟩
    rintro f g h rfl
    exact h.asymm h

/-- The files sought come in one order only. -/
theorem Exact.eq {files others : List Path} {d' : Disk} (h : Exact d ignored names files)
    (h' : Exact d' ignored names others)
    (hsame : ∀ f, Sought d' ignored names f ↔ Sought d ignored names f) : others = files := by
  have hanti : ∀ f g, f ∈ others → g ∈ files → Precedes names f g → Precedes names g f → f = g :=
    fun f g _ _ hfg hgf => absurd hgf hfg.asymm
  apply List.Perm.eq_of_pairwise hanti h'.ordered h.ordered
  apply (List.perm_ext_iff_of_nodup h'.nodup h.nodup).mpr
  intro f
  rw [h'.mem_iff, h.mem_iff, hsame]

theorem sought_congr {d' : Disk}
    (hsame : ∀ rest, d'.bare? (names ++ rest) = d.bare? (names ++ rest)) :
    Sought d' ignored names f ↔ Sought d ignored names f := by
  apply exists_congr
  intro inside
  apply exists_congr
  intro last
  apply and_congr_right
  rintro rfl
  have hfile : ∀ bytes, d'.entry? (names ++ inside ++ [last]) = some (.file bytes) ↔
      d.entry? (names ++ inside ++ [last]) = some (.file bytes) := by
    intro bytes
    rw [← Disk.bare?_eq_file_iff, ← Disk.bare?_eq_file_iff, List.append_assoc, hsame]
  rw [exists_congr hfile]

/-- What a scan finds is what is sought with the verdict of the rules that hold where it starts, each
file once and in order. The order in which a disk lists its entries makes no difference to it. -/
theorem components_exact (hd : d.Sound) {p root : Path} (hroot : d.resolve p = .ok root)
    (hfree : d.LinkFreeBelow root.parts) :
    components d p = (Scope.ofPath d root).map
        (fun scope => filesUnder d (scope.isIgnored d) root.parts) ∧
      ∀ ignored, Exact d ignored root.parts (filesUnder d ignored root.parts) ∧
        ∀ d' : Disk, d'.Sound →
          (∀ rest, d'.bare? (root.parts ++ rest) = d.bare? (root.parts ++ rest)) →
          filesUnder d' ignored root.parts = filesUnder d ignored root.parts := by
  refine ⟨?_, fun ignored => ⟨exact_filesUnder hd hfree ignored, fun d' hd' hsame => ?_⟩⟩
  · rw [components, hroot]
    rfl
  · have hfree' : d'.LinkFreeBelow root.parts := by
      intro rest target hlink
      rw [← Disk.bare?_eq_link_iff, hsame, Disk.bare?_eq_link_iff] at hlink
      exact hfree rest target hlink
    exact (exact_filesUnder hd hfree ignored).eq (exact_filesUnder hd' hfree' ignored)
      fun f => sought_congr hsame

/-- A folder that lists its entries in no order, with files that a scan leaves out. -/
def unorderedFolder : Disk where
  root := [
    ("p", .folder [
      ("b", .folder [("D.jsx", .file []), ("C.tsx", .file [])]),
      ("dist", .folder [("E.js", .file [])]),
      ("a", .folder [("__tests__", .folder [("F.tsx", .file [])])]),
      ("H.test.tsx", .file []),
      ("B.tsx", .file [])])]

/-- The same folder in the order of names. -/
def orderedFolder : Disk where
  root := [
    ("p", .folder [
      ("B.tsx", .file []),
      ("H.test.tsx", .file []),
      ("a", .folder [("__tests__", .folder [("F.tsx", .file [])])]),
      ("b", .folder [("C.tsx", .file []), ("D.jsx", .file [])]),
      ("dist", .folder [("E.js", .file [])])])]

theorem exact_unorderedFolder :
    Exact unorderedFolder (·.parts == ["p", "b", "D.jsx"]) ["p"]
        [.ofString "/p/B.tsx", .ofString "/p/b/C.tsx"] ∧
      filesUnder orderedFolder (·.parts == ["p", "b", "D.jsx"]) ["p"] =
        filesUnder unorderedFolder (·.parts == ["p", "b", "D.jsx"]) ["p"] := by
  have hd : unorderedFolder.Sound := Disk.sound_of_places (by decide +kernel) (by decide +kernel)
  have hd' : orderedFolder.Sound := Disk.sound_of_places (by decide +kernel) (by decide +kernel)
  have hfree : unorderedFolder.LinkFree := Disk.linkFree_of_places (by decide +kernel)
  have hsame : ∀ names, orderedFolder.bare? names = unorderedFolder.bare? names :=
    Disk.bare?_eq_of_places
      (List.forall_iff_forall_mem.mp ⟨rfl, rfl, rfl, rfl, rfl, rfl, rfl, rfl, rfl, rfl, rfl, rfl⟩)
      (by decide +kernel)
  have hroot : unorderedFolder.resolve (.ofString "/p") = .ok (.ofString "/p") := by decide +kernel
  have hfiles : filesUnder unorderedFolder (·.parts == ["p", "b", "D.jsx"]) ["p"] =
      [.ofString "/p/B.tsx", .ofString "/p/b/C.tsx"] := by decide +kernel
  obtain ⟨hexact, hlisted⟩ :=
    (components_exact hd hroot (hfree.append ["p"])).2 (·.parts == ["p", "b", "D.jsx"])
  exact ⟨hfiles ▸ hexact, hlisted orderedFolder hd' fun rest => hsame _⟩

end Discovery

end SuiteDraft
