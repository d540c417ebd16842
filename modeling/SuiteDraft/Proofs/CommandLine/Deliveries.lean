import SuiteDraft.CommandLine.Generate
import SuiteDraft.Proofs.Batch
import SuiteDraft.Proofs.Discovery.Files
import SuiteDraft.Proofs.Suite.Placement

/-!
# What a run delivers

What a run does to the disk is to place tests, one after the other: those of the files that it was
asked about and could analyse.
-/

namespace SuiteDraft

namespace Batch

/-- What an item brings to be delivered: a component with the path of its file. -/
def Item.delivery? (i : Item) : Option (Path × Component) :=
  i.outcome.toOption.map fun c => (.ofString i.path, c)

theorem delivery?_eq_some_iff {i : Item} {p : Path} {c : Component} :
    i.delivery? = some (p, c) ↔ i.outcome = .ok c ∧ Path.ofString i.path = p := by
  rw [Item.delivery?]
  cases i.outcome with
  | error text => exact ⟨fun h => (nomatch h), fun ⟨h, _⟩ => nomatch h⟩
  | ok other =>
    constructor
    · intro h
      cases h
      exact ⟨rfl, rfl⟩
    · rintro ⟨h, rfl⟩
      cases h
      rfl

/-- A file that could be analysed could be read. -/
theorem isOk_read_of_outcome {d : Disk} {path : String} {c : Component}
    (h : (Report.ofFile d path).outcome = .ok c) : (d.read (.ofString path)).isOk := by
  rw [Report.ofFile] at h
  cases hread : d.read (.ofString path) with
  | ok bytes => rfl
  | error fault =>
    rw [hread] at h
    cases h

theorem outcome_analyze_eq_ok_iff {d : Disk} {path : String} {c : Component} :
    (analyze d path).2.outcome = .ok c ↔ (Report.ofFile d path).outcome = .ok c := by
  rw [outcome_analyze]
  cases (Report.ofFile d path).outcome with
  | error failure => exact ⟨fun h => (nomatch h), fun h => nomatch h⟩
  | ok other =>
    constructor <;> intro h <;> cases h <;> rfl

/-- The items of files bring their components, each file as often as it can be analysed: once. -/
theorem mem_items_gather_iff {d : Disk} {arrivals : List String} {i : Item} :
    i ∈ (Results.gather d arrivals).items ↔ ∃ path ∈ arrivals, i = (analyze d path).2 := by
  rw [items_gather, List.mem_map]
  constructor
  · rintro ⟨path, hpath, rfl⟩
    exact ⟨path, List.mem_eraseDups.mp ((perm_inOrder id _).mem_iff.mp hpath), rfl⟩
  · rintro ⟨path, hpath, rfl⟩
    exact ⟨path, (perm_inOrder id _).mem_iff.mpr (List.mem_eraseDups.mpr hpath), rfl⟩

end Batch

theorem Discovery.Lies.inFolder {d : Disk} (hd : d.Sound) {names : List String} {f : Path}
    (h : Lies d names f) : Suite.InFolder d f := by
  have hnamed := h.named hd
  obtain ⟨rest, rfl, hrest, -, hsome⟩ := h
  have hsplit : names ++ rest = (names ++ rest).dropLast ++ [rest.getLast hrest] := by
    rw [List.dropLast_append_of_ne_nil hrest, List.append_assoc, List.dropLast_append_getLast hrest]
  rw [hsplit] at hsome
  exact ⟨hnamed.anchored, hnamed.noDots_parent, Disk.bare?_of_append (List.cons_ne_nil _ _) hsome⟩

theorem Discovery.Lies.housed {d : Disk} (hd : d.Sound) {names : List String} {f : Path}
    (h : Lies d names f) (hlinks : d.LinkFreeBelow names) : Suite.Housed d f := by
  refine ⟨h.inFolder hd, ?_⟩
  obtain ⟨rest, rfl, hrest, -⟩ := h
  change d.LinkFreeBelow (names ++ rest).dropLast
  rw [List.dropLast_append_of_ne_nil hrest]
  exact hlinks.append rest.dropLast

namespace CommandLine.Generate

open Disk Suite

variable {d : Disk} {r : Request} {p : Path} {c : Component}

/-- The disk after a run. A run that is cut short is so before it changes anything. -/
def Request.after (r : Request) (d : Disk) : Disk :=
  match r.run d with
  | .ok (s, _) => s.disk
  | .error _ => d

def after (d : Disk) (arguments : List String) : Disk :=
  match run d arguments with
  | .ok (s, _) => s.disk
  | .error _ => d

/-- What arguments ask for; nothing, when they cannot be read or ask for help. -/
def request? (arguments : List String) : Option Request :=
  (form.read arguments).toOption.map Request.ofLine

theorem run_of_some {arguments : List String} (h : request? arguments = some r) :
    run d arguments = r.run d := by
  rw [run]
  rw [request?] at h
  cases hread : form.read arguments with
  | error stop =>
    rw [hread] at h
    cases h
  | ok l =>
    rw [hread] at h
    cases h
    rfl

theorem after_of_none {arguments : List String} (h : request? arguments = none) :
    after d arguments = d := by
  rw [after, run]
  rw [request?] at h
  cases hread : form.read arguments with
  | error stop => rfl
  | ok l =>
    rw [hread] at h
    cases h

theorem after_of_some {arguments : List String} (h : request? arguments = some r) :
    after d arguments = r.after d := by
  rw [after, run_of_some h, Request.after]

/-- The place that a request is about. -/
def Request.target (r : Request) (d : Disk) : Path := d.absolute (Path.ofString r.path)

/-- The files whose components a request is about. -/
def Request.subjects (r : Request) (d : Disk) : List Path :=
  if d.holdsFolder (r.target d) then ((Discovery.components d (r.target d)).toOption).getD []
  else if d.holds (r.target d) then [r.target d]
  else []

/-- The items of a run in a folder where `files` are found. -/
def batchOf (d : Disk) (files : List Path) : List Batch.Item :=
  (Batch.Results.gather d (files.map Path.toString)).items

/-- The components for which a run places tests, each with the path of its file. -/
def Request.deliveries (r : Request) (d : Disk) : List (Path × Component) :=
  if d.holdsFolder (r.target d) then
    match Discovery.components d (r.target d) with
    | .ok files => (batchOf d files).filterMap Batch.Item.delivery?
    | .error _ => []
  else if d.holds (r.target d) then
    (Report.ofFile d (r.target d).toString).outcome.toOption.toList.map fun c => (r.target d, c)
  else []

/-- The disk after the delivery of a component's test. -/
def Request.deliver (r : Request) (d : Disk) (x : Path × Component) : Disk :=
  if r.showsTests then d else placed d x.1 x.2 r.replace

theorem Request.deliver_eq_placed (hshows : r.showsTests = false) (x : Path × Component) :
    r.deliver d x = placed d x.1 x.2 r.replace := by
  rw [Request.deliver, hshows, if_neg Bool.false_ne_true]

theorem disk_showFacts (s : State) (r : Request) (c : Component) :
    (s.showFacts r c).disk = s.disk := by
  rw [State.showFacts]
  split <;> rfl

theorem disk_deliver (s : State) (r : Request) (p : Path) (c : Component) :
    left ((s.deliver r p c).map State.disk) = r.deliver s.disk (p, c) := by
  rw [State.deliver, Request.deliver]
  split
  · rfl
  · rw [placed]
    cases place s.disk p (some c) r.replace with
    | error setback => rfl
    | ok disk? => cases disk? <;> rfl

theorem deliver_of_place {s : State} (hshows : r.showsTests = false) {disk? : Option Disk}
    (hplace : place s.disk p (some c) r.replace = .ok disk?) :
    ∃ s', s.deliver r p c = .ok s' ∧ s'.disk = placed s.disk p c r.replace := by
  rw [State.deliver, hshows, if_neg Bool.false_ne_true, placed, hplace]
  cases disk? with
  | none => exact ⟨_, rfl, rfl⟩
  | some disk => exact ⟨_, rfl, rfl⟩

theorem deliver_of_error {s : State} (hshows : r.showsTests = false) {e : Setback}
    (hplace : place s.disk p (some c) r.replace = .error e) : s.deliver r p c = .error e := by
  rw [State.deliver, hshows, if_neg Bool.false_ne_true, hplace]
  rfl

/-- What an item of a batch does to the disk. -/
theorem disk_item (r : Request) (s : State) (i : Batch.Item) :
    (item r s i).1.disk = i.delivery?.toList.foldl r.deliver s.disk := by
  rw [item, Batch.Item.delivery?]
  cases i.outcome with
  | error text => rfl
  | ok c =>
    have hdeliver := disk_deliver (s.showFacts r c) r (.ofString i.path) c
    rw [disk_showFacts] at hdeliver
    dsimp only
    cases hd : (s.showFacts r c).deliver r (.ofString i.path) c <;> rw [hd] at hdeliver <;>
      exact hdeliver

theorem disk_item_of_some {s : State} {i : Batch.Item} {x : Path × Component}
    (h : i.delivery? = some x) : (item r s i).1.disk = r.deliver s.disk x := by
  rw [disk_item, h]
  rfl

theorem disk_item_of_none {s : State} {i : Batch.Item} (h : i.delivery? = none) :
    (item r s i).1.disk = s.disk := by
  rw [disk_item, h]
  rfl

/-- An item goes well where its file could be analysed and its test is placed. -/
theorem well_item_iff (hshows : r.showsTests = false) {s : State} {i : Batch.Item} :
    (item r s i).2 = true ↔ ∃ c disk?, i.outcome = .ok c ∧
      place s.disk (.ofString i.path) (some c) r.replace = .ok disk? := by
  rw [item]
  cases i.outcome with
  | error text => exact ⟨fun h => (nomatch h), fun ⟨_, _, h, _⟩ => nomatch h⟩
  | ok c =>
    dsimp only
    cases hplace : place s.disk (.ofString i.path) (some c) r.replace with
    | ok disk? =>
      obtain ⟨s', hs', -⟩ := deliver_of_place hshows ((disk_showFacts s r c).symm ▸ hplace)
      rw [hs']
      exact iff_of_true rfl ⟨c, disk?, rfl, hplace⟩
    | error setback =>
      rw [deliver_of_error hshows ((disk_showFacts s r c).symm ▸ hplace)]
      refine iff_of_false (fun h => nomatch h) ?_
      rintro ⟨c', disk?, hc, h⟩
      cases hc
      rw [hplace] at h
      cases h

theorem items_cons (r : Request) (s : State) (i : Batch.Item) (rest : List Batch.Item) :
    items r s (i :: rest) = ((items r (item r s i).1 rest).1,
      (items r (item r s i).1 rest).2 + if (item r s i).2 then 1 else 0) := rfl

theorem disk_items (r : Request) (s : State) (batch : List Batch.Item) :
    (items r s batch).1.disk = (batch.filterMap Batch.Item.delivery?).foldl r.deliver s.disk := by
  induction batch generalizing s with
  | nil => rfl
  | cons i batch ih =>
    rw [items_cons, List.filterMap_cons, ih, disk_item]
    cases i.delivery? <;> rfl

theorem items_run (d : Disk) (target : Path) (workers : Int) :
    (Batch.run d target workers).map Batch.Result.items =
      (Discovery.components d target).map (batchOf d) :=
  Batch.items_runBy .inTurn d target workers

theorem folder_of_error {target : Path} {e : ScanError}
    (h : Discovery.components d target = .error e) : ∃ abort, folder r d target = .error abort := by
  have hitems := items_run d target r.workers
  rw [h] at hitems
  rw [folder]
  cases hrun : Batch.run d target r.workers with
  | error e => exact ⟨_, rfl⟩
  | ok batch =>
    rw [hrun] at hitems
    cases hitems

/-- What is said last in a folder: how many of its files went well. -/
def summary (well all : Nat) : String :=
  "🧩 " ++ toString well ++ "/" ++ toString all ++ " components analyzed"

theorem folder_of_files {target : Path} {files : List Path}
    (h : Discovery.components d target = .ok files) : ∃ s : State, s.disk = d ∧
      folder r d target = .ok ((items r s (batchOf d files)).1.say
          (summary (items r s (batchOf d files)).2 (batchOf d files).length),
        .code (if (items r s (batchOf d files)).2 = (batchOf d files).length then 0 else 1)) := by
  have hitems := items_run d target r.workers
  rw [h] at hitems
  obtain ⟨batch, hrun, hbatch⟩ := exists_of_map_eq_ok hitems
  rw [folder, hrun, ← hbatch]
  exact ⟨_, rfl, rfl⟩

theorem run_of_folder (hfolder : d.holdsFolder (r.target d) = true) :
    r.run d = folder r d (r.target d) := by
  rw [Request.run]
  rw [← Request.target, holds_of_holdsFolder hfolder, Bool.not_true, if_neg Bool.false_ne_true,
    if_pos hfolder]

/-- In a folder, the tests of all files that could be analysed are placed, in the order of their
paths. -/
theorem after_of_folder (hfolder : d.holdsFolder (r.target d) = true) :
    r.after d = (r.deliveries d).foldl r.deliver d := by
  rw [Request.after, run_of_folder hfolder, Request.deliveries, if_pos hfolder]
  cases hfiles : Discovery.components d (r.target d) with
  | error e =>
    obtain ⟨abort, habort⟩ := folder_of_error (r := r) hfiles
    rw [habort]
    rfl
  | ok files =>
    obtain ⟨s, hs, hrun⟩ := folder_of_files (r := r) hfiles
    rw [hrun]
    change (items r s (batchOf d files)).1.disk = _
    rw [disk_items, hs]

/-- The run for a file that is analysed: what remains is to deliver its test. -/
theorem run_of_file (hfile : (d.read (r.target d)).isOk) (houtcome :
    (Report.ofFile d (r.target d).toString).outcome = .ok c) : ∃ s : State, s.disk = d ∧
      r.run d = match (s.showFacts r c).deliver r (r.target d) c with
        | .ok s => .ok (s, .code 0)
        | .error e => .ok ({ (s.showFacts r c) with disk := e.disk }.complain
            ("❌ Could not write test file for " ++ (r.target d).toString ++ ": " ++ e.error.message),
            .code 1) := by
  cases hread : d.read (r.target d) with
  | error fault =>
    rw [hread] at hfile
    cases hfile
  | ok bytes =>
    have hfollow := read_eq_ok_iff.mp hread
    have hholds : d.holds (r.target d) = true := holds_iff.mpr ⟨_, hfollow⟩
    have hfolder : d.holdsFolder (r.target d) = false := by
      rw [holdsFolder, hfollow]
      rfl
    rw [Request.run]
    rw [← Request.target, hholds, Bool.not_true, if_neg Bool.false_ne_true, hfolder,
      if_neg Bool.false_ne_true, file]
    dsimp only
    rw [houtcome]
    refine ⟨_, ?_, rfl⟩
    rfl

/-- Of a file, the test is placed if it could be analysed. -/
theorem after_of_file (hfolder : ¬ d.holdsFolder (r.target d) = true)
    (hholds : d.holds (r.target d) = true) :
    r.after d = (r.deliveries d).foldl r.deliver d := by
  rw [Request.after, Request.run, Request.deliveries, if_neg hfolder, if_pos hholds]
  rw [← Request.target, hholds, Bool.not_true, if_neg Bool.false_ne_true, if_neg hfolder, file]
  dsimp only
  cases (Report.ofFile d (r.target d).toString).outcome with
  | error failure => cases failure <;> rfl
  | ok c =>
    dsimp only
    generalize hs : State.note _ r _ = s
    have hdisk : s.disk = d := by
      rw [← hs]
      rfl
    have hdeliver := disk_deliver (s.showFacts r c) r (r.target d) c
    rw [disk_showFacts, hdisk] at hdeliver
    cases hd : (s.showFacts r c).deliver r (r.target d) c <;> rw [hd] at hdeliver <;> exact hdeliver

/-- A run does nothing to the disk but to place the tests that it delivers. -/
theorem after_eq_foldl (r : Request) (d : Disk) :
    r.after d = (r.deliveries d).foldl r.deliver d := by
  by_cases hfolder : d.holdsFolder (r.target d) = true
  · exact after_of_folder hfolder
  · by_cases hholds : d.holds (r.target d) = true
    · exact after_of_file hfolder hholds
    · rw [Request.after, Request.run, Request.deliveries, if_neg hfolder, if_neg hholds]
      rw [← Request.target, Bool.eq_false_of_not_eq_true hholds]
      rfl

theorem Request.subjects_of_files {files : List Path} (hfolder : d.holdsFolder (r.target d) = true)
    (hfiles : Discovery.components d (r.target d) = .ok files) : r.subjects d = files := by
  rw [Request.subjects, if_pos hfolder, hfiles]
  rfl

theorem Request.named_of_mem_subjects (hd : d.Sound) (h : p ∈ r.subjects d) : p.Named := by
  rw [Request.subjects] at h
  split at h
  · cases hfiles : Discovery.components d (r.target d) with
    | error e =>
      rw [hfiles] at h
      exact absurd h List.not_mem_nil
    | ok files =>
      rw [hfiles] at h
      obtain ⟨root, hroot, hlies⟩ := Discovery.lies_of_mem_components hd hfiles h
      exact hlies.named hd
  · split at h
    · rw [List.mem_singleton.mp h]
      exact hd.named_absolute r.path
    · exact absurd h List.not_mem_nil

theorem mem_batchOf_iff {files : List Path} {i : Batch.Item} :
    i ∈ batchOf d files ↔ ∃ f ∈ files, i = (Batch.analyze d f.toString).2 := by
  simp only [batchOf, Batch.mem_items_gather_iff, List.mem_map, exists_exists_and_eq_and]

theorem mem_deliveries_of_files {files : List Path} (hnamed : ∀ f ∈ files, f.Named) :
    (p, c) ∈ (batchOf d files).filterMap Batch.Item.delivery? ↔
      p ∈ files ∧ (Report.ofFile d p.toString).outcome = .ok c := by
  rw [List.mem_filterMap]
  constructor
  · rintro ⟨i, hi, hdelivery⟩
    obtain ⟨f, hf, rfl⟩ := mem_batchOf_iff.mp hi
    obtain ⟨houtcome, hp⟩ := Batch.delivery?_eq_some_iff.mp hdelivery
    rw [Batch.path_analyze, (hnamed f hf).ofString_toString] at hp
    subst hp
    exact ⟨hf, Batch.outcome_analyze_eq_ok_iff.mp houtcome⟩
  · rintro ⟨hf, houtcome⟩
    refine ⟨_, mem_batchOf_iff.mpr ⟨p, hf, rfl⟩, ?_⟩
    rw [Batch.delivery?_eq_some_iff, Batch.outcome_analyze_eq_ok_iff, Batch.path_analyze]
    exact ⟨houtcome, (hnamed p hf).ofString_toString⟩

theorem mem_deliveries_of_file {f : Path} :
    (p, c) ∈ (Report.ofFile d f.toString).outcome.toOption.toList.map (fun c => (f, c)) ↔
      p ∈ [f] ∧ (Report.ofFile d p.toString).outcome = .ok c := by
  rw [List.mem_singleton]
  cases houtcome : (Report.ofFile d f.toString).outcome with
  | error failure =>
    refine iff_of_false List.not_mem_nil ?_
    rintro ⟨rfl, h⟩
    rw [houtcome] at h
    cases h
  | ok other =>
    refine List.mem_singleton.trans ⟨fun h => ?_, ?_⟩
    · cases h
      exact ⟨rfl, houtcome⟩
    · rintro ⟨rfl, h⟩
      rw [houtcome] at h
      cases h
      rfl

/-- What is delivered are the components of the files asked about that could be analysed. -/
theorem Request.mem_deliveries_iff (hd : d.Sound) :
    (p, c) ∈ r.deliveries d ↔
      p ∈ r.subjects d ∧ (Report.ofFile d p.toString).outcome = .ok c := by
  have hnamed : ∀ q ∈ r.subjects d, q.Named := fun q => r.named_of_mem_subjects hd
  have hnone : (p, c) ∈ [] ↔ p ∈ [] ∧ (Report.ofFile d p.toString).outcome = .ok c :=
    iff_of_false List.not_mem_nil fun h => absurd h.1 List.not_mem_nil
  by_cases hfolder : d.holdsFolder (r.target d) = true
  · rw [Request.deliveries, if_pos hfolder]
    cases hfiles : Discovery.components d (r.target d) with
    | error e =>
      rw [Request.subjects, if_pos hfolder, hfiles]
      exact hnone
    | ok files =>
      rw [Request.subjects_of_files hfolder hfiles] at hnamed ⊢
      exact mem_deliveries_of_files hnamed
  · rw [Request.deliveries, Request.subjects, if_neg hfolder, if_neg hfolder]
    split
    · exact mem_deliveries_of_file
    · exact hnone

end CommandLine.Generate

end SuiteDraft
