import SuiteDraft.Batch
import SuiteDraft.Proofs.Keyed
import SuiteDraft.Proofs.Text.Order
import SuiteDraft.Proofs.Tree.Walk

/-!
# Batches and their workers

The outcomes of a batch stand under the paths of their files, and the items are read off in the order
of these paths. So the order in which workers come back leaves no trace, and an item is what the
analysis of its own file comes to.
-/

namespace SuiteDraft.Batch

theorem names_gather (d : Disk) (arrivals : List String) :
    (Results.gather d arrivals).names = arrivals.eraseDups := by
  -- From the right: the last to come in is the last to be put.
  induction arrivals using List.reverseRecOn with
  | nil => rfl
  | append_singleton arrivals path ih =>
    rw [eraseDups_concat, Results.gather, List.foldl_append, List.foldl_cons, List.foldl_nil,
      Keyed.names_put, ← Results.gather, ih]

theorem get?_gather (d : Disk) (arrivals : List String) (path : String) :
    (Results.gather d arrivals).get? path =
      if path ∈ arrivals then some (analyze d path).2.outcome else none := by
  induction arrivals using List.reverseRecOn with
  | nil => rfl
  | append_singleton arrivals last ih =>
    rw [Results.gather, List.foldl_append, List.foldl_cons, List.foldl_nil, ← Results.gather]
    by_cases h : path = last
    · rw [h, Keyed.get?_put_self, if_pos (List.mem_append_right _ List.mem_cons_self)]
    · rw [Keyed.get?_put_of_ne _ _ h, ih]
      simp only [List.mem_append, List.mem_singleton, h, or_false]

theorem path_analyze (d : Disk) (path : String) : (analyze d path).2.path = path := by
  unfold analyze
  dsimp only
  split <;> rfl

theorem outcome_analyze (d : Disk) (path : String) :
    (analyze d path).2.outcome = (Report.ofFile d path).outcome.mapError Failure.text := by
  unfold analyze
  dsimp only
  split <;> rename_i h <;> rw [h] <;> rfl

/-- The items of outcomes are the analyses of their files, each file once and in order. -/
theorem items_gather (d : Disk) (arrivals : List String) :
    (Results.gather d arrivals).items =
      (inOrder id arrivals.eraseDups).map fun path => (analyze d path).2 := by
  rw [Results.items, names_gather, ← List.filterMap_eq_map]
  refine List.filterMap_congr fun path hpath => ?_
  have hmem : path ∈ arrivals :=
    List.mem_eraseDups.mp ((perm_inOrder id arrivals.eraseDups).mem_iff.mp hpath)
  rw [get?_gather, if_pos hmem, Option.map_some, Function.comp_apply]
  exact congrArg some (congrArg₂ Item.mk (path_analyze d path).symm rfl)

/-- The order in which outcomes come in leaves no trace on the items. -/
theorem items_gather_of_perm (d : Disk) {arrivals files : List String} (h : arrivals.Perm files) :
    (Results.gather d arrivals).items = (Results.gather d files).items := by
  have hperm : arrivals.eraseDups.Perm files.eraseDups := by
    refine (List.perm_ext_iff_of_nodup (nodup_eraseDups _) (nodup_eraseDups _)).mpr fun path => ?_
    rw [List.mem_eraseDups, List.mem_eraseDups, h.mem_iff]
  rw [items_gather, items_gather, inOrder_eq_of_perm hperm]

theorem paths_gather (d : Disk) (arrivals : List String) :
    (Results.gather d arrivals).items.map Item.path = inOrder id arrivals.eraseDups := by
  rw [items_gather, List.map_map]
  exact (List.map_congr_left fun path _ => path_analyze d path).trans (List.map_id _)

/-- A run finds its files and gives their items, whatever the workers and their schedule. -/
theorem items_runBy (schedule : Schedule) (d : Disk) (root : Path) (workers : Int) :
    (runBy schedule d root workers).map Result.items =
      (Discovery.components d root).map fun files =>
        (Results.gather d (files.map Path.toString)).items := by
  unfold runBy
  cases Discovery.components d root with
  | error e => rfl
  | ok files =>
    refine congrArg Except.ok ?_
    dsimp only
    split
    · rfl
    · exact items_gather_of_perm d (schedule.complete _)

/-- However many workers there are and in whatever order they come back, a batch has the items of the
files taken one by one: one for each file that was found, in the order of the paths, and each is what
the analysis of its file comes to on any disk that holds the same file there. -/
theorem items_of_schedule (schedule : Schedule) (d : Disk) (root : Path) (workers : Int) :
    (runBy schedule d root workers).map Result.items = (run d root 1).map Result.items ∧
      ∀ files, Discovery.components d root = .ok files →
        ∃ batch, runBy schedule d root workers = .ok batch ∧
          (batch.items.map Item.path).Pairwise (· < ·) ∧
          (∀ path, path ∈ batch.items.map Item.path ↔ path ∈ files.map Path.toString) ∧
          ∀ item ∈ batch.items, ∀ other : Disk,
            other.read (.ofString item.path) = d.read (.ofString item.path) →
              item.outcome = (Report.ofFile other item.path).outcome.mapError Failure.text := by
  refine ⟨by rw [run, items_runBy, items_runBy], fun files hfiles => ?_⟩
  have hitems := items_runBy schedule d root workers
  rw [hfiles] at hitems
  obtain ⟨batch, hrun, hitems⟩ := exists_of_map_eq_ok hitems
  have hbatch : batch.items = (Results.gather d (files.map Path.toString)).items := hitems
  refine ⟨batch, hrun, ?_, fun path => ?_, fun item hitem other hread => ?_⟩
  · rw [hbatch, paths_gather]
    exact pairwise_lt_inOrder (nodup_eraseDups _)
  · rw [hbatch, paths_gather, (perm_inOrder id _).mem_iff, List.mem_eraseDups]
  · rw [hbatch, items_gather] at hitem
    rcases List.mem_map.mp hitem with ⟨path, -, rfl⟩
    rw [path_analyze] at hread ⊢
    rw [outcome_analyze, Report.ofFile, Report.ofFile, hread]

/-- A folder with two files, of which the second cannot be parsed. -/
def twoFiles : Disk where
  root := [("p", .folder [("b.jsx", .file (bytesOf "(")), ("a.jsx", .file [])])]

/-- The first of them alone. -/
def oneFile : Disk where
  root := [("p", .folder [("a.jsx", .file [])])]

/-- Workers of whom the last to start is the first to come back. -/
def Schedule.backwards : Schedule := ⟨List.reverse, List.reverse_perm⟩

theorem items_of_backwards :
    (Discovery.components twoFiles ⟨.root, ["p"]⟩).toOption =
        some [⟨.root, ["p", "a.jsx"]⟩, ⟨.root, ["p", "b.jsx"]⟩] ∧
      oneFile.read (.ofString "/p/a.jsx") = twoFiles.read (.ofString "/p/a.jsx") ∧
      ∃ batch, runBy .backwards twoFiles ⟨.root, ["p"]⟩ 4 = .ok batch ∧
        (∀ path, path ∈ batch.items.map Item.path ↔ path ∈ ["/p/a.jsx", "/p/b.jsx"]) ∧
        ∀ item ∈ batch.items, item.path = "/p/a.jsx" →
          item.outcome = (Report.ofFile oneFile "/p/a.jsx").outcome.mapError Failure.text := by
  have hfiles : (Discovery.components twoFiles ⟨.root, ["p"]⟩).toOption =
      some [⟨.root, ["p", "a.jsx"]⟩, ⟨.root, ["p", "b.jsx"]⟩] := by decide +kernel
  have hread : oneFile.read (.ofString "/p/a.jsx") = twoFiles.read (.ofString "/p/a.jsx") := by
    decide +kernel
  obtain ⟨batch, hbatch, -, hpaths, houtcome⟩ :=
    (items_of_schedule .backwards twoFiles ⟨.root, ["p"]⟩ 4).2 _ (eq_ok_of_toOption hfiles)
  refine ⟨hfiles, hread, batch, hbatch, hpaths, fun item hitem hpath => ?_⟩
  have hitem' := houtcome item hitem oneFile (hpath ▸ hread)
  rw [hpath] at hitem'
  exact hitem'

end SuiteDraft.Batch
