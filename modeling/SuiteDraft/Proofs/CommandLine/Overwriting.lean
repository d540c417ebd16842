import Mathlib.Algebra.GroupWithZero.Nat
import SuiteDraft.Proofs.CommandLine.Deliveries

/-!
# Tests that share a place

Files of one folder whose names differ in their suffix alone have one place for their tests. A run that
replaces tests and goes well leaves there the test of the last of them.
-/

namespace SuiteDraft.CommandLine.Generate

open Disk Suite Batch

variable {d : Disk} {r : Request} {s : State} {i : Item} {rest batch : List Item}

/-! ### Items that go well -/

theorem well_items_le (r : Request) (s : State) (batch : List Item) :
    (items r s batch).2 ≤ batch.length := by
  induction batch generalizing s with
  | nil => exact Nat.le_refl 0
  | cons i rest ih =>
    rw [items_cons, List.length_cons]
    refine Nat.add_le_add (ih _) ?_
    split <;> decide

theorem well_items_cons (h : (items r s (i :: rest)).2 = (i :: rest).length) :
    (item r s i).2 = true ∧ (items r (item r s i).1 rest).2 = rest.length := by
  have hle := well_items_le r (item r s i).1 rest
  rw [items_cons, List.length_cons] at h
  dsimp only at h
  split at h
  · rename_i hwell
    exact ⟨hwell, Nat.succ_injective h⟩
  · omega

/-! ### What stands in a test's place -/

/-- The place of the test of an item's file. -/
def testOf (i : Item) : Path := pathFor (.ofString i.path)

theorem disk_item_of_housed (hhoused : Housed s.disk (.ofString i.path)) :
    SameKinds s.disk (item r s i).1.disk ∧ ∀ p, (pathFor p).parts ≠ (testOf i).parts →
      (item r s i).1.disk.bare? (pathFor p).parts = s.disk.bare? (pathFor p).parts := by
  cases hdelivery : i.delivery? with
  | none =>
    rw [disk_item_of_none hdelivery]
    exact ⟨.refl _, fun _ _ => rfl⟩
  | some x =>
    obtain ⟨p, c⟩ := x
    obtain ⟨-, rfl⟩ := delivery?_eq_some_iff.mp hdelivery
    rw [disk_item_of_some hdelivery, Request.deliver]
    split
    · exact ⟨.refl _, fun _ _ => rfl⟩
    · exact ⟨hhoused.sameKinds_placed c r.replace,
        fun p hp => hhoused.bare?_placed_of_ne hp c r.replace⟩

/-- Items leave the places of other tests as they are. -/
theorem bare?_items_of_ne {p : Path} (hhoused : ∀ i ∈ batch, Housed s.disk (.ofString i.path))
    (hne : ∀ i ∈ batch, (pathFor p).parts ≠ (testOf i).parts) :
    (items r s batch).1.disk.bare? (pathFor p).parts = s.disk.bare? (pathFor p).parts := by
  induction batch generalizing s with
  | nil => rfl
  | cons i rest ih =>
    obtain ⟨hkinds, hsame⟩ := disk_item_of_housed (r := r) (hhoused i List.mem_cons_self)
    rw [items_cons, ih (fun j hj => (hhoused j (List.mem_cons_of_mem _ hj)).mono hkinds)
      fun j hj => hne j (List.mem_cons_of_mem _ hj)]
    exact hsame p (hne i List.mem_cons_self)

/-- An item that goes well while tests are replaced brings its test into its place. -/
theorem bare?_item_of_well (hshows : r.showsTests = false) (hreplace : r.replace = true)
    (hhoused : Housed s.disk (.ofString i.path)) (hwell : (item r s i).2 = true) :
    ∃ c, i.outcome = .ok c ∧ (item r s i).1.disk.bare? (testOf i).parts =
      some (.file (bytesOf (textFor (.ofString i.path) (some c)))) := by
  obtain ⟨c, disk?, houtcome, hplace⟩ := (well_item_iff hshows).mp hwell
  refine ⟨c, houtcome, ?_⟩
  have hdelivery : i.delivery? = some (.ofString i.path, c) :=
    delivery?_eq_some_iff.mpr ⟨houtcome, rfl⟩
  have hplacement := hhoused.placement c r.replace
  rw [hplace] at hplacement
  rw [disk_item_of_some hdelivery, Request.deliver_eq_placed hshows]
  cases hplacement with
  | kept hkept hthere =>
    rw [hreplace] at hkept
    cases hkept
  | written hroom hfree =>
    have hplaced : placed s.disk (.ofString i.path) c r.replace =
        withTest s.disk (.ofString i.path) c := by
      rw [placed, hplace]
      rfl
    rw [hplaced, bare?_withTest hhoused hroom (ne_folder_of_free hfree)]
    exact if_pos rfl

/-- Where all items go well while tests are replaced, in the place of each test stands at last the test
of the last item that has its test there. -/
theorem bare?_items_of_well (hshows : r.showsTests = false) (hreplace : r.replace = true)
    (hhoused : ∀ i ∈ batch, Housed s.disk (.ofString i.path))
    (hsorted : batch.Pairwise fun i j => i.path < j.path)
    (hwell : (items r s batch).2 = batch.length) :
    ∀ i ∈ batch, ∃ j ∈ batch, ∃ c, (testOf j).parts = (testOf i).parts ∧
      (∀ k ∈ batch, (testOf k).parts = (testOf i).parts → k.path ≤ j.path) ∧ j.outcome = .ok c ∧
      (items r s batch).1.disk.bare? (testOf i).parts =
        some (.file (bytesOf (textFor (.ofString j.path) (some c)))) := by
  induction batch generalizing s with
  | nil => exact fun i hi => absurd hi List.not_mem_nil
  | cons first rest ih =>
    obtain ⟨hfirst, hrest⟩ := List.pairwise_cons.mp hsorted
    obtain ⟨hwellFirst, hwellRest⟩ := well_items_cons hwell
    have hhousedFirst := hhoused first List.mem_cons_self
    have hkinds := (disk_item_of_housed (r := r) hhousedFirst).1
    have hhousedRest : ∀ j ∈ rest, Housed (item r s first).1.disk (.ofString j.path) :=
      fun j hj => (hhoused j (List.mem_cons_of_mem _ hj)).mono hkinds
    intro i hi
    rw [items_cons]
    by_cases hlater : ∃ k ∈ rest, (testOf k).parts = (testOf i).parts
    · -- a later item has the last word
      obtain ⟨k, hk, hsame⟩ := hlater
      obtain ⟨j, hj, c, htest, hlast, houtcome, hbare⟩ := ih hhousedRest hrest hwellRest k hk
      rw [hsame] at htest hlast hbare
      refine ⟨j, List.mem_cons_of_mem _ hj, c, htest, fun l hl hl' => ?_, houtcome, hbare⟩
      rcases List.mem_cons.mp hl with rfl | hl
      · exact le_of_lt (hfirst j hj)
      · exact hlast l hl hl'
    · have hnone : ∀ k ∈ rest, (testOf i).parts ≠ (testOf k).parts :=
        fun k hk heq => hlater ⟨k, hk, heq.symm⟩
      obtain rfl : i = first := by
        rcases List.mem_cons.mp hi with hi | hi
        · exact hi
        · exact absurd rfl (hnone i hi)
      obtain ⟨c, houtcome, hbare⟩ := bare?_item_of_well hshows hreplace hhousedFirst hwellFirst
      refine ⟨i, List.mem_cons_self, c, rfl, fun l hl hl' => ?_, houtcome, ?_⟩
      · rcases List.mem_cons.mp hl with rfl | hl
        · exact le_refl _
        · exact absurd hl'.symm (hnone l hl)
      · exact (bare?_items_of_ne hhousedRest hnone).trans hbare

/-! ### Test files with more tests are longer -/

theorem length_bytesOf_lines (lines : List String) :
    (bytesOf ("\n".intercalate lines)).length =
      (lines.map fun line => (bytesOf line).length).sum + (lines.length - 1) := by
  rw [bytesOf, String.toList_intercalate]
  induction lines with
  | nil => rfl
  | cons line lines ih =>
    cases lines with
    | nil => simp [bytesOf]
    | cons next lines =>
      have hbreak : ("\n".toList.flatMap String.utf8EncodeChar).length = 1 := rfl
      rw [List.map_cons, List.map_cons, List.intercalate_cons_cons, List.flatMap_append,
        List.flatMap_append, List.length_append, List.length_append, ← List.map_cons, ih,
        List.map_cons, List.sum_cons, List.length_cons, hbreak]
      simp only [bytesOf, List.map_cons, List.sum_cons, List.length_cons]
      omega

theorem lines_ne_nil (renderCall : String) (test : TestCase) : test.lines renderCall ≠ [] := by
  cases test <;> exact List.cons_ne_nil _ _

/-- A test file that has more tests than another, and is otherwise the same, has more bytes. -/
theorem length_render_lt {s t : Suite} {more : List TestCase} (hsubject : t.subject = s.subject)
    (hattributes : t.attributes = s.attributes) (hmocks : t.mocksNetwork = s.mocksNetwork)
    (hcases : t.cases = s.cases ++ more) (hmore : more ≠ []) :
    (bytesOf s.render).length < (bytesOf t.render).length := by
  have hcall : t.renderCall = s.renderCall := by
    rw [Suite.renderCall, Suite.renderCall, hsubject, hattributes]
  have hadded : 0 < (more.flatMap (TestCase.lines s.renderCall)).length := by
    obtain ⟨first, others, rfl⟩ := List.exists_cons_of_ne_nil hmore
    rw [List.flatMap_cons, List.length_append]
    exact Nat.add_pos_left (List.length_pos_of_ne_nil (lines_ne_nil _ _)) _
  rw [render, render, length_bytesOf_lines, length_bytesOf_lines, Suite.lines, Suite.lines, hcall,
    hsubject, hmocks, hcases, List.flatMap_append]
  simp only [List.map_append, List.sum_append, List.length_append, List.length_cons, List.length_nil]
  omega

/-! ### Runs that go well -/

theorem pairwise_batchOf (d : Disk) (files : List Path) :
    (batchOf d files).Pairwise fun i j => i.path < j.path := by
  rw [← List.pairwise_map, batchOf, paths_gather]
  exact pairwise_lt_inOrder (nodup_eraseDups _)

/-- The same in terms of the files whose items they are. -/
theorem bare?_batchOf_of_well (hshows : r.showsTests = false) (hreplace : r.replace = true)
    {files : List Path} (hnamed : ∀ f ∈ files, f.Named) (hhoused : ∀ f ∈ files, Housed s.disk f)
    (hwell : (items r s (batchOf d files)).2 = (batchOf d files).length) :
    ∀ f ∈ files, ∃ g ∈ files, ∃ c, (pathFor g).parts = (pathFor f).parts ∧
      (∀ h ∈ files, (pathFor h).parts = (pathFor f).parts → h.toString ≤ g.toString) ∧
      (Report.ofFile d g.toString).outcome = .ok c ∧
      (items r s (batchOf d files)).1.disk.bare? (pathFor f).parts =
        some (.file (bytesOf (textFor g (some c)))) := by
  have hpath : ∀ f ∈ files, Path.ofString (analyze d f.toString).2.path = f := fun f hf => by
    rw [path_analyze, (hnamed f hf).ofString_toString]
  have htest : ∀ f ∈ files, testOf (analyze d f.toString).2 = pathFor f := fun f hf => by
    rw [testOf, hpath f hf]
  have hhousedItem : ∀ i ∈ batchOf d files, Housed s.disk (.ofString i.path) := by
    intro i hi
    obtain ⟨f, hf, rfl⟩ := mem_batchOf_iff.mp hi
    rw [hpath f hf]
    exact hhoused f hf
  intro f hf
  obtain ⟨j, hj, c, hsame, hlast, houtcome, hbare⟩ := bare?_items_of_well hshows hreplace hhousedItem
    (pairwise_batchOf d files) hwell _ (mem_batchOf_iff.mpr ⟨f, hf, rfl⟩)
  obtain ⟨g, hg, rfl⟩ := mem_batchOf_iff.mp hj
  rw [htest f hf] at hsame hbare hlast
  rw [htest g hg] at hsame
  rw [hpath g hg] at hbare
  refine ⟨g, hg, c, hsame, fun h hh hsame' => ?_, outcome_analyze_eq_ok_iff.mp houtcome, hbare⟩
  have hle := hlast _ (mem_batchOf_iff.mpr ⟨h, hh, rfl⟩) ((htest h hh).symm ▸ hsame')
  rwa [path_analyze, path_analyze] at hle

theorem Request.read_pathFor_of_run (hd : d.Sound) (hfolder : d.holdsFolder (r.target d) = true)
    (hlinks : ∀ root, d.resolve (r.target d) = .ok root → d.LinkFreeBelow root.parts)
    (hreplace : r.replace = true) (hshows : r.showsTests = false)
    (hrun : r.run d = .ok (s, .code 0)) :
    ∀ f ∈ r.subjects d, ∃ g ∈ r.subjects d, ∃ c, pathFor g = pathFor f ∧
      (∀ h ∈ r.subjects d, pathFor h = pathFor f → h.toString ≤ g.toString) ∧
      (Report.ofFile d g.toString).outcome = .ok c ∧
      s.disk.read (pathFor f) = .ok (bytesOf (textFor g (some c))) := by
  rw [run_of_folder hfolder] at hrun
  cases hfiles : Discovery.components d (r.target d) with
  | error e =>
    obtain ⟨abort, habort⟩ := folder_of_error (r := r) hfiles
    rw [habort] at hrun
    cases hrun
  | ok files =>
    obtain ⟨s₀, hs₀, hfolderRun⟩ := folder_of_files (r := r) hfiles
    rw [hfolderRun] at hrun
    obtain ⟨hs, hexit⟩ := Prod.mk.inj (Except.ok.inj hrun)
    have hwell : (items r s₀ (batchOf d files)).2 = (batchOf d files).length := by
      by_contra hne
      rw [if_neg hne] at hexit
      cases hexit
    have hlies : ∀ f ∈ files, f.Named ∧ f.anchor = .root ∧ Housed d f := by
      intro f hf
      obtain ⟨root, hroot, hlies⟩ := Discovery.lies_of_mem_components hd hfiles hf
      exact ⟨hlies.named hd, hlies.anchor_eq, hlies.housed hd (hlinks root hroot)⟩
    have hanchor : ∀ f ∈ files, (pathFor f).anchor = .root := fun f hf => (hlies f hf).2.1
    rw [Request.subjects_of_files hfolder hfiles]
    intro f hf
    obtain ⟨g, hg, c, hsame, hlast, houtcome, hbare⟩ := bare?_batchOf_of_well hshows hreplace
      (fun f hf => (hlies f hf).1) (fun f hf => hs₀ ▸ (hlies f hf).2.2) hwell f hf
    refine ⟨g, hg, c, ?_, fun h hh heq => hlast h hh (congrArg Path.parts heq), houtcome, ?_⟩
    · exact Path.ext ((hanchor g hg).trans (hanchor f hf).symm) hsame
    · rw [← hs]
      exact read_of_bare? (hlies f hf).1.anchored (not_mem_pathFor (hlies f hf).1.noDots_parent) hbare

/-- A run in a folder without links that replaces tests and goes well leaves, in the place of the test
of each file, the test of the last file that has its test there: with two files of one folder whose
names differ in their suffix alone, that of the other one is lost. -/
theorem read_test_of_well (hd : d.Sound) {arguments : List String}
    (hrequest : request? arguments = some r) (hfolder : d.holdsFolder (r.target d) = true)
    (hlinks : ∀ root, d.resolve (r.target d) = .ok root → d.LinkFreeBelow root.parts)
    (hreplace : r.replace = true) (hshows : r.showsTests = false)
    (hrun : run d arguments = .ok (s, .code 0)) :
    ∀ f ∈ r.subjects d, ∃ g ∈ r.subjects d, ∃ c, pathFor g = pathFor f ∧
      (∀ h ∈ r.subjects d, pathFor h = pathFor f → h.toString ≤ g.toString) ∧
      (Report.ofFile d g.toString).outcome = .ok c ∧
      s.disk.read (pathFor f) = .ok (bytesOf (textFor g (some c))) := by
  rw [run_of_some hrequest] at hrun
  exact Request.read_pathFor_of_run hd hfolder hlinks hreplace hshows hrun

/-- A folder with two components in files that have the same name up to the suffix. -/
def sameStem : Disk where
  root := [
    ("p", .folder [
      ("A.jsx", .file (bytesOf "export default()=><p/>")),
      ("A.tsx", .file (bytesOf "export default()=><p>a</p>"))])]

/-- The request to replace the tests in that folder. -/
def forced : Request := { path := "/p", replace := true }

/-- Only the second of the files has a test besides the one that all have. -/
def hasMoreTests (own other : Component) : Bool :=
  own.props = [] ∧ other.props = [] ∧ own.hasEffects = other.hasEffects ∧
    (ofComponent "A" own).cases.length = 1 ∧ (ofComponent "A" other).cases.length = 2

/-- There are no links; both files are found, and have one place for their tests; and the run goes well.
-/
theorem forced_sameStem :
    sameStem.Sound ∧ sameStem.LinkFree ∧ request? ["/p", "--force"] = some forced ∧
      sameStem.holdsFolder (forced.target sameStem) = true ∧
      forced.subjects sameStem = [.ofString "/p/A.jsx", .ofString "/p/A.tsx"] ∧
      pathFor (.ofString "/p/A.tsx") = pathFor (.ofString "/p/A.jsx") ∧
      ¬ (Path.ofString "/p/A.tsx").toString ≤ (Path.ofString "/p/A.jsx").toString ∧
      (run sameStem ["/p", "--force"]).toOption.map (·.2) = some (.code 0) ∧
      (Path.ofString "/p/A.tsx").stem = (Path.ofString "/p/A.jsx").stem ∧
      (match (Report.ofFile sameStem (Path.ofString "/p/A.jsx").toString).outcome,
          (Report.ofFile sameStem (Path.ofString "/p/A.tsx").toString).outcome with
        | .ok own, .ok other => hasMoreTests own other
        | _, _ => false) = true :=
  ⟨sound_of_places (by decide +kernel) (by decide +kernel), linkFree_of_places (by decide +kernel),
    by decide +kernel, by decide +kernel, by decide +kernel, by decide +kernel, by decide +kernel,
    by decide +kernel, by decide +kernel, by decide +kernel⟩

theorem exists_run {arguments : List String} {n : Nat}
    (h : (run d arguments).toOption.map (·.2) = some (.code n)) :
    ∃ s, run d arguments = .ok (s, .code n) := by
  obtain ⟨⟨s, exit⟩, hrun, rfl⟩ := exists_of_toOption_map h
  exact ⟨s, hrun⟩

theorem run_sameStem : ∃ s, run sameStem ["/p", "--force"] = .ok (s, .code 0) := by
  obtain ⟨-, -, -, -, -, -, -, hexit, -⟩ := forced_sameStem
  exact exists_run hexit

/-- The second of the files is the last with its place for a test. -/
theorem last_sameStem {g : Path} (hg : g ∈ forced.subjects sameStem)
    (hlast : ∀ h ∈ forced.subjects sameStem, pathFor h = pathFor (.ofString "/p/A.jsx") →
      h.toString ≤ g.toString) : g = .ofString "/p/A.tsx" := by
  obtain ⟨-, -, -, -, hsubjects, hplace, hle, -⟩ := forced_sameStem
  rw [hsubjects] at hg hlast
  rcases List.mem_cons.mp hg with rfl | hg
  · exact absurd (hlast _ (List.mem_cons_of_mem _ List.mem_cons_self) hplace) hle
  · exact List.mem_singleton.mp hg

theorem read_test_of_sameStem :
    ∃ s, run sameStem ["/p", "--force"] = .ok (s, .code 0) ∧
      ∃ c, (Report.ofFile sameStem (Path.ofString "/p/A.tsx").toString).outcome = .ok c ∧
        s.disk.read (pathFor (.ofString "/p/A.jsx")) =
          .ok (bytesOf (textFor (.ofString "/p/A.tsx") (some c))) := by
  obtain ⟨hsound, hfree, hrequest, hfolder, hsubjects, -⟩ := forced_sameStem
  obtain ⟨s, hrun⟩ := run_sameStem
  obtain ⟨g, hg, c, -, hlast, houtcome, hread⟩ := read_test_of_well hsound hrequest hfolder
    (fun root _ => hfree.append root.parts) rfl rfl hrun (.ofString "/p/A.jsx")
    (by rw [hsubjects]; exact List.mem_cons_self)
  obtain rfl := last_sameStem hg hlast
  exact ⟨s, hrun, c, houtcome, hread⟩

theorem length_textFor_lt {p q : Path} {own other : Component} (hstem : q.stem = p.stem)
    (hmore : hasMoreTests own other = true) :
    (bytesOf (textFor p (some own))).length < (bytesOf (textFor q (some other))).length := by
  obtain ⟨hprops, hprops', heffects, hone, htwo⟩ := of_decide_eq_true hmore
  obtain ⟨first, hfirst⟩ := List.length_eq_one_iff.mp hone
  obtain ⟨first', second, hsecond⟩ := List.length_eq_two.mp htwo
  have hcases : (ofComponent "A" other).cases = (ofComponent "A" own).cases ++ [second] := by
    have hhead : ∀ c, (ofComponent "A" c).cases.head? = some .smoke := fun _ => rfl
    have hsame := (hhead other).trans (hhead own).symm
    rw [hfirst, hsecond] at hsame ⊢
    rw [Option.some.inj hsame]
    rfl
  refine length_render_lt hstem ?_ heffects.symm hcases (List.cons_ne_nil _ _)
  change attributesOf other.props = attributesOf own.props
  rw [hprops, hprops']

/-- So a run can go well and not every file has its test. -/
theorem lost_test_of_sameStem :
    ¬ ∀ s, run sameStem ["/p", "--force"] = .ok (s, .code 0) → ∀ f ∈ forced.subjects sameStem,
      ∃ c, (Report.ofFile sameStem f.toString).outcome = .ok c ∧
        s.disk.read (pathFor f) = .ok (bytesOf (textFor f (some c))) := by
  intro h
  obtain ⟨hsound, hfree, hrequest, hfolder, hsubjects, -, -, -, hstem, hmore⟩ := forced_sameStem
  obtain ⟨s, hrun⟩ := run_sameStem
  have hmem : .ofString "/p/A.jsx" ∈ forced.subjects sameStem := by
    rw [hsubjects]
    exact List.mem_cons_self
  obtain ⟨own, hown, hread⟩ := h s hrun _ hmem
  rw [run_of_some hrequest] at hrun
  obtain ⟨g, hg, other, -, hlast, hother, hread'⟩ := Request.read_pathFor_of_run hsound hfolder
    (fun root _ => hfree.append root.parts) rfl rfl hrun _ hmem
  obtain rfl := last_sameStem hg hlast
  rw [hown, hother] at hmore
  have hlonger := length_textFor_lt hstem hmore
  rw [Except.ok.inj (hread.symm.trans hread')] at hlonger
  exact lt_irrefl _ hlonger

end SuiteDraft.CommandLine.Generate
