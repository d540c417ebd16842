import SuiteDraft.Proofs.CommandLine.Overwriting
import SuiteDraft.Proofs.Discovery.Exact
import SuiteDraft.Proofs.Suite.Spot

/-!
# Failures and the other files

A file of a folder that cannot be analysed, or whose test cannot be written, does not keep the others
from their tests. Each file comes to what it comes to by itself, as long as no two tests go to one place
and no test's place depends on folders that are made for others.
-/

namespace SuiteDraft.CommandLine.Generate

open Disk Suite Batch

variable {d : Disk} {r : Request} {s : State} {f g : Path} {files found : List Path} {c : Component}
  {names : List String}

/-! ### Files that fail -/

/-- A file fails that cannot be analysed, or whose test cannot be written. -/
def Request.fails (r : Request) (d : Disk) (f : Path) : Bool :=
  match (Report.ofFile d f.toString).outcome with
  | .error _ => true
  | .ok c => !(place d f (some c) r.replace).isOk

theorem Request.fails_eq_false_iff : r.fails d f = false ↔ ∃ c disk?,
    (Report.ofFile d f.toString).outcome = .ok c ∧ place d f (some c) r.replace = .ok disk? := by
  rw [Request.fails]
  cases (Report.ofFile d f.toString).outcome with
  | error failure => exact ⟨fun h => (nomatch h), fun ⟨_, _, h, _⟩ => nomatch h⟩
  | ok c =>
    dsimp only
    cases hplace : place d f (some c) r.replace with
    | ok disk? => exact iff_of_true rfl ⟨c, disk?, rfl, hplace⟩
    | error setback =>
      refine iff_of_false (fun h => nomatch h) ?_
      rintro ⟨c', disk?, hc, h⟩
      cases hc
      rw [hplace] at h
      cases h

/-- What stands where a test goes, after a run in which its file does not fail: what is to be kept, or
the test. -/
def Request.leaves (r : Request) (d : Disk) (f : Path) (c : Component) (names : List String) :
    Option Entry :=
  if (d.bare? names).isSome && !r.replace then d.bare? names
  else some (.file (bytesOf (textFor f (some c))))

/-! ### The item of a file -/

def itemOf (d : Disk) (f : Path) : Item := (analyze d f.toString).2

theorem path_itemOf (hf : f.Named) : Path.ofString (itemOf d f).path = f := by
  rw [itemOf, path_analyze, hf.ofString_toString]

theorem outcome_itemOf_eq_ok_iff :
    (itemOf d f).outcome = .ok c ↔ (Report.ofFile d f.toString).outcome = .ok c := by
  rw [itemOf, outcome_analyze_eq_ok_iff]

theorem disk_item_of_ok (hshows : r.showsTests = false) (hf : f.Named)
    (houtcome : (Report.ofFile d f.toString).outcome = .ok c) :
    (item r s (itemOf d f)).1.disk = placed s.disk f c r.replace := by
  have hdelivery : (itemOf d f).delivery? = some (f, c) :=
    delivery?_eq_some_iff.mpr ⟨outcome_itemOf_eq_ok_iff.mpr houtcome, path_itemOf hf⟩
  rw [disk_item_of_some hdelivery, Request.deliver_eq_placed hshows]

theorem disk_item_of_ne (houtcome : ∀ c, (Report.ofFile d f.toString).outcome ≠ .ok c) :
    (item r s (itemOf d f)).1.disk = s.disk := by
  apply disk_item_of_none
  rw [Option.eq_none_iff_forall_ne_some]
  rintro ⟨p, c⟩ hdelivery
  exact houtcome c (outcome_itemOf_eq_ok_iff.mp (delivery?_eq_some_iff.mp hdelivery).1)

section

variable (hshows : r.showsTests = false) (hnamed : f.Named) (hfit : Fitting found d f)
  (he : Evolved found d s.disk)

include hshows hnamed hfit he

theorem evolved_item : Evolved found s.disk (item r s (itemOf d f)).1.disk := by
  by_cases houtcome : ∃ c, (Report.ofFile d f.toString).outcome = .ok c
  · obtain ⟨c, houtcome⟩ := houtcome
    rw [disk_item_of_ok hshows hnamed houtcome]
    exact hfit.evolved_placed he c r.replace
  · rw [disk_item_of_ne (not_exists.mp houtcome)]
    exact .refl found _

/-- Where the test of another file goes, an item changes nothing. -/
theorem bare?_item_of_ne (hg : Fitting found d g) (hgoes : Goes d g names) (hnot : ¬ Goes d f names) :
    (item r s (itemOf d f)).1.disk.bare? names = s.disk.bare? names := by
  by_cases houtcome : ∃ c, (Report.ofFile d f.toString).outcome = .ok c
  · obtain ⟨c, houtcome⟩ := houtcome
    rw [disk_item_of_ok hshows hnamed houtcome]
    apply (hfit.toInFolder.mono he.toSameKinds).bare?_placed_of_ne
    · rwa [hfit.goes_iff he]
    · rintro rfl
      exact hg.isSome_of_tests he hfit.mem hgoes
  · rw [disk_item_of_ne (not_exists.mp houtcome)]

variable (hsame : ∀ names, Goes d f names → s.disk.bare? names = d.bare? names)

include hsame

/-- An item goes well where its file does not fail. -/
theorem well_itemOf : (item r s (itemOf d f)).2 = !r.fails d f := by
  have h' := hfit.toInFolder.mono he.toSameKinds
  have hplace : ∀ c, (∃ disk?, place s.disk f (some c) r.replace = .ok disk?) ↔
      ∃ disk?, place d f (some c) r.replace = .ok disk? := by
    intro c
    rw [h'.place_eq_ok_iff, hfit.toInFolder.place_eq_ok_iff]
    apply exists_congr
    intro names
    rw [hfit.goes_iff he]
    apply and_congr_right
    intro hgoes
    rw [hsame names hgoes]
  rw [Bool.eq_iff_iff, well_item_iff hshows, Bool.not_eq_true', Request.fails_eq_false_iff,
    path_itemOf hnamed]
  apply exists_congr
  intro c
  rw [exists_and_left, exists_and_left, hplace c]
  exact and_congr_left fun _ => outcome_itemOf_eq_ok_iff

theorem bare?_item (hwell : r.fails d f = false)
    (houtcome : (Report.ofFile d f.toString).outcome = .ok c) (hgoes : Goes d f names) :
    (item r s (itemOf d f)).1.disk.bare? names = r.leaves d f c names := by
  have h' := hfit.toInFolder.mono he.toSameKinds
  have hdone : (item r s (itemOf d f)).2 = true := by
    rw [well_itemOf hshows hnamed hfit he hsame, hwell, Bool.not_false]
  obtain ⟨c', disk?, houtcome', hplace⟩ := (well_item_iff hshows).mp hdone
  have hc := (outcome_itemOf_eq_ok_iff.mp houtcome').symm.trans houtcome
  cases hc
  rw [path_itemOf hnamed] at hplace
  rw [disk_item_of_ok hshows hnamed houtcome, Request.leaves, ← hsame names hgoes]
  exact h'.bare?_placed ((hfit.goes_iff he).mpr hgoes) hplace

end

/-! ### The items of a folder -/

/-- Some of the files that were found, whose tests go to places of their own that can be told from the
disk as it is. -/
structure Separate (found : List Path) (d : Disk) (files : List Path) : Prop where
  named : ∀ f ∈ files, f.Named
  fitting : ∀ f ∈ files, Fitting found d f
  apart : files.Pairwise fun f g => ∀ names, Goes d f names → ¬ Goes d g names

theorem Separate.tail (h : Separate found d (f :: files)) : Separate found d files where
  named g hg := h.named g (List.mem_cons_of_mem _ hg)
  fitting g hg := h.fitting g (List.mem_cons_of_mem _ hg)
  apart := (List.pairwise_cons.mp h.apart).2

theorem Separate.perm {others : List Path} (h : Separate found d files)
    (hperm : others.Perm files) : Separate found d others where
  named g hg := h.named g (hperm.mem_iff.mp hg)
  fitting g hg := h.fitting g (hperm.mem_iff.mp hg)
  apart := hperm.symm.pairwise h.apart fun hapart names hg hf => hapart names hf hg

section

variable (hshows : r.showsTests = false) (hfiles : Separate found d files) (he : Evolved found d s.disk)

include hshows hfiles he

theorem evolved_items : Evolved found d (items r s (files.map (itemOf d))).1.disk := by
  induction files generalizing s with
  | nil => exact he
  | cons f files ih =>
    have hstep := evolved_item hshows (hfiles.named f List.mem_cons_self)
      (hfiles.fitting f List.mem_cons_self) he
    rw [List.map_cons, items_cons]
    exact ih hfiles.tail (he.trans hstep)

theorem bare?_items_of_not_goes (hg : Fitting found d g) (hgoes : Goes d g names)
    (hnot : ∀ f ∈ files, ¬ Goes d f names) :
    (items r s (files.map (itemOf d))).1.disk.bare? names = s.disk.bare? names := by
  induction files generalizing s with
  | nil => rfl
  | cons f files ih =>
    have hnamed := hfiles.named f List.mem_cons_self
    have hfit := hfiles.fitting f List.mem_cons_self
    have hstep := evolved_item hshows hnamed hfit he
    have hrest := ih hfiles.tail (he.trans hstep) fun f hf => hnot f (List.mem_cons_of_mem _ hf)
    rw [List.map_cons, items_cons, hrest]
    exact bare?_item_of_ne hshows hnamed hfit he hg hgoes (hnot f List.mem_cons_self)

/-- Whichever files fail, every other one is dealt with as by itself. -/
theorem items_spec (hsame : ∀ f ∈ files, ∀ names, Goes d f names →
      s.disk.bare? names = d.bare? names) :
    (items r s (files.map (itemOf d))).2 = files.countP (fun f => !r.fails d f) ∧
      ∀ f ∈ files, r.fails d f = false → ∀ c names, (Report.ofFile d f.toString).outcome = .ok c →
        Goes d f names →
          (items r s (files.map (itemOf d))).1.disk.bare? names = r.leaves d f c names := by
  induction files generalizing s with
  | nil => exact ⟨rfl, fun f hf => absurd hf List.not_mem_nil⟩
  | cons f files ih =>
    have hnamed := hfiles.named f List.mem_cons_self
    have hfit := hfiles.fitting f List.mem_cons_self
    have hsameFirst := hsame f List.mem_cons_self
    obtain ⟨hapart, -⟩ := List.pairwise_cons.mp hfiles.apart
    have hevolved := he.trans (evolved_item hshows hnamed hfit he)
    have hsameRest : ∀ g ∈ files, ∀ names, Goes d g names →
        (item r s (itemOf d f)).1.disk.bare? names = d.bare? names := by
      intro g hg names hgoes
      have hnot : ¬ Goes d f names := fun hgoes' => hapart g hg names hgoes' hgoes
      rw [bare?_item_of_ne hshows hnamed hfit he (hfiles.tail.fitting g hg) hgoes hnot]
      exact hsame g (List.mem_cons_of_mem _ hg) names hgoes
    obtain ⟨hcount, htests⟩ := ih hfiles.tail hevolved hsameRest
    rw [List.map_cons, items_cons]
    refine ⟨?_, fun g hg hwell c names houtcome hgoes => ?_⟩
    · rw [hcount, List.countP_cons, ← well_itemOf hshows hnamed hfit he hsameFirst]
    · rcases List.mem_cons.mp hg with rfl | hg
      · have hlater := bare?_items_of_not_goes hshows hfiles.tail hevolved hfit hgoes
          fun h hh => hapart h hh names hgoes
        exact hlater.trans (bare?_item hshows hnamed hfit he hsameFirst hwell houtcome hgoes)
      · exact htests g hg hwell c names houtcome hgoes

end

/-! ### Runs -/

/-- The items of files are in the order of their paths. -/
theorem exists_sorted (hnamed : ∀ f ∈ files, f.Named) (hnodup : files.Nodup) :
    ∃ sorted : List Path, sorted.Perm files ∧ batchOf d files = sorted.map (itemOf d) := by
  have hback : (files.map Path.toString).map Path.ofString = files := by
    rw [List.map_map]
    exact (List.map_congr_left fun f hf => (hnamed f hf).ofString_toString).trans (List.map_id _)
  generalize hpaths : files.map Path.toString = paths at hback
  have hnodup' : paths.Nodup := by
    rw [← hback] at hnodup
    exact hnodup.of_map _
  have honce : paths.eraseDups.Perm paths :=
    (List.perm_ext_iff_of_nodup (nodup_eraseDups _) hnodup').mpr fun path => List.mem_eraseDups
  have hperm := (perm_inOrder id paths.eraseDups).trans honce
  refine ⟨(inOrder id paths.eraseDups).map .ofString, ?_, ?_⟩
  · have hmapped := hperm.map Path.ofString
    rwa [hback] at hmapped
  · rw [batchOf, hpaths, items_gather, List.map_map]
    refine List.map_congr_left fun path hpath => ?_
    have hmem := hperm.mem_iff.mp hpath
    rw [← hpaths] at hmem
    obtain ⟨f, hf, rfl⟩ := List.mem_map.mp hmem
    rw [Function.comp_apply, itemOf, (hnamed f hf).ofString_toString]

/-- A run fails if one of its files does. -/
theorem exit_of_countP (fails : Path → Bool) (files : List Path) :
    (if files.length - files.countP fails = files.length then 0 else 1) =
      if files.any fails then 1 else 0 := by
  have hle := List.countP_le_length (p := fails) (l := files)
  have hsome : files.any fails = true ↔ 0 < files.countP fails := by
    rw [List.any_eq_true, List.countP_pos_iff]
  by_cases hany : files.any fails = true
  · have hpos := hsome.mp hany
    rw [if_pos hany, if_neg (by omega)]
  · have hzero : ¬ 0 < files.countP fails := fun hpos => hany (hsome.mpr hpos)
    rw [if_neg hany, if_pos (by omega)]

/-- A run for a folder deals with each file by itself. -/
theorem run_of_separate (hfolder : d.holdsFolder (r.target d) = true)
    (hfound : Discovery.components d (r.target d) = .ok files) (hshows : r.showsTests = false)
    (hfiles : Separate files d files) (hnodup : files.Nodup) :
    ∃ s : State, r.run d = .ok (s, .code (if files.any (r.fails d) then 1 else 0)) ∧
      (∃ before, s.screen.output = before ++
        summary (files.length - files.countP (r.fails d)) files.length ++ "\n") ∧
      Evolved files d s.disk ∧
      ∀ f ∈ files, r.fails d f = false → ∀ c names, (Report.ofFile d f.toString).outcome = .ok c →
        Goes d f names → s.disk.bare? names = r.leaves d f c names := by
  obtain ⟨s₀, hs₀, hrun⟩ := folder_of_files (r := r) hfound
  obtain ⟨sorted, hperm, hbatch⟩ := exists_sorted (d := d) hfiles.named hnodup
  rw [hbatch, List.length_map, hperm.length_eq] at hrun
  have hsorted := hfiles.perm hperm
  have he : Evolved files d s₀.disk := hs₀ ▸ .refl files d
  have hevolved := evolved_items hshows hsorted he
  obtain ⟨hcount, htests⟩ := items_spec hshows hsorted he fun f _ names _ => by rw [hs₀]
  have hsum := List.length_eq_countP_add_countP (r.fails d) (l := files)
  simp only [Bool.not_eq_true, Bool.decide_eq_false] at hsum
  have hwell : (items r s₀ (sorted.map (itemOf d))).2 = files.length - files.countP (r.fails d) := by
    rw [hcount, hperm.countP_eq]
    omega
  rw [hwell, exit_of_countP] at hrun
  refine ⟨_, (run_of_folder hfolder).trans hrun, ⟨_, rfl⟩, hevolved, fun f hf => ?_⟩
  exact htests f (hperm.mem_iff.mpr hf)

/-- The run for a file by itself, where it does not fail. -/
theorem run_alone (hf : f.Named) (htarget : r.target d = f) (hshows : r.showsTests = false)
    (houtcome : (Report.ofFile d f.toString).outcome = .ok c) {disk? : Option Disk}
    (hplace : place d f (some c) r.replace = .ok disk?) :
    ∃ s : State, r.run d = .ok (s, .code 0) ∧ s.disk = placed d f c r.replace := by
  have hread : (d.read (r.target d)).isOk := by
    rw [htarget, ← hf.ofString_toString]
    exact isOk_read_of_outcome houtcome
  rw [← htarget] at houtcome
  obtain ⟨s₀, hs₀, hrun⟩ := run_of_file hread houtcome
  have hdisk : (s₀.showFacts r c).disk = d := (disk_showFacts s₀ r c).trans hs₀
  rw [← hdisk] at hplace
  obtain ⟨s, hs, hplaced⟩ := deliver_of_place hshows hplace
  rw [htarget, hs] at hrun
  rw [hdisk] at hplaced
  exact ⟨s, hrun, hplaced⟩

/-! ### Each file as by itself -/

/-- A run that deals with each of the files as by itself: it fails if one of them does, says how many
did not, and leaves of each that did not what a run for it alone leaves. -/
structure Isolated (r : Request) (d : Disk) (files : List Path) (s : State) (exit : Exit) : Prop where
  exit_eq : exit = .code (if files.any (r.fails d) then 1 else 0)
  counts : ∃ before, s.screen.output =
    before ++ summary (files.length - files.countP (r.fails d)) files.length ++ "\n"
  test : ∀ f ∈ files, r.fails d f = false → ∃ c, (Report.ofFile d f.toString).outcome = .ok c ∧
    s.disk.read (pathFor f) = if d.holds (pathFor f) && !r.replace then d.read (pathFor f)
      else .ok (bytesOf (textFor f (some c)))
  alone : ∀ f ∈ files, r.fails d f = false → ∀ arguments r', request? arguments = some r' →
    r'.target d = f → r'.replace = r.replace → r'.showsTests = false →
      ∃ s', run d arguments = .ok (s', .code 0) ∧ s'.disk.read (pathFor f) = s.disk.read (pathFor f)

/-- Where nothing is kept, an isolated run leaves the test. -/
theorem Isolated.read_new {exit : Exit} (hisolated : Isolated r d files s exit) (hf : f ∈ files)
    (hfails : r.fails d f = false) (hnew : (d.holds (pathFor f) && !r.replace) = false) :
    ∃ c, (Report.ofFile d f.toString).outcome = .ok c ∧
      s.disk.read (pathFor f) = .ok (bytesOf (textFor f (some c))) := by
  obtain ⟨c, houtcome, hread⟩ := hisolated.test f hf hfails
  rw [hnew, if_neg Bool.false_ne_true] at hread
  exact ⟨c, houtcome, hread⟩

/-- What is read of a test is told by what stands where it goes. -/
theorem read_of_leaves (hfit : Fitting found d f) {d' : Disk} (he : Evolved found d d') (hgoes : Goes d f names)
    (hleaves : d'.bare? names = r.leaves d f c names) :
    d'.read (pathFor f) = if d.holds (pathFor f) && !r.replace then d.read (pathFor f)
      else .ok (bytesOf (textFor f (some c))) := by
  have hfit' := hfit.toInFolder.mono he.toSameKinds
  have hgoes' := (hfit.goes_iff he).mpr hgoes
  rw [Request.leaves] at hleaves
  rw [hfit.toInFolder.holds_of_goes hgoes]
  split at hleaves
  · rename_i hkept
    have hsome := (Bool.and_eq_true_iff.mp hkept).1
    rw [if_pos hkept, hfit'.read_of_goes hgoes' (by rw [hleaves]; exact hsome), hleaves,
      hfit.toInFolder.read_of_goes hgoes hsome]
  · rename_i hkept
    rw [if_neg hkept, hfit'.read_of_goes hgoes' (by rw [hleaves]; rfl), hleaves]
    rfl

/-- What is found in a folder is separate, if the tests' paths lead to places of their own and break off
at no missing folder for the tests of others that are found. -/
theorem separate_of_components (hd : d.Sound) {target : Path}
    (hfound : Discovery.components d target = .ok files)
    (hplaces : files.Pairwise fun f g => ∀ place, d.resolve (pathFor f) = .ok place →
      d.resolve (pathFor g) ≠ .ok place)
    (hgaps : ∀ f ∈ files, ∀ g ∈ files, d.gap? (pathFor f) = some (testsFolder g) →
      testsFolder g = testsFolder f) :
    Separate files d files := by
  have hlies : ∀ f ∈ files, f.Named ∧ InFolder d f := by
    intro f hf
    obtain ⟨root, -, hlies⟩ := Discovery.lies_of_mem_components hd hfound hf
    exact ⟨hlies.named hd, hlies.inFolder hd⟩
  refine ⟨fun f hf => (hlies f hf).1, fun f hf => ⟨(hlies f hf).2, hf, hgaps f hf⟩, ?_⟩
  refine hplaces.imp_of_mem fun {f g} hf hg hplace names hgoes hgoes' => ?_
  exact hplace _ ((hlies f hf).2.resolve_of_goes hgoes) ((hlies g hg).2.resolve_of_goes hgoes')

/-- Whichever files of a folder fail, its run deals with each of the others as by itself, where the paths
of their tests lead to places of their own and, by links, through no missing folder for the tests of
others that are found. -/
theorem run_isolated (hd : d.Sound) {arguments : List String} (hrequest : request? arguments = some r)
    (hfolder : d.holdsFolder (r.target d) = true)
    (hfound : Discovery.components d (r.target d) = .ok files) (hshows : r.showsTests = false)
    (hplaces : files.Pairwise fun f g => ∀ place, d.resolve (pathFor f) = .ok place →
      d.resolve (pathFor g) ≠ .ok place)
    (hgaps : ∀ f ∈ files, ∀ g ∈ files, d.gap? (pathFor f) = some (testsFolder g) →
      testsFolder g = testsFolder f) :
    ∃ s exit, run d arguments = .ok (s, exit) ∧ Isolated r d files s exit := by
  have hfiles := separate_of_components hd hfound hplaces hgaps
  obtain ⟨s, hrun, hsummary, he, htests⟩ := run_of_separate hfolder hfound hshows hfiles
    (Discovery.nodup_of_components hd hfound)
  have hread : ∀ f ∈ files, r.fails d f = false → ∃ c disk? names,
      (Report.ofFile d f.toString).outcome = .ok c ∧ place d f (some c) r.replace = .ok disk? ∧
      Goes d f names ∧ s.disk.read (pathFor f) =
        if d.holds (pathFor f) && !r.replace then d.read (pathFor f)
        else .ok (bytesOf (textFor f (some c))) := by
    intro f hf hwell
    have hfit := hfiles.fitting f hf
    obtain ⟨c, disk?, houtcome, hplace⟩ := Request.fails_eq_false_iff.mp hwell
    obtain ⟨names, hgoes, -⟩ := (hfit.toInFolder.place_eq_ok_iff c r.replace).mp ⟨disk?, hplace⟩
    exact ⟨c, disk?, names, houtcome, hplace, hgoes, read_of_leaves hfit he hgoes
      (htests f hf hwell c names houtcome hgoes)⟩
  refine ⟨s, _, (run_of_some hrequest).trans hrun, rfl, hsummary, ?_, ?_⟩
  · intro f hf hwell
    obtain ⟨c, -, -, houtcome, -, -, hafter⟩ := hread f hf hwell
    exact ⟨c, houtcome, hafter⟩
  · intro f hf hwell again r' hagain htarget hreplace hshows'
    have hfit := hfiles.fitting f hf
    obtain ⟨c, disk?, names, houtcome, hplace, hgoes, hafter⟩ := hread f hf hwell
    rw [← hreplace] at hplace
    obtain ⟨s', hrun', hdisk⟩ := run_alone (hfiles.named f hf) htarget hshows' houtcome hplace
    have hleaves : s'.disk.bare? names = r'.leaves d f c names := by
      rw [hdisk]
      exact hfit.toInFolder.bare?_placed hgoes hplace
    have he' : Evolved files d s'.disk := hdisk ▸ hfit.evolved_placed (.refl files d) c r'.replace
    refine ⟨s', (run_of_some hagain).trans hrun', ?_⟩
    rw [hafter, read_of_leaves hfit he' hgoes hleaves, hreplace]

/-- A request to write tests, and to keep those that are there. -/
def careful : Request := { path := "/p" }

/-- A folder with a file that cannot be parsed and one whose test has no room. Of the two others, one has
its tests behind a link, and there is a file for it already. -/
def partlyFailing : Disk where
  root := [
    ("p", .folder [
      ("A.tsx", .file (bytesOf "export default()=><p/>")),
      ("B.tsx", .file (bytesOf "(")),
      ("__tests__", .link "../t"),
      ("q", .folder [("C.tsx", .file []), ("__tests__", .file [])]),
      ("r", .folder [("D.tsx", .file (bytesOf "export default()=><p>d</p>"))])]),
    ("t", .folder [("A.test.tsx", .file (bytesOf "mine"))])]

/-- What is found in it. -/
def partlyFailingFiles : List Path :=
  [.ofString "/p/A.tsx", .ofString "/p/B.tsx", .ofString "/p/q/C.tsx", .ofString "/p/r/D.tsx"]

theorem run_isolated_partlyFailing :
    ∃ s, run partlyFailing ["/p"] = .ok (s, .code 1) ∧
      (∃ before, s.screen.output = before ++ summary 2 4 ++ "\n") ∧
      s.disk.read (pathFor (.ofString "/p/A.tsx")) = .ok (bytesOf "mine") ∧
      ∃ c, (Report.ofFile partlyFailing (Path.ofString "/p/r/D.tsx").toString).outcome = .ok c ∧
        s.disk.read (pathFor (.ofString "/p/r/D.tsx")) =
          .ok (bytesOf (textFor (.ofString "/p/r/D.tsx") (some c))) := by
  have hsound : partlyFailing.Sound := sound_of_places (by decide +kernel) (by decide +kernel)
  have hrequest : request? ["/p"] = some careful := by decide +kernel
  have hfound : Discovery.components partlyFailing (careful.target partlyFailing) =
      .ok partlyFailingFiles := eq_ok_of_toOption (by decide +kernel)
  have hplaces : (partlyFailingFiles.map fun f =>
      (partlyFailing.resolve (pathFor f)).toOption).Pairwise (· ≠ ·) := by decide +kernel
  have hgaps : ∀ f ∈ partlyFailingFiles, ∀ g ∈ partlyFailingFiles,
      partlyFailing.gap? (pathFor f) = some (testsFolder g) → testsFolder g = testsFolder f := by
    decide +kernel
  have hfails : partlyFailingFiles.map (careful.fails partlyFailing) = [false, true, true, false] := by
    decide +kernel
  have hkept : (partlyFailing.holds (pathFor (.ofString "/p/A.tsx")) && !careful.replace) = true := by
    decide +kernel
  have hnew : (partlyFailing.holds (pathFor (.ofString "/p/r/D.tsx")) && !careful.replace) = false := by
    decide +kernel
  have hmine : partlyFailing.read (pathFor (.ofString "/p/A.tsx")) = .ok (bytesOf "mine") := by
    decide +kernel
  obtain ⟨s, exit, hrun, hisolated⟩ := run_isolated hsound hrequest (by decide +kernel) hfound rfl
    ((List.pairwise_map.mp hplaces).imp fun hne place hf hg => hne (by rw [hf, hg])) hgaps
  simp only [partlyFailingFiles, List.map_cons, List.map_nil, List.cons.injEq] at hfails
  obtain ⟨hA, hB, hC, hD, -⟩ := hfails
  have hany : partlyFailingFiles.any (careful.fails partlyFailing) = true := by
    simp [partlyFailingFiles, hB]
  have hcount : partlyFailingFiles.countP (careful.fails partlyFailing) = 2 := by
    simp [partlyFailingFiles, hA, hB, hC, hD]
  have hexit := hisolated.exit_eq
  have hcounts := hisolated.counts
  rw [hany] at hexit
  rw [hcount] at hcounts
  refine ⟨s, hexit ▸ hrun, hcounts, ?_, hisolated.read_new (by simp [partlyFailingFiles]) hD hnew⟩
  obtain ⟨c, -, hread⟩ := hisolated.test (.ofString "/p/A.tsx") (by simp [partlyFailingFiles]) hA
  rw [hread, if_pos hkept, hmine]

/-! ### Tests behind links that meet -/

/-- Two folders of components that have their tests in one folder, behind links. -/
def sharedTests : Disk where
  root := [
    ("p", .folder [
      ("a", .folder [
        ("A.tsx", .file (bytesOf "export default()=><p/>")),
        ("__tests__", .link "../t")]),
      ("b", .folder [
        ("A.tsx", .file (bytesOf "export default()=><p>a</p>")),
        ("__tests__", .link "../t")]),
      ("t", .folder [])])]

/-- Two folders of components; for one of them there is a link in a test's place, to where the folder for
the other's tests will be. -/
def linkedTest : Disk where
  root := [
    ("p", .folder [
      ("b", .folder [("B.tsx", .file [])]),
      ("z", .folder [
        ("Z.tsx", .file []),
        ("__tests__", .folder [("Z.test.tsx", .link "../../b/__tests__")])])])]

/-- The same, but with a link in the place of the folder for tests, that leads through where the folder
for the other's tests will be. -/
def linkedFolder : Disk where
  root := [
    ("p", .folder [
      ("b", .folder [("B.tsx", .file []), ("t", .folder [("Z.test.tsx", .file [])])]),
      ("z", .folder [("Z.tsx", .file []), ("__tests__", .link "../b/__tests__/../t")])])]

/-- The paths of tests are distinct in a folder, but its run does not deal with each file as by itself. -/
def Confused (d : Disk) (arguments : List String) : Prop :=
  ∃ r files s exit, request? arguments = some r ∧ d.holdsFolder (r.target d) = true ∧
    Discovery.components d (r.target d) = .ok files ∧ r.showsTests = false ∧
    (files.map pathFor).Nodup ∧ run d arguments = .ok (s, exit) ∧ ¬ Isolated r d files s exit

/-- Where a path leads after a run. -/
def placeAfter (d : Disk) (arguments : List String) (p : Path) : Option (List String) :=
  (run d arguments).toOption.bind fun x => (x.1.disk.locate true p).toOption.map Found.names

theorem read_of_placeAfter {arguments : List String} {exit : Exit} {p : Path}
    (hrun : run d arguments = .ok (s, exit)) (hplace : placeAfter d arguments p = some names) :
    s.disk.read p = reading (s.disk.bare? names) := by
  rw [placeAfter, hrun] at hplace
  change ((s.disk.locate true p).toOption.map Found.names) = some names at hplace
  obtain ⟨found, hlocate, rfl⟩ := exists_of_toOption_map hplace
  rw [read_of_locate hlocate]

/-- Both tests go to one place, so one of them is lost. -/
theorem confused_sharedTests : Confused sharedTests ["/p", "--force"] := by
  have hfound : Discovery.components sharedTests (forced.target sharedTests) =
      .ok [.ofString "/p/a/A.tsx", .ofString "/p/b/A.tsx"] := eq_ok_of_toOption (by decide +kernel)
  have hexit : (run sharedTests ["/p", "--force"]).toOption.map (·.2) = some (.code 0) := by
    decide +kernel
  obtain ⟨s, hrun⟩ := exists_run hexit
  refine ⟨forced, _, s, .code 0, by decide +kernel, by decide +kernel, hfound, rfl,
    by decide +kernel, hrun, fun hisolated => ?_⟩
  have hplaceA : placeAfter sharedTests ["/p", "--force"] (pathFor (.ofString "/p/a/A.tsx")) =
      some ["p", "t", "A.test.tsx"] := by decide +kernel
  have hplaceB : placeAfter sharedTests ["/p", "--force"] (pathFor (.ofString "/p/b/A.tsx")) =
      some ["p", "t", "A.test.tsx"] := by decide +kernel
  obtain ⟨own, hown, hreadA⟩ := hisolated.read_new (f := .ofString "/p/a/A.tsx") (by simp)
    (by decide +kernel) (by decide +kernel)
  obtain ⟨other, hother, hreadB⟩ := hisolated.read_new (f := .ofString "/p/b/A.tsx") (by simp)
    (by decide +kernel) (by decide +kernel)
  have hmore : ((Report.ofFile sharedTests (Path.ofString "/p/a/A.tsx").toString).outcome.toOption.bind
      fun own => (Report.ofFile sharedTests (Path.ofString "/p/b/A.tsx").toString).outcome.toOption.map
        (hasMoreTests own)) = some true := by decide +kernel
  rw [hown, hother] at hmore
  have hstem : (Path.ofString "/p/b/A.tsx").stem = (Path.ofString "/p/a/A.tsx").stem := by
    decide +kernel
  have hlonger := length_textFor_lt hstem (Option.some.inj hmore)
  rw [read_of_placeAfter hrun hplaceA] at hreadA
  rw [read_of_placeAfter hrun hplaceB] at hreadB
  rw [Except.ok.inj (hreadA.symm.trans hreadB)] at hlonger
  exact lt_irrefl _ hlonger

/-- In the place of the second test stands a folder in the end, which was made for the first. -/
theorem confused_linkedTest : Confused linkedTest ["/p"] := by
  have hfound : Discovery.components linkedTest (careful.target linkedTest) =
      .ok [.ofString "/p/b/B.tsx", .ofString "/p/z/Z.tsx"] := eq_ok_of_toOption (by decide +kernel)
  have hexit : (run linkedTest ["/p"]).toOption.map (·.2) = some (.code 0) := by decide +kernel
  obtain ⟨s, hrun⟩ := exists_run hexit
  refine ⟨careful, _, s, .code 0, by decide +kernel, by decide +kernel, hfound, rfl,
    by decide +kernel, hrun, fun hisolated => ?_⟩
  obtain ⟨c, -, hread⟩ := hisolated.read_new (f := .ofString "/p/z/Z.tsx") (by simp)
    (by decide +kernel) (by decide +kernel)
  have hfolder : (run linkedTest ["/p"]).toOption.map (fun x =>
      (x.1.disk.read (pathFor (.ofString "/p/z/Z.tsx"))).isOk) = some false := by decide +kernel
  rw [hrun] at hfolder
  change some (s.disk.read _).isOk = some false at hfolder
  rw [hread] at hfolder
  cases hfolder

/-- By itself the second file fails, but not in the run: by then there is a way to a test. -/
theorem confused_linkedFolder : Confused linkedFolder ["/p"] := by
  have hfound : Discovery.components linkedFolder (careful.target linkedFolder) =
      .ok [.ofString "/p/b/B.tsx", .ofString "/p/z/Z.tsx"] := eq_ok_of_toOption (by decide +kernel)
  have hexit : (run linkedFolder ["/p"]).toOption.map (·.2) = some (.code 0) := by decide +kernel
  obtain ⟨s, hrun⟩ := exists_run hexit
  refine ⟨careful, _, s, .code 0, by decide +kernel, by decide +kernel, hfound, rfl,
    by decide +kernel, hrun, fun hisolated => ?_⟩
  have hfails : careful.fails linkedFolder (.ofString "/p/z/Z.tsx") = true := by decide +kernel
  have hexit := hisolated.exit_eq
  simp [hfails] at hexit

/-- So distinct paths of tests are not enough. -/
theorem confused_behind_links : Confused sharedTests ["/p", "--force"] ∧ Confused linkedTest ["/p"] ∧
    Confused linkedFolder ["/p"] :=
  ⟨confused_sharedTests, confused_linkedTest, confused_linkedFolder⟩

end SuiteDraft.CommandLine.Generate
