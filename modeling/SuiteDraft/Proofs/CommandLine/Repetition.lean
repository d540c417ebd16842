import SuiteDraft.Proofs.CommandLine.Deliveries
import SuiteDraft.Proofs.Discovery.Unseen

/-!
# Running again

What a run in a folder leaves behind lies in folders for tests, which no scan goes into. So a second run
finds the same files and comes to the same components, and where it is not to replace anything, each of
their tests is there already or cannot be.
-/

namespace SuiteDraft.CommandLine.Generate

open Disk Suite Batch

variable {d d' : Disk} {r : Request} {p : Path} {c : Component} {root rest : List String}

/-! ### Placements outside of which nothing changes -/

theorem sameOutside_withFolder (h : Housed d p) (hinside : p.parts.dropLast = root ++ rest) :
    d.SameOutside (withFolder d p) root := by
  rw [withFolder]
  split
  · exact .refl d root
  · rename_i hnone
    rw [testsFolder, put_eq_changeAt, hinside, ← List.append_nil (root ++ rest)]
    refine .changeAt rest [] fun found hfound => ?_
    obtain ⟨es, hes⟩ := bare?_eq_folder_iff.mp h.folder
    rw [hinside, hfound] at hes
    cases hes
    have hnew : Keyed.get? es "__tests__" = none := by
      rw [Option.not_isSome_iff_eq_none, bare?_eq_none_iff, testsFolder, hinside, entry?_append,
        hfound, Option.bind_some, Entry.at?_folder] at hnone
      cases hchild : Keyed.get? es "__tests__" with
      | none => rfl
      | some child =>
        rw [hchild] at hnone
        cases hnone
    rw [Entry.changeAt, Entry.withoutTests, Entry.withoutTests, Entry.withoutTestsIn_put_new hnew]

/-- Placing a test changes nothing but folders for tests. -/
theorem sameOutside_placed (h : Housed d p) (hinside : p.parts.dropLast = root ++ rest) (c : Component)
    (replace : Bool) : d.SameOutside (placed d p c replace) root := by
  rcases h.placed_cases c replace with ⟨hplaced, -⟩ | ⟨hplaced, hroom, -⟩
  · rw [hplaced]
    exact .refl d root
  · rw [hplaced, withTest, parts_pathFor, put_eq_changeAt, testsFolder, hinside]
    exact (sameOutside_withFolder h hinside).trans
      (.changeAt rest ["__tests__"] fun found _ => Entry.withoutTests_changeAt_tests found)

/-! ### Deliveries -/

theorem deliver_spec (h : Housed d p) (hinside : p.parts.dropLast = root ++ rest) :
    SameKinds d (r.deliver d (p, c)) ∧ d.SameOutside (r.deliver d (p, c)) root ∧
      (r.showsTests = false → Settled (r.deliver d (p, c)) p) := by
  rw [Request.deliver]
  split
  · rename_i hshows
    exact ⟨.refl d, .refl d root, fun hno => absurd hshows (by rw [hno]; exact Bool.false_ne_true)⟩
  · exact ⟨h.sameKinds_placed c r.replace, sameOutside_placed h hinside c r.replace,
      fun _ => h.settled_placed c r.replace⟩

/-- Deliveries below a folder change nothing there but folders for tests; and where tests are not only
shown, none of them has anything left to do. -/
theorem deliveries_spec (deliveries : List (Path × Component))
    (hbelow : ∀ x ∈ deliveries, Housed d x.1 ∧ ∃ rest, x.1.parts.dropLast = root ++ rest) :
    SameKinds d (deliveries.foldl r.deliver d) ∧
      d.SameOutside (deliveries.foldl r.deliver d) root ∧
      (r.showsTests = false → ∀ x ∈ deliveries, Settled (deliveries.foldl r.deliver d) x.1) := by
  induction deliveries generalizing d with
  | nil => exact ⟨.refl d, .refl d root, fun _ x hx => absurd hx List.not_mem_nil⟩
  | cons first others ih =>
    obtain ⟨hhoused, rest, hinside⟩ := hbelow first List.mem_cons_self
    obtain ⟨hkinds, hsame, hsettled⟩ := deliver_spec (r := r) (c := first.2) hhoused hinside
    obtain ⟨hkinds', hsame', hsettled'⟩ := ih fun x hx =>
      ⟨(hbelow x (List.mem_cons_of_mem _ hx)).1.mono hkinds,
        (hbelow x (List.mem_cons_of_mem _ hx)).2⟩
    refine ⟨hkinds.trans hkinds', hsame.trans hsame', fun hshows x hx => ?_⟩
    rcases List.mem_cons.mp hx with rfl | hx
    · exact (hsettled hshows).mono hkinds'
    · exact hsettled' hshows x hx

/-! ### Runs in a folder without links -/

theorem Request.target_congr (h : d'.current = d.current) (r : Request) : r.target d' = r.target d := by
  rw [Request.target, Request.target, absolute, absolute, h]

/-- What is found below the folder that a request is about. -/
theorem lies_of_mem_files (hd : d.Sound) (hfree : d.LinkFree) {files : List Path}
    (hfiles : Discovery.components d (r.target d) = .ok files) {f : Path} (hf : f ∈ files) :
    Discovery.Lies d (r.target d).parts f := by
  have htarget : (r.target d).Named := hd.named_absolute r.path
  obtain ⟨root, hroot, hlies⟩ := Discovery.lies_of_mem_components hd hfiles hf
  rw [hfree.resolve_eq htarget.anchored htarget.noDots] at hroot
  cases hroot
  exact hlies

theorem below_of_mem_deliveries (hd : d.Sound) (hfree : d.LinkFree)
    (hfolder : d.holdsFolder (r.target d) = true) (x : Path × Component) (hx : x ∈ r.deliveries d) :
    Housed d x.1 ∧ ∃ rest, x.1.parts.dropLast = (r.target d).parts ++ rest := by
  have hsubject := ((Request.mem_deliveries_iff hd).mp hx).1
  cases hfiles : Discovery.components d (r.target d) with
  | error e =>
    rw [Request.subjects, if_pos hfolder, hfiles] at hsubject
    exact absurd hsubject List.not_mem_nil
  | ok files =>
    rw [Request.subjects_of_files hfolder hfiles] at hsubject
    have hlies := lies_of_mem_files hd hfree hfiles hsubject
    refine ⟨hlies.housed hd (hfree.append _), ?_⟩
    obtain ⟨rest, heq, hrest, -⟩ := hlies
    refine ⟨rest.dropLast, ?_⟩
    rw [heq]
    exact List.dropLast_append_of_ne_nil hrest

/-- The same files have the same analyses on a disk that is the same outside of folders for tests. -/
theorem batchOf_congr (h : Linkless d d') (hsame : d.SameOutside d' root) {files : List Path}
    (hlies : ∀ f ∈ files, Discovery.Lies d root f) : batchOf d' files = batchOf d files := by
  rw [batchOf, batchOf, items_gather, items_gather]
  refine List.map_congr_left fun path hpath => ?_
  have hmem := List.mem_eraseDups.mp ((perm_inOrder id _).mem_iff.mp hpath)
  obtain ⟨f, hf, rfl⟩ := List.mem_map.mp hmem
  have hnamed := (hlies f hf).named h.sound
  obtain ⟨rest, heq, -, htests, hsome⟩ := hlies f hf
  have hread : d'.read f = d.read f := by
    refine read_congr h.linkFree h.linkFree' hnamed.anchored hnamed.noDots ?_ hsome
    rw [heq]
    exact hsame.bare? (List.prefix_refl root) htests
  rw [analyze, analyze, Report.ofFile, Report.ofFile, hnamed.ofString_toString, hread]

section

variable (hd : d.Sound) (hfree : d.LinkFree) (hfolder : d.holdsFolder (r.target d) = true)

include hd hfree hfolder

theorem after_spec : SameKinds d (r.after d) ∧ d.SameOutside (r.after d) (r.target d).parts ∧
    (r.showsTests = false → ∀ x ∈ r.deliveries d, Settled (r.after d) x.1) := by
  rw [after_eq_foldl]
  exact deliveries_spec (r.deliveries d) (below_of_mem_deliveries hd hfree hfolder)

theorem linkless_after : Linkless d (r.after d) :=
  ⟨hd, hfree, (after_spec hd hfree hfolder).1.linkFreeBelow hfree⟩

/-- What is found in a folder is still found there after a run in it, and nothing else. -/
theorem components_after :
    Discovery.components (r.after d) (r.target d) = Discovery.components d (r.target d) := by
  have htarget : (r.target d).Named := hd.named_absolute r.path
  exact components_congr (linkless_after hd hfree hfolder) htarget.anchored htarget.noDots
    (after_spec hd hfree hfolder).2.1

/-- A second request for the same folder has the same deliveries. -/
theorem deliveries_after {r' : Request} (hsame : (r'.target d).parts = (r.target d).parts) :
    r'.deliveries (r.after d) = r.deliveries d := by
  have hlinkless := linkless_after hd hfree hfolder
  obtain ⟨hkinds, houtside, -⟩ := after_spec hd hfree hfolder
  have htarget : (r.target d).Named := hd.named_absolute r.path
  have htarget' : (r'.target d).Named := hd.named_absolute r'.path
  have hfolder' : (r.after d).holdsFolder (r'.target d) = true := by
    rw [(hlinkless.linkFree'.plain htarget'.anchored htarget'.noDots).holdsFolder_iff, hsame]
    exact hkinds.folder _
      ((hfree.plain htarget.anchored htarget.noDots).holdsFolder_iff.mp hfolder)
  have hfiles : Discovery.components (r.after d) (r'.target d) =
      Discovery.components d (r.target d) := by
    rw [← components_after hd hfree hfolder, Discovery.components, Discovery.components,
      hlinkless.linkFree'.resolve_eq htarget'.anchored htarget'.noDots,
      hlinkless.linkFree'.resolve_eq htarget.anchored htarget.noDots, hsame]
  rw [Request.deliveries, Request.deliveries, Request.target_congr houtside.current, if_pos hfolder',
    if_pos hfolder, hfiles]
  cases hfound : Discovery.components d (r.target d) with
  | error e => rfl
  | ok files =>
    dsimp only
    rw [batchOf_congr hlinkless houtside fun f hf => lies_of_mem_files hd hfree hfound hf]

/-- After a run in a folder, a second one there that is not to replace anything changes nothing. -/
theorem after_after {r' : Request} (hshows : r.showsTests = false) (hreplace : r'.replace = false)
    (hsame : (r'.target d).parts = (r.target d).parts) : r'.after (r.after d) = r.after d := by
  obtain ⟨hkinds, -, hsettled⟩ := after_spec hd hfree hfolder
  rw [after_eq_foldl r', deliveries_after hd hfree hfolder hsame]
  refine List.foldlRecOn (motive := fun d' => d' = r.after d) _ _ rfl fun d' hd' x hx => ?_
  rw [hd', Request.deliver, hreplace]
  split
  · rfl
  · exact ((below_of_mem_deliveries hd hfree hfolder x hx).1.mono hkinds).placed_of_settled
      (hsettled hshows x hx) x.2

end

/-- On a disk without links, a scan of a folder finds the same after a run in it as before. And if that
run did not only show its tests, a second run in the folder that is not to replace anything leaves the
disk as it is. -/
theorem components_after_and_after (hd : d.Sound) (hfree : d.LinkFree) {arguments : List String}
    (hrequest : request? arguments = some r) (hfolder : d.holdsFolder (r.target d) = true) :
    Discovery.components (after d arguments) (r.target d) = Discovery.components d (r.target d) ∧
      (r.showsTests = false → ∀ again, (∀ r', request? again = some r' →
          r'.replace = false ∧ d.resolve (r'.target d) = d.resolve (r.target d)) →
        after (after d arguments) again = after d arguments) := by
  rw [after_of_some hrequest]
  refine ⟨components_after hd hfree hfolder, fun hshows again hagain => ?_⟩
  cases hrequest' : request? again with
  | none => exact after_of_none hrequest'
  | some r' =>
    obtain ⟨hreplace, hresolve⟩ := hagain r' hrequest'
    have htarget : (r.target d).Named := hd.named_absolute r.path
    have htarget' : (r'.target d).Named := hd.named_absolute r'.path
    rw [hfree.resolve_eq htarget.anchored htarget.noDots,
      hfree.resolve_eq htarget'.anchored htarget'.noDots] at hresolve
    rw [after_of_some hrequest']
    exact after_after hd hfree hfolder hshows hreplace (Path.mk.inj (Except.ok.inj hresolve)).2

/-- A folder with an ignore file, a component, a file that cannot be parsed and one whose tests have no
room. -/
def mixedFolder : Disk where
  root := [
    ("p", .folder [
      (".gitignore", .file (bytesOf "skip.tsx")),
      ("A.tsx", .file (bytesOf "export default function A(){return <p>a</p>}")),
      ("B.tsx", .file (bytesOf "(")),
      ("q", .folder [
        ("C.jsx", .file (bytesOf "export default function C(){return <p>c</p>}")),
        ("__tests__", .file [])]),
      ("skip.tsx", .file [])])]

theorem components_after_mixedFolder :
    (Discovery.components mixedFolder (.ofString "/p")).toOption = some
        [.ofString "/p/A.tsx", .ofString "/p/B.tsx", .ofString "/p/q/C.jsx"] ∧
      Discovery.components (after mixedFolder ["/p", "--force"]) (.ofString "/p") =
        Discovery.components mixedFolder (.ofString "/p") ∧
      after (after mixedFolder ["/p", "--force"]) ["-v", "/p/"] =
        after mixedFolder ["/p", "--force"] := by
  have hd : mixedFolder.Sound := sound_of_places (by decide +kernel) (by decide +kernel)
  have hfree : mixedFolder.LinkFree := linkFree_of_places (by decide +kernel)
  have hrequest : request? ["/p", "--force"] = some { path := "/p", replace := true } := by
    decide +kernel
  have hagain : request? ["-v", "/p/"] = some { path := "/p/", verbose := true } := by
    decide +kernel
  have htarget : ({ path := "/p", replace := true } : Request).target mixedFolder = .ofString "/p" := by
    decide +kernel
  obtain ⟨hcomponents, hrepeated⟩ := components_after_and_after hd hfree hrequest (by decide +kernel)
  rw [htarget] at hcomponents
  refine ⟨by decide +kernel, hcomponents, hrepeated rfl ["-v", "/p/"] fun r' hr' => ?_⟩
  cases hagain.symm.trans hr'
  exact ⟨rfl, by decide +kernel⟩

end SuiteDraft.CommandLine.Generate
