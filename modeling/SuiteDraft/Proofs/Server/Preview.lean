import SuiteDraft.Proofs.CommandLine.Deliveries
import SuiteDraft.Proofs.Discovery.Unseen
import SuiteDraft.Proofs.Suite.Spot
import SuiteDraft.Server.Routes

/-!
# Previews

The server answers with the test that a run of the command for the same path would write. The server goes
by the path without links, and the command by the one from the root in which double dots are taken out by
the text alone. So the two must lead to one file, and by names that tell the same about it.
-/

namespace SuiteDraft

/-! ### What a path tells about its file -/

/-- Two paths tell the same about a file: the name by which its component goes, and its dialect. -/
structure Path.Akin (p q : Path) : Prop where
  stem : p.stem = q.stem
  dialect : Grammar.Dialect.ofPath p.toString = Grammar.Dialect.ofPath q.toString

theorem Path.Named.akin {p q : Path} (hp : p.Named) (hq : q.Named) (hname : p.name = q.name) :
    p.Akin q where
  stem := by rw [Path.stem, Path.stem, hname]
  dialect := by
    rw [Grammar.Dialect.ofPath, Grammar.Dialect.ofPath, hp.ofString_toString, hq.ofString_toString,
      Path.suffix, Path.suffix, hname]

namespace Report

variable {d : Disk} {path other : String} {c : Component}

theorem outcome_ofTree_of_ok {tree : Tree} (h : (ofTree path tree).outcome = .ok c) :
    (ofTree other tree).outcome = .ok c := by
  rw [ofTree] at h ⊢
  cases hfault : tree.faultPosition? with
  | some p =>
    rw [hfault] at h
    cases h
  | none =>
    rw [hfault] at h
    exact h

/-- What comes of an analysis depends on the path for the dialect alone. -/
theorem outcome_ofFile_of_ok (hread : d.read (.ofString path) = d.read (.ofString other))
    (hdialect : Grammar.Dialect.ofPath path = Grammar.Dialect.ofPath other)
    (h : (ofFile d path).outcome = .ok c) : (ofFile d other).outcome = .ok c := by
  rw [ofFile] at h ⊢
  rw [← hread]
  cases hbytes : d.read (.ofString path) with
  | error fault =>
    rw [hbytes] at h
    cases h
  | ok bytes =>
    rw [hbytes] at h
    dsimp only at h ⊢
    rw [ofBytes, ofInput] at h ⊢
    rw [← hdialect]
    exact outcome_ofTree_of_ok h

end Report

/-! ### Paths that agree -/

namespace Disk

variable {d : Disk} {p : Path} {found : Found} {names : List String} {bytes : List UInt8}

/-- A path leads to the same place with and without its double dots, by names that tell the same. -/
def Agrees (d : Disk) (p : Path) : Prop :=
  ∃ real, d.resolve p = .ok real ∧ d.resolve (d.absolute p) = .ok real ∧ real.Akin (d.absolute p)

theorem Sound.origin (hd : d.Sound) (hcurrent : d.bare? d.current = some (.folder [])) (p : Path) :
    d.bare? (d.origin p) = some (.folder []) ∧ ".." ∉ d.origin p := by
  rw [Disk.origin]
  split
  · exact ⟨hcurrent, fun hdots => (hd.current _ hdots).2 rfl⟩
  · exact ⟨d.bare?_root, List.not_mem_nil⟩

theorem Sound.resolve_of_locate (hd : d.Sound) (hcurrent : d.bare? d.current = some (.folder []))
    (h : d.locate true p = .ok found) : d.resolve p = .ok ⟨.root, found.names⟩ :=
  (SameKinds.refl d).resolve_eq rfl (hd.origin hcurrent p).1 (hd.origin hcurrent p).2 h

/-- The path of something that stands on a disk looks like one. -/
theorem Sound.named_of_bare? (hd : d.Sound) (hsome : (d.bare? names).isSome) :
    (⟨.root, names⟩ : Path).Named :=
  ⟨(fun h => nomatch h), hd.isName_of_mem hsome⟩

theorem parts_absolute (d : Disk) (p : Path) :
    (d.absolute p).parts = withoutDots (d.origin p ++ p.parts) := by
  rw [absolute, Disk.origin, Path.join]
  split
  · rename_i hhere
    rw [if_pos hhere]
  · rename_i hhere
    rw [if_neg hhere]
    rfl

theorem ne_nil_of_locate {q : Path} (hq : q.anchor ≠ .here)
    (h : d.locate true q = .ok (.present names (.file bytes))) : q.parts ≠ [] := by
  intro hnil
  rw [locate, Disk.origin, if_neg hq, hnil, locateWithin_nil] at h
  cases h

/-- A path that leads to a file and ends in no link agrees if the two lead to the same. -/
theorem agrees_of_locate {text : String} (hd : d.Sound)
    (hcurrent : d.bare? d.current = some (.folder []))
    (hfile : d.locate true (.ofString text) = .ok (.present names (.file bytes)))
    (hsame : d.locate true (d.absolute (.ofString text)) = .ok (.present names (.file bytes)))
    (hlink : endsInLink (d.locate false (d.absolute (.ofString text))) = false) :
    d.Agrees (.ofString text) := by
  have hnamed := hd.named_absolute text
  refine ⟨⟨.root, names⟩, hd.resolve_of_locate hcurrent hfile, hd.resolve_of_locate hcurrent hsame, ?_⟩
  have hthere : d.entry? names = some (.file bytes) := entry?_of_locateWithin hsame
  have hreal : (⟨.root, names⟩ : Path).Named := hd.named_of_bare? (by rw [bare?, hthere]; rfl)
  apply hreal.akin hnamed
  obtain ⟨inside, name, hparts⟩ :
      ∃ inside name, (d.absolute (.ofString text)).parts = inside ++ [name] :=
    ⟨_, _, (List.dropLast_append_getLast (ne_nil_of_locate hnamed.anchored hsame)).symm⟩
  have hname : name ≠ ".." := by
    rintro rfl
    exact hnamed.noDots (by rw [hparts]; exact List.mem_append_right _ List.mem_cons_self)
  have horigin : d.origin (d.absolute (.ofString text)) = [] := if_neg hnamed.anchored
  rw [locate, horigin] at hsame
  obtain ⟨links, hlinks, hreaches⟩ := reaches_of_locateWithin hsame
  obtain ⟨middle, hmiddle⟩ := hreaches.last_name hnamed.anchored hparts hname hlinks hlink
  have hmiddle : names = middle ++ [name] := hmiddle
  rw [Path.name, Path.name, hparts, hmiddle, List.getLastD_concat, List.getLastD_concat]

/-- A path without double dots to a file agrees, whatever links it leads through, if it ends in none. -/
theorem agrees_of_noDots {text : String} (hd : d.Sound)
    (hcurrent : d.bare? d.current = some (.folder [])) (hdots : ".." ∉ (Path.ofString text).parts)
    (hread : (d.read (.ofString text)).isOk = true)
    (hlink : endsInLink (d.locate false (d.absolute (.ofString text))) = false) :
    d.Agrees (.ofString text) := by
  obtain ⟨names, bytes, -, hfile⟩ := exists_locate_of_read hread
  refine agrees_of_locate hd hcurrent hfile ?_ hlink
  obtain ⟨hfolder, hbefore⟩ := hd.origin hcurrent (.ofString text)
  have hparts : (d.absolute (.ofString text)).parts =
      d.origin (.ofString text) ++ (Path.ofString text).parts := by
    rw [parts_absolute, withoutDots_of_noDots]
    rw [List.mem_append, not_or]
    exact ⟨hbefore, hdots⟩
  have horigin : d.origin (d.absolute (.ofString text)) = [] := if_neg (hd.named_absolute text).anchored
  have hfolder' : d.bare? ([] ++ d.origin (.ofString text)) = some (.folder []) := hfolder
  rw [locate, horigin, hparts, locateWithin_append hfolder' hbefore]
  exact hfile

/-- Without links, a way takes double dots out as the text alone does. -/
theorem LinkFree.reaches_eq (h : d.LinkFree) {links : Nat} {done parts last : List String}
    (hreaches : d.Reaches links done parts last) :
    last = parts.foldl (fun done n => if n = ".." then done.dropLast else done ++ [n]) done := by
  induction hreaches with
  | nil done => rfl
  | up hreaches ih => rw [List.foldl_cons, if_pos rfl, ih]
  | step hname hlink hfolder hreaches ih => rw [List.foldl_cons, if_neg hname, ih]
  | link hname hlink hreaches ih => exact absurd (bare?_eq_link_iff.mp hlink) (h _ _)

/-- Where there are no links, every path to a file agrees. -/
theorem agrees_of_linkFree {text : String} (hd : d.Sound)
    (hcurrent : d.bare? d.current = some (.folder [])) (hfree : d.LinkFree)
    (hread : (d.read (.ofString text)).isOk = true) : d.Agrees (.ofString text) := by
  obtain ⟨names, bytes, -, hfile⟩ := exists_locate_of_read hread
  have hnamed := hd.named_absolute text
  have hplain := hfree.plain hnamed.anchored hnamed.noDots
  have hentry : d.entry? names = some (.file bytes) := entry?_of_locateWithin hfile
  obtain ⟨links, -, hreaches⟩ := reaches_of_locateWithin hfile
  have hparts : names = (d.absolute (.ofString text)).parts := by
    rw [parts_absolute, withoutDots, List.foldl_append, ← withoutDots,
      withoutDots_of_noDots (hd.origin hcurrent _).2]
    exact hfree.reaches_eq hreaches
  refine agrees_of_locate hd hcurrent hfile ?_ ?_
  · exact hplain.locate_eq_present_iff.mpr ⟨hparts, hparts ▸ hentry⟩
  · rw [hplain.locate_eq_present_iff.mpr ⟨rfl, hparts ▸ hentry⟩]
    rfl

end Disk

/-! ### What the server answers -/

namespace Server

open Disk Suite

variable {d : Disk} {path : String} {c : Component}

/-- The server finds the component that the command finds. -/
theorem componentAt_of_agrees (hd : d.Sound) (hcurrent : d.bare? d.current = some (.folder []))
    (hagrees : d.Agrees (.ofString path)) (hholds : d.holds (.ofString path) = true)
    (houtcome : (Report.ofFile d (d.absolute (.ofString path)).toString).outcome = .ok c) :
    ∃ real, componentAt d path = .ok (real, c) ∧ real.stem = (d.absolute (.ofString path)).stem := by
  obtain ⟨real, hreal, hreal', hakin⟩ := hagrees
  have hnamed := hd.named_absolute path
  refine ⟨real, ?_, hakin.stem⟩
  -- Both paths lead to what stands at the names of the path without links.
  obtain ⟨e, he⟩ := holds_iff.mp hholds
  obtain ⟨names, hfound⟩ := follow_eq_ok_iff.mp he
  have hread := Batch.isOk_read_of_outcome houtcome
  rw [hnamed.ofString_toString] at hread
  obtain ⟨names', bytes, hbytes, hfound'⟩ := exists_locate_of_read hread
  have hnames : real = ⟨.root, names⟩ :=
    Except.ok.inj (hreal.symm.trans (hd.resolve_of_locate hcurrent hfound))
  have hnames' : real = ⟨.root, names'⟩ :=
    Except.ok.inj (hreal'.symm.trans (hd.resolve_of_locate hcurrent hfound'))
  obtain rfl : names = names' := (Path.mk.inj (hnames.symm.trans hnames')).2
  subst hnames
  have hentry : d.entry? names = some e := entry?_of_locateWithin hfound
  have hentry' : d.entry? names = some (.file bytes) := entry?_of_locateWithin hfound'
  cases hentry.symm.trans hentry'
  have hbare : d.bare? names = some (.file bytes) := bare?_eq_file_iff.mpr hentry
  have hnamed' : (⟨.root, names⟩ : Path).Named := hd.named_of_bare? (by rw [hbare]; rfl)
  have hbytes' : d.read ⟨.root, names⟩ = .ok bytes :=
    read_of_bare? hnamed'.anchored hnamed'.noDots hbare
  have houtcome' : (Report.ofFile d (⟨.root, names⟩ : Path).toString).outcome = .ok c := by
    refine Report.outcome_ofFile_of_ok ?_ hakin.dialect.symm houtcome
    rw [hnamed.ofString_toString, hnamed'.ofString_toString, hbytes, hbytes']
  have hfile : d.holdsFolder (.ofString path) = false := by
    rw [holdsFolder, he]
    rfl
  rw [componentAt, hholds, Bool.not_true, if_neg Bool.false_ne_true, hfile,
    if_neg Bool.false_ne_true, hreal]
  dsimp only
  rw [houtcome']

end Server

/-! ### What the command writes -/

namespace CommandLine.Generate

open Disk Suite

variable {d : Disk} {r : Request} {s s' : State} {c : Component} {p : Path}

/-- What is shown on the output has a text in it. -/
def Shows (s : State) (text : String) : Prop := ∃ before after, s.screen.output = before ++ text ++ after

theorem Shows.say {text : String} (h : Shows s text) (line : String) : Shows (s.say line) text := by
  obtain ⟨before, after, houtput⟩ := h
  refine ⟨before, after ++ line ++ "\n", ?_⟩
  change s.screen.output ++ line ++ "\n" = _
  rw [houtput]
  simp only [String.append_assoc]

theorem shows_showFacts (hfacts : r.showsFacts = true) (s : State) (c : Component) :
    Shows (s.showFacts r c) c.toJson.pretty := by
  rw [State.showFacts, if_pos hfacts]
  exact ⟨s.screen.output, "\n", rfl⟩

/-- A run for a file that is analysed, and for which no test is kept, writes the test or fails to, and
shows the component if asked to. -/
theorem run_writes (hd : d.Sound) (hshows : r.showsTests = false)
    (houtcome : (Report.ofFile d (r.target d).toString).outcome = .ok c)
    (hnew : (d.holds (pathFor (r.target d)) && !r.replace) = false) :
    ∃ s exit, r.run d = .ok (s, exit) ∧
      (exit = .code 0 ∧ s.disk.read (pathFor (r.target d)) =
          .ok (bytesOf (textFor (r.target d) (some c))) ∨
        exit = .code 1 ∧ ∃ e, place d (r.target d) (some c) r.replace = .error e) ∧
      (r.showsFacts = true → Shows s c.toJson.pretty) := by
  have hnamed := hd.named_absolute r.path
  have hread := Batch.isOk_read_of_outcome houtcome
  rw [Request.target, hnamed.ofString_toString] at hread
  obtain ⟨s, hs, hrun⟩ := run_of_file hread houtcome
  rw [hrun, State.deliver, hshows, if_neg Bool.false_ne_true, disk_showFacts, hs]
  cases hplace : place d (r.target d) (some c) r.replace with
  | error e => exact ⟨_, _, rfl, .inr ⟨rfl, e, rfl⟩, fun hfacts => shows_showFacts hfacts s c⟩
  | ok disk? =>
    cases disk? with
    | none => exact absurd hplace (place_ne_none hnew)
    | some disk =>
      exact ⟨_, _, rfl, .inl ⟨rfl, read_of_place hnamed.anchored hplace⟩,
        fun hfacts => (shows_showFacts hfacts s c).say _⟩

/-- The server previews what the command writes: for a path that agrees, to a file that can be analysed
and has no test that is to be kept, the answer holds the text that a run puts into the test's place, unless
it fails to write there; and the server's component is the one that the run shows. -/
theorem preview_is_written (hd : d.Sound) (hcurrent : d.bare? d.current = some (.folder []))
    {arguments : List String} (hrequest : request? arguments = some r) (hshows : r.showsTests = false)
    (hagrees : d.Agrees (.ofString r.path)) (hholds : d.holds (.ofString r.path) = true)
    (houtcome : (Report.ofFile d (r.target d).toString).outcome = .ok c)
    (hnew : (d.holds (pathFor (r.target d)) && !r.replace) = false) :
    (∀ q : Server.Request, q.value? "path" = some r.path →
      (Server.Route.ofPath? q.path = some .test →
        Server.respond d q = ⟨200, .text (textFor (r.target d) (some c))⟩) ∧
      (Server.Route.ofPath? q.path = some .component →
        Server.respond d q = ⟨200, .json c.toJson⟩)) ∧
    ∃ s exit, run d arguments = .ok (s, exit) ∧
      (exit = .code 0 ∧ s.disk.read (pathFor (r.target d)) =
          .ok (bytesOf (textFor (r.target d) (some c))) ∨
        exit = .code 1 ∧ ∃ e, place d (r.target d) (some c) r.replace = .error e) ∧
      (r.showsFacts = true → Shows s c.toJson.pretty) := by
  obtain ⟨real, hcomponent, hstem⟩ := Server.componentAt_of_agrees hd hcurrent hagrees hholds houtcome
  refine ⟨fun q hpath => ⟨fun hroute => ?_, fun hroute => ?_⟩, ?_⟩
  · have htext : textFor real (some c) = textFor (r.target d) (some c) := by
      rw [textFor, textFor, hstem]
      rfl
    rw [Server.respond, hroute, hpath, ← htext]
    dsimp only
    rw [Server.testResponse, hcomponent]
  · rw [Server.respond, hroute, hpath]
    dsimp only
    rw [Server.componentResponse, hcomponent]
  · obtain ⟨s, exit, hrun, hwritten, hfacts⟩ := run_writes hd hshows houtcome hnew
    exact ⟨s, exit, (run_of_some hrequest).trans hrun, hwritten, hfacts⟩

/-- A file that is reached through a link to its folder. -/
def linkedFolderOf : Disk where
  root := [
    ("p", .folder [
      ("l", .link "q"),
      ("q", .folder [("A.tsx", .file (bytesOf "export default()=><p>a</p>"))])])]
  current := ["p"]

/-- The request for it. -/
def throughLink : Request := { path := "./l/A.tsx", showsFacts := true }

theorem preview_of_throughLink :
    ∃ c, (Report.ofFile linkedFolderOf (throughLink.target linkedFolderOf).toString).outcome = .ok c ∧
      Server.respond linkedFolderOf ⟨"/api/analysis/component/test", [("path", "./l/A.tsx")]⟩ =
        ⟨200, .text (textFor (.ofString "/p/l/A.tsx") (some c))⟩ ∧
      Server.respond linkedFolderOf ⟨"/api/analysis/component", [("path", "./l/A.tsx")]⟩ =
        ⟨200, .json c.toJson⟩ ∧
      ∃ s, run linkedFolderOf ["./l/A.tsx", "--json"] = .ok (s, .code 0) ∧
        s.disk.read (.ofString "/p/l/__tests__/A.test.tsx") =
          .ok (bytesOf (textFor (.ofString "/p/l/A.tsx") (some c))) ∧
        Shows s c.toJson.pretty := by
  have hd : linkedFolderOf.Sound := sound_of_places (by decide +kernel) (by decide +kernel)
  have hcurrent : linkedFolderOf.bare? linkedFolderOf.current = some (.folder []) := rfl
  have hrequest : request? ["./l/A.tsx", "--json"] = some throughLink := by decide +kernel
  have htarget : throughLink.target linkedFolderOf = .ofString "/p/l/A.tsx" := by decide +kernel
  have hplace : pathFor (.ofString "/p/l/A.tsx") = .ofString "/p/l/__tests__/A.test.tsx" := by
    decide +kernel
  have hagrees : linkedFolderOf.Agrees (.ofString throughLink.path) :=
    agrees_of_noDots hd hcurrent (by decide +kernel) (by decide +kernel) (by decide +kernel)
  obtain ⟨c, houtcome⟩ : ∃ c,
      (Report.ofFile linkedFolderOf (throughLink.target linkedFolderOf).toString).outcome = .ok c :=
    exists_of_isOk (by decide +kernel)
  have hexit : (run linkedFolderOf ["./l/A.tsx", "--json"]).toOption.map (·.2) = some (.code 0) := by
    decide +kernel
  obtain ⟨hanswers, s, exit, hrun, hwritten, hfacts⟩ := preview_is_written hd hcurrent hrequest rfl
    hagrees (by decide +kernel) houtcome (by decide +kernel)
  rw [hrun] at hexit
  obtain rfl : exit = .code 0 := Option.some.inj hexit
  rw [htarget, hplace] at hwritten
  rw [htarget] at hanswers
  refine ⟨c, houtcome, (hanswers _ (by decide +kernel)).1 (by decide +kernel),
    (hanswers _ (by decide +kernel)).2 (by decide +kernel), s, hrun, ?_, hfacts rfl⟩
  rcases hwritten with ⟨-, hread⟩ | ⟨hfailed, -⟩
  · exact hread
  · cases hfailed

/-! ### A link to a file -/

theorem bytesOf_append (s t : String) : bytesOf (s ++ t) = bytesOf s ++ bytesOf t := by
  rw [bytesOf, bytesOf, bytesOf, String.toList_append, List.flatMap_append]

theorem bytesOf_lines_cons (line next : String) (lines : List String) :
    bytesOf ("\n".intercalate (line :: next :: lines)) =
      bytesOf line ++ bytesOf "\n" ++ bytesOf ("\n".intercalate (next :: lines)) := by
  rw [bytesOf, String.toList_intercalate, List.map_cons, List.map_cons, List.intercalate_cons_cons,
    ← List.map_cons, ← String.toList_intercalate, List.flatMap_append, List.flatMap_append]
  rfl

/-- The lines before the one that imports the component. -/
def firstLines : List String := (Suite.importLines "").take 4

/-- What stands before a component's name for the first time in the text of its test file. -/
def lead : List UInt8 :=
  firstLines.flatMap (fun line => bytesOf line ++ bytesOf "\n") ++ bytesOf "import "

theorem bytesOf_textFor (p : Path) (c : Option Component) :
    ∃ more, bytesOf (textFor p c) = lead ++ (bytesOf p.stem ++ 32 :: more) := by
  have hfrom : bytesOf " from \"../" = 32 :: [102, 114, 111, 109, 32, 34, 46, 46, 47] := by
    decide +kernel
  rw [textFor, render, lines, importLines]
  simp only [List.cons_append, List.nil_append]
  rw [bytesOf_lines_cons, bytesOf_lines_cons, bytesOf_lines_cons, bytesOf_lines_cons,
    bytesOf_lines_cons, bytesOf_append, bytesOf_append, bytesOf_append, bytesOf_append, hfrom, lead,
    firstLines, importLines]
  simp only [List.take_succ_cons, List.take_zero, List.flatMap_cons, List.flatMap_nil,
    List.append_assoc, List.nil_append, List.cons_append]
  exact ⟨_, rfl⟩

/-- The text of a test file tells the name of its component, if there is no blank in it. -/
theorem stem_of_textFor {p q : Path} {c c' : Option Component} (hp : 32 ∉ bytesOf p.stem)
    (hq : 32 ∉ bytesOf q.stem) (h : bytesOf (textFor p c) = bytesOf (textFor q c')) :
    bytesOf p.stem = bytesOf q.stem := by
  obtain ⟨more, hmore⟩ := bytesOf_textFor p c
  obtain ⟨more', hmore'⟩ := bytesOf_textFor q c'
  rw [hmore, hmore'] at h
  have hnames := List.append_cancel_left h
  rcases List.append_eq_append_iff.mp hnames with ⟨rest, hrest, hcut⟩ | ⟨rest, hrest, hcut⟩
  · cases rest with
    | nil => rw [hrest, List.append_nil]
    | cons first rest =>
      obtain rfl : 32 = first := (List.cons.inj hcut).1
      rw [hrest] at hq
      exact absurd (List.mem_append_right _ List.mem_cons_self) hq
  · cases rest with
    | nil => rw [hrest, List.append_nil]
    | cons first rest =>
      obtain rfl : 32 = first := (List.cons.inj hcut).1
      rw [hrest] at hp
      exact absurd (List.mem_append_right _ List.mem_cons_self) hp

/-- A file and a link to it. -/
def linkedFile : Disk where
  root := [("p", .folder [("A.tsx", .file []), ("L.tsx", .link "A.tsx")])]
  current := ["p"]

/-- The request for the link. -/
def forLink : Request := { path := "L.tsx" }

theorem componentAt_linkedFile : ∃ c, Server.componentAt linkedFile "L.tsx" =
    .ok (.ofString "/p/A.tsx", c) := by
  have hreal : linkedFile.resolve (.ofString "L.tsx") = .ok (.ofString "/p/A.tsx") :=
    eq_ok_of_toOption (by decide +kernel)
  obtain ⟨c, houtcome⟩ : ∃ c,
      (Report.ofFile linkedFile (Path.ofString "/p/A.tsx").toString).outcome = .ok c :=
    exists_of_isOk (by decide +kernel)
  have hholds : linkedFile.holds (.ofString "L.tsx") = true := by decide +kernel
  have hfile : linkedFile.holdsFolder (.ofString "L.tsx") = false := by decide +kernel
  refine ⟨c, ?_⟩
  rw [Server.componentAt, hholds, Bool.not_true, if_neg Bool.false_ne_true, hfile,
    if_neg Bool.false_ne_true, hreal]
  dsimp only
  rw [houtcome]

/-- Of a link to a file, what the server previews is not what the command writes. -/
theorem preview_of_linkedFile :
    request? ["L.tsx"] = some forLink ∧ linkedFile.holds (.ofString "L.tsx") = true ∧
      linkedFile.holds (pathFor (forLink.target linkedFile)) = false ∧
      ∃ text s, Server.respond linkedFile ⟨"/api/analysis/component/test", [("path", "L.tsx")]⟩ =
          ⟨200, .text text⟩ ∧
        run linkedFile ["L.tsx"] = .ok (s, .code 0) ∧
        s.disk.read (pathFor (forLink.target linkedFile)) ≠ .ok (bytesOf text) := by
  have hd : linkedFile.Sound := sound_of_places (by decide +kernel) (by decide +kernel)
  have hrequest : request? ["L.tsx"] = some forLink := by decide +kernel
  have hnew : linkedFile.holds (pathFor (forLink.target linkedFile)) = false := by decide +kernel
  have hexit : (run linkedFile ["L.tsx"]).toOption.map (·.2) = some (.code 0) := by decide +kernel
  obtain ⟨c, hcomponent⟩ := componentAt_linkedFile
  obtain ⟨c', houtcome⟩ : ∃ c,
      (Report.ofFile linkedFile (forLink.target linkedFile).toString).outcome = .ok c :=
    exists_of_isOk (by decide +kernel)
  obtain ⟨s, exit, hrun, hwritten, -⟩ := run_writes hd rfl houtcome (by rw [hnew]; rfl)
  rw [← run_of_some hrequest] at hrun
  rw [hrun] at hexit
  obtain rfl : exit = .code 0 := Option.some.inj hexit
  refine ⟨hrequest, by decide +kernel, hnew, textFor (.ofString "/p/A.tsx") (some c), s, ?_, hrun, ?_⟩
  · have hroute : Server.Route.ofPath? "/api/analysis/component/test" = some .test := by decide +kernel
    have hpath : (⟨"/api/analysis/component/test", [("path", "L.tsx")]⟩ : Server.Request).value? "path" =
        some "L.tsx" := by decide +kernel
    rw [Server.respond, hroute, hpath]
    dsimp only
    rw [Server.testResponse, hcomponent]
  · rcases hwritten with ⟨-, hread⟩ | ⟨hfailed, -⟩
    · rw [hread]
      intro heq
      have hstem := stem_of_textFor (by decide +kernel) (by decide +kernel) (Except.ok.inj heq)
      revert hstem
      decide +kernel
    · cases hfailed

end CommandLine.Generate

end SuiteDraft
