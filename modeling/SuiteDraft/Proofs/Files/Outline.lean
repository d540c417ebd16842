import SuiteDraft.Proofs.Files.Ways

/-!
# A disk without the contents of its files

Where paths lead, and whether there is a file or a folder, does not depend on what stands in the files of
a disk. So all that is asked of a disk without a file being read may as well be asked of its outline.
-/

namespace SuiteDraft

namespace Entry

mutual

/-- An entry without the contents of the files in it. -/
def hollow : Entry → Entry
  | file _ => file []
  | link target => link target
  | folder es => folder (hollowIn es)

def hollowIn : List (String × Entry) → List (String × Entry)
  | [] => []
  | (name, e) :: rest => (name, hollow e) :: hollowIn rest

end

theorem hollowIn_eq_map (es : List (String × Entry)) :
    hollowIn es = es.map fun x => (x.1, x.2.hollow) := by
  induction es with
  | nil => rfl
  | cons x es ih => rw [hollowIn, ih, List.map_cons]

theorem get?_hollowIn (es : Folder) (name : String) :
    Keyed.get? (hollowIn es) name = (Keyed.get? es name).map hollow := by
  induction es with
  | nil => rfl
  | cons x es ih =>
    obtain ⟨other, e⟩ := x
    rw [hollowIn]
    by_cases hname : name = other
    · subst hname
      rw [Keyed.get?_cons_self, Keyed.get?_cons_self, Option.map_some]
    · rw [Keyed.get?_cons_of_ne hname, Keyed.get?_cons_of_ne hname, ih]

theorem at?_hollow (e : Entry) (names : List String) : e.hollow.at? names = (e.at? names).map hollow := by
  induction names generalizing e with
  | nil => rfl
  | cons name names ih =>
    have hentries : e.hollow.entries = hollowIn e.entries := by cases e <;> rfl
    rw [at?_cons, at?_cons, hentries, get?_hollowIn]
    cases Keyed.get? e.entries name with
    | none => rfl
    | some child => exact ih child

theorem bare_hollow (e : Entry) : e.hollow.bare = e.bare.hollow := by cases e <;> rfl

theorem isFolder_hollow (e : Entry) : e.hollow.isFolder = e.isFolder := by cases e <;> rfl

end Entry

def Found.hollow : Found → Found
  | present names e => present names e.hollow
  | absent names => absent names

namespace Disk

variable (d : Disk)

def hollow : Disk := { d with root := Entry.hollowIn d.root }

theorem entry?_hollow (names : List String) : d.hollow.entry? names = (d.entry? names).map Entry.hollow :=
  Entry.at?_hollow (.folder d.root) names

theorem bare?_hollow (names : List String) : d.hollow.bare? names = (d.bare? names).map Entry.hollow := by
  rw [bare?, bare?, entry?_hollow, Option.map_map, Option.map_map]
  exact Option.map_congr fun e _ => e.bare_hollow

theorem locateWithin_hollow (follow : Bool) (n : Nat) (done parts : List String) :
    d.hollow.locateWithin follow n done parts = (d.locateWithin follow n done parts).map Found.hollow := by
  induction n, done, parts using wayInduction with
  | nil n done =>
    rw [locateWithin_nil, locateWithin_nil, entry?_hollow]
    cases d.entry? done <;> rfl
  | cons n done name rest ih ihn =>
    rw [locateWithin_cons, locateWithin_cons, bare?_hollow]
    split
    · exact ih _
    · cases d.bare? (done ++ [name]) with
      | none => cases rest <;> rfl
      | some e =>
        cases e with
        | file bytes => cases rest <;> rfl
        | folder es => exact ih _
        | link target =>
          rw [Option.map_some, Entry.hollow]
          dsimp only
          split
          · rfl
          · cases n with
            | zero => rfl
            | succ m => exact ihn m (Nat.lt_succ_self m) _ _

theorem locate_hollow (follow : Bool) (p : Path) :
    d.hollow.locate follow p = (d.locate follow p).map Found.hollow :=
  d.locateWithin_hollow follow maxLinks (d.origin p) p.parts

theorem follow_hollow (p : Path) : d.hollow.follow p = (d.follow p).map Entry.hollow := by
  rw [follow, follow, locate_hollow]
  rcases d.locate true p with fault | ⟨names, e⟩ | names <;> rfl

theorem holds_hollow (p : Path) : d.hollow.holds p = d.holds p := by
  rw [holds, holds, follow_hollow]
  cases d.follow p <;> rfl

theorem holdsFolder_hollow (p : Path) : d.hollow.holdsFolder p = d.holdsFolder p := by
  rw [holdsFolder, holdsFolder, follow_hollow]
  cases d.follow p with
  | error fault => rfl
  | ok e => exact e.isFolder_hollow

theorem resolve_hollow (p : Path) : d.hollow.resolve p = d.resolve p := by
  have hlink : ∀ names target, d.hollow.bare? names = some (.link target) ↔
      d.bare? names = some (.link target) := by
    intro names target
    rw [bare?_hollow]
    rcases d.bare? names with _ | _ | _ | _ <;> simp [Entry.hollow]
  have horigin : d.hollow.origin p = d.origin p := rfl
  rw [resolve, resolve, realWithin_congr hlink, horigin, locate_hollow]
  rcases d.locate true _ with fault | found
  · cases fault <;> rfl
  · rfl

theorem read_hollow (p : Path) : d.hollow.read p = (d.read p).map fun _ => [] := by
  rw [read, read, follow_hollow]
  rcases d.follow p with fault | _ | _ | _ <;> rfl

variable {d}

/-- The same tree stands on both disks, with files of whatever contents. -/
def SameOutline (d d' : Disk) : Prop := d'.hollow = d.hollow

namespace SameOutline

variable {d' : Disk} (h : d.SameOutline d')

include h

theorem holds_eq (p : Path) : d'.holds p = d.holds p := by
  rw [← holds_hollow, h, holds_hollow]

theorem holdsFolder_eq (p : Path) : d'.holdsFolder p = d.holdsFolder p := by
  rw [← holdsFolder_hollow, h, holdsFolder_hollow]

theorem resolve_eq (p : Path) : d'.resolve p = d.resolve p := by
  rw [← resolve_hollow, h, resolve_hollow]

/-- A file that can be read on one disk can be read on the other, and else both give the same fault. -/
theorem read_eq (p : Path) : (d'.read p).map (fun _ => ()) = (d.read p).map fun _ => () := by
  have hread : ∀ d : Disk, (d.hollow.read p).map (fun _ => ()) = (d.read p).map fun _ => () := by
    intro d
    rw [read_hollow]
    cases d.read p <;> rfl
  rw [← hread d', h, hread d]

theorem entry?_eq (names : List String) :
    (d'.entry? names).map Entry.hollow = (d.entry? names).map Entry.hollow := by
  rw [← entry?_hollow, h, entry?_hollow]

/-- A folder stands at the end of the same names, with entries of the same outline. -/
theorem entries {names : List String} {es' : Folder} (he : d'.entry? names = some (.folder es')) :
    ∃ es, d.entry? names = some (.folder es) ∧ Entry.hollowIn es' = Entry.hollowIn es := by
  have hboth := h.entry?_eq names
  rw [he, Option.map_some, Entry.hollow] at hboth
  obtain ⟨e, he, hsame⟩ := Option.map_eq_some_iff.mp hboth.symm
  cases e with
  | file bytes => cases hsame
  | link target => cases hsame
  | folder es => exact ⟨es, he, (Entry.folder.inj hsame).symm⟩

theorem sound (hd : d.Sound) : d'.Sound := by
  have hnames : ∀ es, Keyed.names (Entry.hollowIn es) = Keyed.names es := by
    intro es
    rw [Entry.hollowIn_eq_map, Keyed.names, Keyed.names, List.map_map]
    rfl
  have hcurrent : d'.hollow.current = d.hollow.current := congrArg Disk.current h
  refine ⟨fun he => ?_, fun he => ?_, fun name hname => hd.current name (hcurrent ▸ hname)⟩
  all_goals
    obtain ⟨es, hes, hsame⟩ := h.entries he
    rw [← hnames, hsame, hnames]
  · exact hd.isName hes
  · exact hd.nodup hes

end SameOutline

end Disk

end SuiteDraft
