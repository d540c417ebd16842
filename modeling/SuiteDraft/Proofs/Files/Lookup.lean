import SuiteDraft.Proofs.Files.Sound
import SuiteDraft.Proofs.Tree.Walk

/-!
# Where paths lead

A way along names is a way over what stands there, folder by folder. A disk that has more than another
leads to everything that the other leads to; and where no links stand, a path leads to what its own
names lead to.
-/

namespace SuiteDraft

def Found.names : Found → List String
  | present names _ => names
  | absent names => names

def Found.entry? : Found → Option Entry
  | present _ e => some e
  | absent _ => none

namespace Disk

variable {d d' : Disk} {follow : Bool} {n : Nat} {done parts names rest : List String} {name : String}
  {found : Found} {e : Entry}

/-- Where the way goes on at a link in the folder at `done`. -/
def linkStart (target : String) (done : List String) : List String :=
  if (Path.ofString target).anchor = .here then done else []

theorem locateWithin_nil (d : Disk) (follow : Bool) (n : Nat) (done : List String) :
    d.locateWithin follow n done [] =
      .ok (((d.entry? done).map (Found.present done)).getD (.absent done)) := by
  cases n <;> rfl

/-- One step of the way: it depends on what stands under the next name, but not on what is in there. -/
theorem locateWithin_cons (d : Disk) (follow : Bool) (n : Nat) (done : List String) (name : String)
    (rest : List String) :
    d.locateWithin follow n done (name :: rest) =
      if name = ".." then d.locateWithin follow n done.dropLast rest
      else
        match d.bare? (done ++ [name]) with
        | none => if rest.isEmpty then .ok (.absent (done ++ [name])) else .error .missing
        | some (.file bytes) =>
          if rest.isEmpty then .ok (.present (done ++ [name]) (.file bytes))
          else .error .notDirectory
        | some (.folder _) => d.locateWithin follow n (done ++ [name]) rest
        | some (.link target) =>
          if rest.isEmpty && !follow then .ok (.present (done ++ [name]) (.link target))
          else
            match n with
            | 0 => .error .tooManyLinks
            | m + 1 =>
              d.locateWithin follow m (linkStart target done)
                ((Path.ofString target).parts ++ rest) := by
  have hstep : ∀ onLink, d.along follow onLink done (name :: rest) =
      if name = ".." then d.along follow onLink done.dropLast rest
      else
        match d.bare? (done ++ [name]) with
        | none => if rest.isEmpty then .ok (.absent (done ++ [name])) else .error .missing
        | some (.file bytes) =>
          if rest.isEmpty then .ok (.present (done ++ [name]) (.file bytes))
          else .error .notDirectory
        | some (.folder _) => d.along follow onLink (done ++ [name]) rest
        | some (.link target) =>
          if rest.isEmpty && !follow then .ok (.present (done ++ [name]) (.link target))
          else onLink (linkStart target done) ((Path.ofString target).parts ++ rest) := by
    intro onLink
    rw [along, bare?]
    refine if_congr Iff.rfl rfl ?_
    rcases d.entry? (done ++ [name]) with _ | _ | _ | _ <;> rfl
  cases n with
  | zero => exact hstep _
  | succ m => exact hstep _

/-- Induction along ways: over the names that are left, and at a link over the links that may still be
followed. -/
theorem wayInduction {motive : Nat → List String → List String → Prop}
    (nil : ∀ n done, motive n done [])
    (cons : ∀ n done name rest, (∀ done', motive n done' rest) →
      (∀ m < n, ∀ done' parts', motive m done' parts') → motive n done (name :: rest))
    (n : Nat) (done parts : List String) : motive n done parts := by
  induction n using Nat.strongRecOn generalizing done parts with
  | ind n ihn =>
    induction parts generalizing done with
    | nil => exact nil n done
    | cons name rest ih => exact cons n done name rest ih ihn

/-- What is found is what stands there. -/
theorem entry?_of_locateWithin (h : d.locateWithin follow n done parts = .ok found) :
    d.entry? found.names = found.entry? := by
  induction n, done, parts using wayInduction with
  | nil n done =>
    rw [locateWithin_nil] at h
    cases hdone : d.entry? done with
    | none =>
      rw [hdone] at h
      cases h
      exact hdone
    | some e =>
      rw [hdone] at h
      cases h
      exact hdone
  | cons n done name rest ih ihn =>
    rw [locateWithin_cons] at h
    split at h
    · exact ih _ h
    · split at h
      · split at h
        · cases h
          exact bare?_eq_none_iff.mp ‹_›
        · cases h
      · split at h
        · cases h
          exact bare?_eq_file_iff.mp ‹_›
        · cases h
      · exact ih _ h
      · split at h
        · cases h
          exact bare?_eq_link_iff.mp ‹_›
        · split at h
          · cases h
          · exact ihn _ (Nat.lt_succ_self _) _ _ h

/-- With fewer links that may be followed, a way leads to the same or meets too many. -/
theorem locateWithin_of_le {m : Nat} (h : m ≤ n) :
    d.locateWithin follow m done parts = d.locateWithin follow n done parts ∨
      d.locateWithin follow m done parts = .error .tooManyLinks := by
  induction m, done, parts using wayInduction generalizing n with
  | nil m done =>
    rw [locateWithin_nil, locateWithin_nil]
    exact .inl rfl
  | cons m done name rest ih ihm =>
    rw [locateWithin_cons, locateWithin_cons]
    split
    · exact ih _ h
    · split
      · exact .inl rfl
      · exact .inl rfl
      · exact ih _ h
      · split
        · exact .inl rfl
        · cases m with
          | zero => exact .inr rfl
          | succ m =>
            obtain ⟨n, rfl⟩ := Nat.exists_eq_add_of_lt h
            exact ihm m (Nat.lt_succ_self m) _ _ (by omega)

/-! ### Disks that keep kinds -/

/-- What stands on a disk goes on to stand there as the file, the folder or the link that it is, and no
link is new. -/
structure SameKinds (d d' : Disk) : Prop where
  folder : ∀ names, d.bare? names = some (.folder []) → d'.bare? names = some (.folder [])
  file : ∀ names bytes, d.bare? names = some (.file bytes) →
    ∃ bytes', d'.bare? names = some (.file bytes')
  link : ∀ names target, d'.bare? names = some (.link target) ↔ d.bare? names = some (.link target)

namespace SameKinds

theorem refl (d : Disk) : SameKinds d d :=
  ⟨fun _ => id, fun _ bytes h => ⟨bytes, h⟩, fun _ _ => .rfl⟩

theorem trans {d₁ d₂ d₃ : Disk} (h : SameKinds d₁ d₂) (h' : SameKinds d₂ d₃) : SameKinds d₁ d₃ where
  folder names hfolder := h'.folder names (h.folder names hfolder)
  file names bytes hfile := by
    obtain ⟨bytes', hfile'⟩ := h.file names bytes hfile
    exact h'.file names bytes' hfile'
  link names target := (h'.link names target).trans (h.link names target)

theorem isSome (h : SameKinds d d') (hsome : (d.bare? names).isSome) : (d'.bare? names).isSome := by
  obtain ⟨e, he⟩ := Option.isSome_iff_exists.mp hsome
  cases e with
  | file bytes =>
    obtain ⟨bytes', hfile⟩ := h.file _ bytes he
    rw [hfile]
    rfl
  | folder es =>
    rw [h.folder _ (bare?_folder_nil he)]
    rfl
  | link target =>
    rw [(h.link _ target).mpr he]
    rfl

theorem linkFreeBelow (h : SameKinds d d') (hd : d.LinkFreeBelow names) : d'.LinkFreeBelow names :=
  fun rest target hlink => hd rest target
    (bare?_eq_link_iff.mp ((h.link _ target).mp (bare?_eq_link_iff.mpr hlink)))

end SameKinds

/-! ### Disks that grow -/

/-- All that stands on a disk stands on another, which may have more. -/
structure Grows (d d' : Disk) : Prop where
  current : d'.current = d.current
  keeps : ∀ names e, d.bare? names = some e → d'.bare? names = some e

namespace Grows

theorem refl (d : Disk) : d.Grows d := ⟨rfl, fun _ _ => id⟩

theorem trans {d₁ d₂ d₃ : Disk} (h : d₁.Grows d₂) (h' : d₂.Grows d₃) : d₁.Grows d₃ :=
  ⟨h'.current.trans h.current, fun names e he => h'.keeps names e (h.keeps names e he)⟩

/-- Where a way led, it still leads; and where it led to a free place, it leads to what stands there
now. -/
theorem locateWithin (h : d.Grows d') (hfound : d.locateWithin follow n done parts = .ok found)
    (hthere : d'.entry? found.names = some e) (hlink : found.entry? = none → e.isLink = false) :
    d'.locateWithin follow n done parts = .ok (.present found.names e) := by
  induction n, done, parts using wayInduction with
  | nil n done =>
    rw [locateWithin_nil] at hfound ⊢
    have hdone : found.names = done := by
      cases hentry : d.entry? done <;> rw [hentry] at hfound <;> cases hfound <;> rfl
    rw [hdone] at hthere
    rw [hthere, hdone]
    rfl
  | cons n done name rest ih ihn =>
    rw [locateWithin_cons] at hfound ⊢
    by_cases hdots : name = ".."
    · rw [if_pos hdots] at hfound ⊢
      exact ih _ hfound
    · rw [if_neg hdots] at hfound ⊢
      cases hbare : d.bare? (done ++ [name]) with
      | none =>
        rw [hbare] at hfound
        cases rest with
        | cons next rest => cases hfound
        | nil =>
          cases hfound
          have hbare' : d'.bare? (done ++ [name]) = some e.bare := congrArg _ hthere
          rw [hbare']
          cases e with
          | file bytes => rfl
          | link target => cases hlink rfl
          | folder es =>
            have hhere : d'.entry? (done ++ [name]) = some (.folder es) := hthere
            change d'.locateWithin follow n (done ++ [name]) [] = _
            rw [locateWithin_nil, hhere]
            rfl
      | some x =>
        rw [hbare] at hfound
        have hbare' := h.keeps _ _ hbare
        rw [hbare']
        cases x with
        | folder es => exact ih _ hfound
        | file bytes =>
          cases rest with
          | cons next rest => cases hfound
          | nil =>
            cases hfound
            rw [Found.names, bare?_eq_file_iff.mp hbare'] at hthere
            cases hthere
            rfl
        | link target =>
          dsimp only at hfound ⊢
          split at hfound
          · rename_i hlast
            cases hfound
            rw [Found.names, bare?_eq_link_iff.mp hbare'] at hthere
            cases hthere
            rw [if_pos hlast]
            rfl
          · rename_i hlast
            rw [if_neg hlast]
            cases n with
            | zero => cases hfound
            | succ m => exact ihn m (Nat.lt_succ_self m) _ _ hfound

theorem locate (h : d.Grows d') {p : Path} (hfound : d.locate follow p = .ok found)
    (hthere : d'.entry? found.names = some e) (hlink : found.entry? = none → e.isLink = false) :
    d'.locate follow p = .ok (.present found.names e) := by
  have horigin : d'.origin p = d.origin p := by rw [origin, origin, h.current]
  rw [Disk.locate, horigin]
  exact h.locateWithin hfound hthere hlink

/-- A path that led to something leads to the same, but for what is in a folder. -/
theorem locate_present (h : d.Grows d') {p : Path} (hfound : d.locate follow p = .ok (.present names e)) :
    ∃ e', d'.locate follow p = .ok (.present names e') ∧ e'.bare = e.bare := by
  have hentry : d.entry? names = some e := entry?_of_locateWithin hfound
  have hbare : d'.bare? names = some e.bare := h.keeps _ _ (congrArg _ hentry)
  obtain ⟨e', hentry', hbare'⟩ := Option.map_eq_some_iff.mp hbare
  exact ⟨e', h.locate hfound hentry' (fun hnone => nomatch hnone), hbare'⟩

/-- A way that meets too many links goes on to meet them. -/
theorem locateWithin_tooManyLinks (h : d.Grows d')
    (hmany : d.locateWithin follow n done parts = .error .tooManyLinks) :
    d'.locateWithin follow n done parts = .error .tooManyLinks := by
  induction n, done, parts using wayInduction with
  | nil n done =>
    rw [locateWithin_nil] at hmany
    cases hmany
  | cons n done name rest ih ihn =>
    rw [locateWithin_cons] at hmany ⊢
    by_cases hdots : name = ".."
    · rw [if_pos hdots] at hmany ⊢
      exact ih _ hmany
    · rw [if_neg hdots] at hmany ⊢
      cases hbare : d.bare? (done ++ [name]) with
      | none =>
        rw [hbare] at hmany
        dsimp only at hmany
        split at hmany <;> cases hmany
      | some x =>
        rw [hbare] at hmany
        cases x with
        | folder es =>
          rw [h.keeps _ _ hbare]
          exact ih _ hmany
        | file bytes =>
          dsimp only at hmany
          split at hmany <;> cases hmany
        | link target =>
          rw [h.keeps _ _ hbare]
          dsimp only at hmany ⊢
          split at hmany
          · cases hmany
          · rename_i hlast
            rw [if_neg hlast]
            cases n with
            | zero => rfl
            | succ m => exact ihn m (Nat.lt_succ_self m) _ _ hmany

/-- A lookup that did not come to nothing goes on not to. -/
theorem comesToNothing (h : d.Grows d') {p : Path}
    (hp : Disk.comesToNothing (d.locate follow p) = false) :
    Disk.comesToNothing (d'.locate follow p) = false := by
  rw [comesToNothing_eq_false_iff] at hp ⊢
  rcases hp with ⟨names, e, hfound⟩ | hmany
  · obtain ⟨e', hfound', -⟩ := h.locate_present hfound
    exact .inl ⟨names, e', hfound'⟩
  · have horigin : d'.origin p = d.origin p := by rw [origin, origin, h.current]
    rw [Disk.locate, horigin]
    exact .inr (h.locateWithin_tooManyLinks hmany)

end Grows

/-! ### What paths lead to -/

theorem follow_eq_ok_iff {p : Path} :
    d.follow p = .ok e ↔ ∃ names, d.locate true p = .ok (.present names e) := by
  rw [Disk.follow, bind_eq_ok_iff]
  constructor
  · rintro ⟨found, hfound, h⟩
    cases found with
    | present names x =>
      cases h
      exact ⟨names, hfound⟩
    | absent names => cases h
  · rintro ⟨names, h⟩
    exact ⟨_, h, rfl⟩

theorem holds_iff {p : Path} : d.holds p = true ↔ ∃ e, d.follow p = .ok e := by
  rw [holds]
  cases d.follow p with
  | ok e => exact ⟨fun _ => ⟨e, rfl⟩, fun _ => rfl⟩
  | error fault => exact ⟨fun h => (Bool.noConfusion h), fun ⟨_, h⟩ => nomatch h⟩

theorem holdsFolder_iff {p : Path} :
    d.holdsFolder p = true ↔ ∃ es, d.follow p = .ok (.folder es) := by
  rw [holdsFolder]
  cases d.follow p with
  | error fault => exact ⟨fun h => (Bool.noConfusion h), fun ⟨_, h⟩ => nomatch h⟩
  | ok e =>
    cases e with
    | folder es => exact ⟨fun _ => ⟨es, rfl⟩, fun _ => rfl⟩
    | file bytes => exact ⟨fun h => (Bool.noConfusion h), fun ⟨_, h⟩ => nomatch h⟩
    | link target => exact ⟨fun h => (Bool.noConfusion h), fun ⟨_, h⟩ => nomatch h⟩

theorem holds_of_holdsFolder {p : Path} (h : d.holdsFolder p = true) : d.holds p = true := by
  obtain ⟨es, hes⟩ := holdsFolder_iff.mp h
  exact holds_iff.mpr ⟨_, hes⟩

theorem read_eq_ok_iff {p : Path} {bytes : List UInt8} :
    d.read p = .ok bytes ↔ d.follow p = .ok (.file bytes) := by
  rw [read, bind_eq_ok_iff]
  constructor
  · rintro ⟨e, he, h⟩
    cases e with
    | file other =>
      cases h
      exact he
    | link target => cases h
    | folder es => cases h
  · exact fun h => ⟨_, h, rfl⟩

/-- What can be read is a file that the path leads to. -/
theorem exists_locate_of_read {p : Path} (h : (d.read p).isOk = true) :
    ∃ names bytes, d.read p = .ok bytes ∧ d.locate true p = .ok (.present names (.file bytes)) := by
  obtain ⟨bytes, hbytes⟩ := exists_of_isOk h
  obtain ⟨names, hfound⟩ := follow_eq_ok_iff.mp (read_eq_ok_iff.mp hbytes)
  exact ⟨names, bytes, hbytes, hfound⟩

/-- What is read where an entry stands, if any. -/
def reading : Option Entry → Except Fault (List UInt8)
  | some (.file bytes) => .ok bytes
  | some _ => .error .isDirectory
  | none => .error .missing

/-- What is read at a path is told by what stands where it leads. -/
theorem read_of_locate {p : Path} (h : d.locate true p = .ok found) :
    d.read p = reading (d.bare? found.names) := by
  have hentry : d.entry? found.names = found.entry? := entry?_of_locateWithin h
  rw [read, Disk.follow, h, bare?, hentry]
  cases found with
  | absent names => rfl
  | present names e => cases e <;> rfl

theorem Grows.follow_eq_ok (h : d.Grows d') {p : Path} (he : d.follow p = .ok e) :
    ∃ e', d'.follow p = .ok e' ∧ e'.bare = e.bare := by
  obtain ⟨names, hfound⟩ := follow_eq_ok_iff.mp he
  obtain ⟨e', hfound', hbare⟩ := h.locate_present hfound
  exact ⟨e', follow_eq_ok_iff.mpr ⟨names, hfound'⟩, hbare⟩

theorem Grows.read (h : d.Grows d') {p : Path} {bytes : List UInt8} (hp : d.read p = .ok bytes) :
    d'.read p = .ok bytes := by
  obtain ⟨e, he, hbare⟩ := h.follow_eq_ok (read_eq_ok_iff.mp hp)
  rw [Entry.bare_eq_file_iff.mp hbare] at he
  exact read_eq_ok_iff.mpr he

/-! ### Ways over folders alone -/

theorem bare?_folder_of_append {more : List String}
    (h : d.bare? (names ++ more) = some (.folder [])) : d.bare? names = some (.folder []) := by
  by_cases hmore : more = []
  · rwa [hmore, List.append_nil] at h
  · exact bare?_of_append hmore (h ▸ rfl)

/-- Along names of folders, a way is not turned aside. -/
theorem locateWithin_append (h : d.bare? (done ++ names) = some (.folder [])) (hdots : ".." ∉ names)
    (follow : Bool) (n : Nat) (rest : List String) :
    d.locateWithin follow n done (names ++ rest) = d.locateWithin follow n (done ++ names) rest := by
  induction names generalizing done with
  | nil => rw [List.nil_append, List.append_nil]
  | cons name names ih =>
    obtain ⟨hname, hnames⟩ := List.ne_and_not_mem_of_not_mem_cons hdots
    rw [List.append_cons] at h ⊢
    rw [List.cons_append, locateWithin_cons, if_neg (Ne.symm hname), bare?_folder_of_append h]
    exact ih h hnames

/-- No link stands along names. -/
def NoLinkAlong (d : Disk) (names : List String) : Prop :=
  ∀ before target, before <+: names → d.bare? before ≠ some (.link target)

/-- Where no link is on the way, names lead to what stands there. -/
theorem locateWithin_eq_present_iff (hlinks : d.NoLinkAlong (done ++ parts)) (hdots : ".." ∉ parts) :
    d.locateWithin follow n done parts = .ok (.present names e) ↔
      names = done ++ parts ∧ d.entry? (done ++ parts) = some e := by
  induction parts generalizing done with
  | nil =>
    rw [locateWithin_nil, List.append_nil]
    cases d.entry? done with
    | none => exact ⟨fun h => (nomatch h), fun ⟨_, h⟩ => (nomatch h)⟩
    | some x =>
      constructor
      · intro h
        cases h
        exact ⟨rfl, rfl⟩
      · rintro ⟨rfl, h⟩
        cases h
        rfl
  | cons name rest ih =>
    obtain ⟨hname, hrest⟩ := List.ne_and_not_mem_of_not_mem_cons hdots
    rw [List.append_cons] at hlinks
    rw [List.append_cons done, locateWithin_cons, if_neg (Ne.symm hname)]
    -- below what is no folder there is nothing
    have hend : ∀ x, d.bare? (done ++ [name]) = x → x ≠ some (.folder []) → rest ≠ [] →
        d.entry? (done ++ [name] ++ rest) = none := fun x hx hne hrest =>
      bare?_eq_none_iff.mp (bare?_append_eq_none hrest (hx ▸ hne))
    cases hbare : d.bare? (done ++ [name]) with
    | none =>
      have hnone : d.entry? (done ++ [name] ++ rest) = none := by
        cases rest with
        | nil =>
          rw [List.append_nil]
          exact bare?_eq_none_iff.mp hbare
        | cons next rest => exact hend _ hbare (fun h => nomatch h) (List.cons_ne_nil _ _)
      rw [hnone]
      refine ⟨fun h => ?_, fun ⟨_, h⟩ => nomatch h⟩
      cases rest <;> cases h
    | some x =>
      cases x with
      | folder es => exact ih hlinks hrest
      | link target => exact absurd hbare (hlinks _ target (List.prefix_append _ _))
      | file bytes =>
        cases rest with
        | nil =>
          rw [List.append_nil, bare?_eq_file_iff.mp hbare]
          constructor
          · intro h
            cases h
            exact ⟨rfl, rfl⟩
          · rintro ⟨rfl, h⟩
            cases h
            rfl
        | cons next rest =>
          rw [hend _ hbare (fun h => nomatch h) (List.cons_ne_nil _ _)]
          exact ⟨fun h => (nomatch h), fun ⟨_, h⟩ => (nomatch h)⟩

/-- A path from the root without links and double dots on the way. -/
structure Plain (d : Disk) (p : Path) : Prop where
  anchored : p.anchor ≠ .here
  noDots : ".." ∉ p.parts
  noLink : d.NoLinkAlong p.parts

namespace Plain

variable {p : Path} {bytes : List UInt8}

theorem locate_eq_present_iff (h : d.Plain p) :
    d.locate follow p = .ok (.present names e) ↔ names = p.parts ∧ d.entry? p.parts = some e := by
  rw [locate, origin, if_neg h.anchored]
  exact locateWithin_eq_present_iff h.noLink h.noDots

theorem locate_eq_absent (h : d.Plain p) {inside : List String} {last : String}
    (hparts : p.parts = inside ++ [last]) (hfolder : d.bare? inside = some (.folder []))
    (hnone : d.bare? p.parts = none) : d.locate follow p = .ok (.absent p.parts) := by
  have hdots := h.noDots
  rw [hparts, List.mem_append, List.mem_singleton, not_or] at hdots
  have hfolder' : d.bare? ([] ++ inside) = some (.folder []) := hfolder
  rw [hparts] at hnone ⊢
  rw [locate, origin, if_neg h.anchored, hparts, locateWithin_append hfolder' hdots.1,
    locateWithin_cons, if_neg (Ne.symm hdots.2), List.nil_append, hnone]
  rfl

theorem follow_eq_ok_iff (h : d.Plain p) : d.follow p = .ok e ↔ d.entry? p.parts = some e := by
  rw [Disk.follow_eq_ok_iff]
  simp only [h.locate_eq_present_iff, exists_eq_left]

theorem holds_iff (h : d.Plain p) : d.holds p = true ↔ (d.bare? p.parts).isSome := by
  rw [Disk.holds_iff, bare?, Option.isSome_map, Option.isSome_iff_exists]
  simp only [h.follow_eq_ok_iff]

theorem holdsFolder_iff (h : d.Plain p) :
    d.holdsFolder p = true ↔ d.bare? p.parts = some (.folder []) := by
  rw [Disk.holdsFolder_iff, bare?_eq_folder_iff]
  simp only [h.follow_eq_ok_iff]

theorem read_eq_ok_iff (h : d.Plain p) :
    d.read p = .ok bytes ↔ d.bare? p.parts = some (.file bytes) := by
  rw [Disk.read_eq_ok_iff, h.follow_eq_ok_iff, bare?_eq_file_iff]

/-- Such a path does not meet too many links. -/
theorem locate_ne (h : d.Plain p) : d.locate follow p ≠ .error .tooManyLinks := by
  have hrun : ∀ parts done, d.NoLinkAlong (done ++ parts) → ".." ∉ parts →
      d.locateWithin follow maxLinks done parts ≠ .error .tooManyLinks := by
    intro parts
    induction parts with
    | nil =>
      intro done _ _
      rw [locateWithin_nil]
      exact fun h => nomatch h
    | cons name rest ih =>
      intro done hlinks hdots
      obtain ⟨hname, hrest⟩ := List.ne_and_not_mem_of_not_mem_cons hdots
      rw [List.append_cons] at hlinks
      rw [locateWithin_cons, if_neg (Ne.symm hname)]
      cases hbare : d.bare? (done ++ [name]) with
      | none =>
        dsimp only
        split <;> exact fun h => nomatch h
      | some e =>
        cases e with
        | file bytes =>
          dsimp only
          split <;> exact fun h => nomatch h
        | folder es => exact ih _ hlinks hrest
        | link target => exact absurd hbare (hlinks _ target (List.prefix_append _ _))
  rw [locate, origin, if_neg h.anchored]
  exact hrun p.parts [] h.noLink h.noDots

end Plain

/-- No link is on the way to what stands in folders and is none itself. -/
theorem noLinkAlong_of_bare? {e : Entry} (he : d.bare? names = some e) (hlink : e.isLink = false) :
    d.NoLinkAlong names := by
  rintro before target ⟨more, rfl⟩ hbefore
  by_cases hmore : more = []
  · rw [hmore, List.append_nil, hbefore] at he
    cases he
    cases hlink
  · have hsome : (d.bare? (before ++ more)).isSome := by rw [he]; rfl
    have hfolder := bare?_of_append hmore hsome
    rw [hbefore] at hfolder
    cases hfolder

theorem read_of_bare? {p : Path} {bytes : List UInt8} (hp : p.anchor ≠ .here) (hdots : ".." ∉ p.parts)
    (hfile : d.bare? p.parts = some (.file bytes)) : d.read p = .ok bytes :=
  (Plain.read_eq_ok_iff ⟨hp, hdots, noLinkAlong_of_bare? hfile rfl⟩).mpr hfile

theorem LinkFreeBelow.noLinkAlong (h : d.LinkFreeBelow names)
    (hfolder : d.bare? names = some (.folder [])) (more : List String) :
    d.NoLinkAlong (names ++ more) := by
  rintro before target hbefore hlink
  rcases List.prefix_or_prefix_of_prefix hbefore (List.prefix_append names more) with
    hshort | ⟨rest, rfl⟩
  · exact noLinkAlong_of_bare? hfolder rfl before target hshort hlink
  · exact h rest target (bare?_eq_link_iff.mp hlink)

/-- A free place that a way leads to lies in a folder. -/
theorem parent_of_absent (h : d.locateWithin follow n done parts = .ok (.absent names))
    (hdone : d.bare? done = some (.folder [])) :
    ∃ inside last, names = inside ++ [last] ∧ last ≠ ".." ∧ d.bare? inside = some (.folder []) := by
  induction n, done, parts using wayInduction with
  | nil n done =>
    obtain ⟨es, hes⟩ := bare?_eq_folder_iff.mp hdone
    rw [locateWithin_nil, hes] at h
    cases h
  | cons n done name rest ih ihn =>
    rw [locateWithin_cons] at h
    split at h
    · refine ih _ h ?_
      rw [List.dropLast_eq_take]
      rw [← List.take_append_drop (done.length - 1) done] at hdone
      exact bare?_folder_of_append hdone
    · rename_i hdots
      split at h
      · split at h
        · cases h
          exact ⟨done, name, rfl, hdots, hdone⟩
        · cases h
      · split at h <;> cases h
      · exact ih _ h (bare?_folder_nil ‹_›)
      · split at h
        · cases h
        · split at h
          · cases h
          · refine ihn _ (Nat.lt_succ_self _) _ _ h ?_
            rw [linkStart]
            split
            · exact hdone
            · rfl

end Disk

end SuiteDraft
