import SuiteDraft.Proofs.Files.Change

/-!
# Ways and the links on them

A way that leads somewhere follows a number of links that is its own, and where it leads to does not
depend on how many more could be followed. Taking the links out of a path goes along the same way, so
the path without links leads to where the way ends.
-/

namespace SuiteDraft.Disk

variable {d d' : Disk} {n links more : Nat} {done parts rest last inside : List String}
  {name target : String} {found : Found}

/-- The way from `done` along names follows so many links and ends at `last`: at an entry that is no
link, or at a free place. -/
inductive Reaches (d : Disk) : Nat → List String → List String → List String → Prop where
  | nil (done : List String) : Reaches d 0 done [] done
  | up {links : Nat} {done rest last : List String} (h : Reaches d links done.dropLast rest last) :
      Reaches d links done (".." :: rest) last
  | step {links : Nat} {done rest last : List String} {name : String} (hname : name ≠ "..")
      (hlink : ∀ target, d.bare? (done ++ [name]) ≠ some (.link target))
      (hfolder : rest ≠ [] → d.bare? (done ++ [name]) = some (.folder []))
      (h : Reaches d links (done ++ [name]) rest last) : Reaches d links done (name :: rest) last
  | link {links : Nat} {done rest last : List String} {name target : String} (hname : name ≠ "..")
      (hlink : d.bare? (done ++ [name]) = some (.link target))
      (h : Reaches d links (linkStart target done) ((Path.ofString target).parts ++ rest) last) :
      Reaches d (links + 1) done (name :: rest) last

/-- What stands at the end of names, as a lookup tells it. -/
def foundAt (d : Disk) (names : List String) : Found :=
  ((d.entry? names).map (Found.present names)).getD (.absent names)

theorem foundAt_names (d : Disk) (names : List String) : (d.foundAt names).names = names := by
  rw [foundAt]
  cases d.entry? names <;> rfl

theorem Reaches.locateWithin (h : d.Reaches links done parts last) (hn : links ≤ n) :
    d.locateWithin true n done parts = .ok (d.foundAt last) := by
  induction h generalizing n with
  | nil done => exact locateWithin_nil d true n done
  | up h ih => rw [locateWithin_cons, if_pos rfl, ih hn]
  | @step links done rest last name hname hlink hfolder h ih =>
    rw [locateWithin_cons, if_neg hname]
    have hih := ih hn
    cases hbare : d.bare? (done ++ [name]) with
    | none =>
      cases rest with
      | cons next rest => simp [hbare] at hfolder
      | nil =>
        rw [locateWithin_nil, bare?_eq_none_iff.mp hbare] at hih
        exact hih
    | some e =>
      cases e with
      | folder es => exact hih
      | link target => exact absurd hbare (hlink target)
      | file bytes =>
        cases rest with
        | cons next rest => simp [hbare] at hfolder
        | nil =>
          rw [locateWithin_nil, bare?_eq_file_iff.mp hbare] at hih
          exact hih
  | @link links done rest last name target hname hlink h ih =>
    obtain ⟨m, rfl⟩ := Nat.exists_eq_succ_of_ne_zero (by omega : n ≠ 0)
    rw [locateWithin_cons, if_neg hname, hlink]
    dsimp only
    rw [Bool.not_true, Bool.and_false, if_neg Bool.false_ne_true]
    exact ih (by omega)

theorem reaches_of_locateWithin (h : d.locateWithin true n done parts = .ok found) :
    ∃ links ≤ n, d.Reaches links done parts found.names := by
  induction n, done, parts using wayInduction with
  | nil n done =>
    rw [locateWithin_nil] at h
    have hdone : found.names = done := by
      cases hentry : d.entry? done <;> rw [hentry] at h <;> cases h <;> rfl
    rw [hdone]
    exact ⟨0, Nat.zero_le n, .nil done⟩
  | cons n done name rest ih ihn =>
    rw [locateWithin_cons] at h
    by_cases hname : name = ".."
    · rw [if_pos hname] at h
      obtain ⟨links, hlinks, hreaches⟩ := ih _ h
      subst hname
      exact ⟨links, hlinks, .up hreaches⟩
    · rw [if_neg hname] at h
      cases hbare : d.bare? (done ++ [name]) with
      | none =>
        rw [hbare] at h
        cases rest with
        | cons next rest => cases h
        | nil =>
          cases h
          exact ⟨0, Nat.zero_le n, .step hname (by simp [hbare]) (by simp) (.nil _)⟩
      | some e =>
        rw [hbare] at h
        cases e with
        | file bytes =>
          cases rest with
          | cons next rest => cases h
          | nil =>
            cases h
            exact ⟨0, Nat.zero_le n, .step hname (by simp [hbare]) (by simp) (.nil _)⟩
        | folder es =>
          obtain ⟨links, hlinks, hreaches⟩ := ih _ h
          exact ⟨links, hlinks, .step hname (by simp [hbare]) (fun _ => bare?_folder_nil hbare) hreaches⟩
        | link target =>
          dsimp only at h
          rw [Bool.not_true, Bool.and_false, if_neg Bool.false_ne_true] at h
          cases n with
          | zero => cases h
          | succ m =>
            obtain ⟨links, hlinks, hreaches⟩ := ihn m (Nat.lt_succ_self m) _ _ h
            exact ⟨links + 1, by omega, .link hname hbare hreaches⟩

/-- A way has one end, and so many links on it. -/
theorem Reaches.unique {last' : List String} (h : d.Reaches links done parts last)
    (h' : d.Reaches more done parts last') : links = more ∧ last = last' := by
  induction h generalizing more with
  | nil done =>
    cases h'
    exact ⟨rfl, rfl⟩
  | up h ih =>
    cases h' with
    | up h' => exact ih h'
    | step hname => exact absurd rfl hname
    | link hname => exact absurd rfl hname
  | step hname hlink hfolder h ih =>
    cases h' with
    | up h' => exact absurd rfl hname
    | step hname' hlink' hfolder' h' => exact ih h'
    | link hname' hlink' h' => exact absurd hlink' (hlink _)
  | link hname hlink h ih =>
    cases h' with
    | up h' => exact absurd rfl hname
    | step hname' hlink' hfolder' h' => exact absurd hlink (hlink' _)
    | link hname' hlink' h' =>
      rw [hlink] at hlink'
      cases hlink'
      obtain ⟨hlinks, hlast⟩ := ih h'
      exact ⟨by rw [hlinks], hlast⟩

theorem linkStart_folder (h : d.bare? done = some (.folder [])) (target : String) :
    d.bare? (linkStart target done) = some (.folder []) := by
  rw [linkStart]
  split
  · exact h
  · exact d.bare?_root

theorem dropLast_folder (h : d.bare? done = some (.folder [])) :
    d.bare? done.dropLast = some (.folder []) := by
  rw [List.dropLast_eq_take]
  rw [← List.take_append_drop (done.length - 1) done] at h
  exact bare?_folder_of_append h

/-- A way along more names is one along the first of them, up to a folder, and then on. -/
theorem Reaches.split {names : List String} (h : d.Reaches links done (names ++ rest) last) :
    ∃ first second middle, links = first + second ∧ d.Reaches first done names middle ∧
      d.Reaches second middle rest last ∧
      (d.bare? done = some (.folder []) → rest ≠ [] → d.bare? middle = some (.folder [])) := by
  generalize hparts : names ++ rest = parts at h
  induction h generalizing names with
  | nil done =>
    obtain ⟨rfl, rfl⟩ := List.append_eq_nil_iff.mp hparts
    exact ⟨0, 0, done, rfl, .nil done, .nil done, fun hdone _ => hdone⟩
  | @up links done parts last h ih =>
    cases names with
    | nil =>
      subst hparts
      exact ⟨0, links, done, (Nat.zero_add _).symm, .nil done, .up h, fun hdone _ => hdone⟩
    | cons name names =>
      obtain ⟨rfl, hrest⟩ := List.cons.inj hparts
      obtain ⟨first, second, middle, hsum, hfirst, hsecond, hmiddle⟩ := ih hrest
      exact ⟨first, second, middle, hsum, .up hfirst, hsecond,
        fun hdone => hmiddle (dropLast_folder hdone)⟩
  | @step links done parts last name hname hlink hfolder h ih =>
    cases names with
    | nil =>
      subst hparts
      exact ⟨0, links, done, (Nat.zero_add _).symm, .nil done, .step hname hlink hfolder h,
        fun hdone _ => hdone⟩
    | cons name' names =>
      obtain ⟨rfl, rfl⟩ := List.cons.inj hparts
      obtain ⟨first, second, middle, hsum, hfirst, hsecond, hmiddle⟩ := ih rfl
      have hfolder' : names ≠ [] → d.bare? (done ++ [name']) = some (.folder []) :=
        fun hnames => hfolder (by simp [hnames])
      exact ⟨first, second, middle, hsum, .step hname hlink hfolder' hfirst, hsecond,
        fun _ hrest => hmiddle (hfolder (by simp [hrest])) hrest⟩
  | @link links done parts last name target hname hlink h ih =>
    cases names with
    | nil =>
      subst hparts
      exact ⟨0, links + 1, done, (Nat.zero_add _).symm, .nil done, .link hname hlink h,
        fun hdone _ => hdone⟩
    | cons name' names =>
      obtain ⟨rfl, rfl⟩ := List.cons.inj hparts
      obtain ⟨first, second, middle, hsum, hfirst, hsecond, hmiddle⟩ :=
        ih (List.append_assoc _ names rest)
      exact ⟨first + 1, second, middle, by omega, .link hname hlink hfirst, hsecond,
        fun hdone => hmiddle (linkStart_folder hdone _)⟩

/-- The first name of a way that ends in a folder leads to a folder, if it is no link. -/
theorem Reaches.step_folder (h : d.Reaches links (done ++ [name]) rest last)
    (hfolder : rest ≠ [] → d.bare? (done ++ [name]) = some (.folder []))
    (hlast : d.bare? last = some (.folder [])) : d.bare? (done ++ [name]) = some (.folder []) := by
  cases rest with
  | nil =>
    cases h
    exact hlast
  | cons next rest => exact hfolder (List.cons_ne_nil _ _)

/-- Behind a folder, a way goes on. -/
theorem Reaches.append {middle : List String} (h : d.Reaches links done parts middle)
    (hfolder : d.bare? middle = some (.folder [])) (h' : d.Reaches more middle rest last) :
    d.Reaches (links + more) done (parts ++ rest) last := by
  induction h with
  | nil done =>
    rw [Nat.zero_add]
    exact h'
  | up h ih => exact .up (ih hfolder h')
  | step hname hlink hstep h ih =>
    exact .step hname hlink (fun _ => h.step_folder hstep hfolder) (ih hfolder h')
  | link hname hlink h ih =>
    have hon := ih hfolder h'
    rw [List.append_assoc] at hon
    rw [Nat.add_right_comm]
    exact .link hname hlink hon

/-- A lookup goes along such a way as well, with the links that are left. -/
theorem Reaches.locateWithin_append {follow : Bool} {middle : List String}
    (h : d.Reaches links done parts middle) (hfolder : d.bare? middle = some (.folder []))
    (hn : links ≤ n) (hrest : rest ≠ []) :
    d.locateWithin follow n done (parts ++ rest) = d.locateWithin follow (n - links) middle rest := by
  induction h generalizing n with
  | nil done => rfl
  | up h ih => rw [List.cons_append, locateWithin_cons, if_pos rfl, ih hfolder hn]
  | step hname hlink hstep h ih =>
    rw [List.cons_append, locateWithin_cons, if_neg hname, h.step_folder hstep hfolder]
    exact ih hfolder hn
  | @link links done parts middle name target hname hlink h ih =>
    obtain ⟨m, rfl⟩ := Nat.exists_eq_succ_of_ne_zero (by omega : n ≠ 0)
    have hmore : (parts ++ rest).isEmpty = false := by simp [hrest]
    rw [List.cons_append, locateWithin_cons, if_neg hname, hlink]
    dsimp only
    rw [hmore, Bool.false_and, if_neg Bool.false_ne_true, ← List.append_assoc, ih hfolder (by omega),
      Nat.succ_sub_succ]

/-- Along the names of folders, a way meets no link. -/
theorem reaches_folders {names : List String} (h : d.bare? (done ++ names) = some (.folder []))
    (hdots : ".." ∉ names) : d.Reaches 0 done names (done ++ names) := by
  induction names generalizing done with
  | nil =>
    rw [List.append_nil]
    exact .nil done
  | cons name names ih =>
    obtain ⟨hname, hnames⟩ := List.ne_and_not_mem_of_not_mem_cons hdots
    rw [List.append_cons] at h ⊢
    have hfolder := bare?_folder_of_append h
    exact .step (Ne.symm hname) (by simp [hfolder]) (fun _ => hfolder) (ih h hnames)

/-- No double dots stand in where a way ends. -/
theorem Reaches.noDots (h : d.Reaches links done parts last) (hdone : ".." ∉ done) : ".." ∉ last := by
  induction h with
  | nil done => exact hdone
  | up h ih => exact ih fun hmem => hdone ((List.dropLast_sublist _).subset hmem)
  | step hname hlink hfolder h ih =>
    apply ih
    rw [List.mem_append, List.mem_singleton, not_or]
    exact ⟨hdone, Ne.symm hname⟩
  | link hname hlink h ih =>
    apply ih
    rw [linkStart]
    split
    · exact hdone
    · exact List.not_mem_nil

/-- A way ends in a folder, or at a name in a folder that is no link. -/
theorem Reaches.last_cases (h : d.Reaches links done parts last)
    (hdone : d.bare? done = some (.folder [])) : d.bare? last = some (.folder []) ∨
      ∃ inside name, last = inside ++ [name] ∧ d.bare? inside = some (.folder []) ∧
        name ≠ ".." ∧ ∀ target, d.bare? last ≠ some (.link target) := by
  induction h with
  | nil done => exact .inl hdone
  | up h ih => exact ih (dropLast_folder hdone)
  | @step links done rest last name hname hlink hfolder h ih =>
    cases rest with
    | nil =>
      cases h
      exact .inr ⟨done, name, rfl, hdone, hname, hlink⟩
    | cons next rest => exact ih (hfolder (List.cons_ne_nil _ _))
  | link hname hlink h ih => exact ih (linkStart_folder hdone _)

/-- Disks with the same kinds have the same ways. -/
theorem SameKinds.reaches (hkinds : d.SameKinds d') (h : d.Reaches links done parts last) :
    d'.Reaches links done parts last := by
  induction h with
  | nil done => exact .nil done
  | up h ih => exact .up ih
  | step hname hlink hfolder h ih =>
    refine .step hname (fun target hlink' => ?_) (fun hrest => hkinds.folder _ (hfolder hrest)) ih
    exact hlink target ((hkinds.link _ target).mp hlink')
  | link hname hlink h ih => exact .link hname ((hkinds.link _ _).mpr hlink) ih

/-- What is written at a path is read there, also where links are on the way. -/
theorem read_of_write {p : Path} {bytes : List UInt8} (hp : p.anchor ≠ .here)
    (h : d.write p bytes = .ok d') : d'.read p = .ok bytes := by
  have horigin : ∀ d : Disk, d.origin p = [] := fun _ => if_neg hp
  have hwritten : ∃ names, d' = d.put names (.file bytes) ∧
      (∃ links ≤ maxLinks, d.Reaches links [] p.parts names) ∧
      (d.bare? names = none ∨ ∃ old, d.bare? names = some (.file old)) := by
    rw [write] at h
    split at h
    · rename_i names old hfound
      rw [locate, horigin] at hfound
      have hentry : d.entry? names = some (.file old) := entry?_of_locateWithin hfound
      exact ⟨names, (Except.ok.inj h).symm, reaches_of_locateWithin hfound,
        .inr ⟨old, bare?_eq_file_iff.mpr hentry⟩⟩
    · rename_i names hfound
      rw [locate, horigin] at hfound
      have hentry : d.entry? names = none := entry?_of_locateWithin hfound
      exact ⟨names, (Except.ok.inj h).symm, reaches_of_locateWithin hfound,
        .inl (bare?_eq_none_iff.mpr hentry)⟩
    · cases h
    · cases h
  obtain ⟨names, rfl, ⟨links, hlinks, hreaches⟩, hfree⟩ := hwritten
  have hne : d.bare? names ≠ some (.folder []) := fun h => by simp [h] at hfree
  obtain hfolder | ⟨inside, name, rfl, hinside, -⟩ := hreaches.last_cases d.bare?_root
  · exact absurd hfolder hne
  · have hkinds : d.SameKinds (d.put (inside ++ [name]) (.file bytes)) := sameKinds_put hinside hfree
    have hfound : (d.put (inside ++ [name]) (.file bytes)).locate true p =
        .ok ((d.put (inside ++ [name]) (.file bytes)).foundAt (inside ++ [name])) := by
      rw [locate, horigin]
      exact (hkinds.reaches hreaches).locateWithin hlinks
    have hput := bare?_put_bare hinside hne (e := .file bytes) rfl (inside ++ [name])
    rw [read_of_locate hfound, foundAt_names, hput, if_pos rfl]
    rfl

/-! ### Taking links out -/

section

variable {opened : List (List String)}

theorem realWithin_nil (d : Disk) (n : Nat) (opened : List (List String)) (done : List String) :
    d.realWithin n opened done [] = (done, true) := by
  cases n <;> rfl

theorem realWithin_up (d : Disk) (n : Nat) (opened : List (List String)) (done rest : List String) :
    d.realWithin n opened done (".." :: rest) = d.realWithin n opened done.dropLast rest := by
  cases n <;> rfl

theorem realWithin_step (hname : name ≠ "..")
    (hlink : ∀ target, d.bare? (done ++ [name]) ≠ some (.link target)) :
    d.realWithin n opened done (name :: rest) = d.realWithin n opened (done ++ [name]) rest := by
  have hstep : ∀ onLink, d.alongReal onLink opened done (name :: rest) =
      d.alongReal onLink opened (done ++ [name]) rest := by
    intro onLink
    rw [alongReal, if_neg hname]
    dsimp only
    split
    · rename_i target heq
      exact absurd (bare?_eq_link_iff.mpr heq) (hlink target)
    · rfl
  cases n with
  | zero => exact hstep _
  | succ n => exact hstep _

theorem realWithin_link {names : List String} (hname : name ≠ "..")
    (hlink : d.bare? (done ++ [name]) = some (.link target)) (hopened : done ++ [name] ∉ opened)
    (hnames : d.realWithin n ((done ++ [name]) :: opened) (linkStart target done)
      (Path.ofString target).parts = (names, true)) :
    d.realWithin (n + 1) opened done (name :: rest) = d.realWithin (n + 1) opened names rest := by
  change d.alongReal (d.realWithin n) opened done (name :: rest) =
    d.alongReal (d.realWithin n) opened names rest
  rw [alongReal, if_neg hname]
  dsimp only
  rw [bare?_eq_link_iff.mp hlink]
  dsimp only
  rw [if_neg (by simpa using hopened)]
  rw [linkStart] at hnames
  rw [hnames]

/-- No link that is open is met on a way with so few links: the way of its own target has as many. -/
def Closed (d : Disk) (opened : List (List String)) (links : Nat) : Prop :=
  ∀ done name target, done ++ [name] ∈ opened → d.bare? (done ++ [name]) = some (.link target) →
    ∀ more last, d.Reaches more (linkStart target done) (Path.ofString target).parts last → links ≤ more

theorem Closed.mono (h : d.Closed opened links) (hmore : more ≤ links) : d.Closed opened more :=
  fun done name target hmem hlink other last hreaches =>
    hmore.trans (h done name target hmem hlink other last hreaches)

/-- The names without links are those at which the way ends. -/
theorem Reaches.realWithin (h : d.Reaches links done parts last) (hn : links ≤ n)
    (hclosed : d.Closed opened links) : d.realWithin n opened done parts = (last, true) := by
  induction links using Nat.strongRecOn generalizing n opened done parts last with
  | ind links ihlinks =>
    induction parts generalizing done with
    | nil =>
      cases h
      exact realWithin_nil d n opened _
    | cons name rest ih =>
      cases h with
      | up h => rw [realWithin_up, ih h]
      | step hname hlink hfolder h => rw [realWithin_step hname hlink, ih h]
      | @link links _ _ _ _ target hname hlink h =>
        -- The target's own way, which comes first, and then what is left.
        obtain ⟨first, second, middle, rfl, hfirst, hsecond, -⟩ := h.split
        obtain ⟨m, rfl⟩ := Nat.exists_eq_succ_of_ne_zero (by omega : n ≠ 0)
        have hopened : done ++ [name] ∉ opened := by
          intro hmem
          have hle := hclosed done name target hmem hlink first middle hfirst
          omega
        have hclosed' : d.Closed ((done ++ [name]) :: opened) first := by
          intro done' name' target' hmem hlink' more last' hreaches
          rcases List.mem_cons.mp hmem with heq | hmem
          · obtain ⟨rfl, hsame⟩ := List.append_inj' heq rfl
            obtain rfl : name' = name := (List.cons.inj hsame).1
            rw [hlink] at hlink'
            cases hlink'
            exact (hfirst.unique hreaches).1.le
          · have hle := hclosed done' name' target' hmem hlink' more last' hreaches
            omega
        rw [realWithin_link hname hlink hopened (ihlinks first (by omega) hfirst (by omega) hclosed')]
        exact ihlinks second (by omega) hsecond (by omega) (hclosed.mono (by omega))

theorem Reaches.realWithin_nil (h : d.Reaches links done parts last) (hn : links ≤ n) :
    d.realWithin n [] done parts = (last, true) :=
  h.realWithin hn fun _ _ _ hmem => absurd hmem List.not_mem_nil

end

/-! ### Where ways break off -/

/-- The place on a way at which nothing stands; that is, the first one. -/
def gapAlong? (d : Disk) (onLink : List String → List String → Option (List String))
    (done : List String) : List String → Option (List String)
  | [] => none
  | name :: rest =>
    if name = ".." then gapAlong? d onLink done.dropLast rest
    else
      match d.bare? (done ++ [name]) with
      | none => some (done ++ [name])
      | some (.file _) => none
      | some (.folder _) => gapAlong? d onLink (done ++ [name]) rest
      | some (.link target) => onLink (linkStart target done) ((Path.ofString target).parts ++ rest)

def gapWithin? (d : Disk) : Nat → List String → List String → Option (List String)
  | 0 => gapAlong? d fun _ _ => none
  | n + 1 => gapAlong? d (gapWithin? d n)

/-- The place at which the way of a path breaks off, or ends, because nothing stands there. -/
def gap? (d : Disk) (p : Path) : Option (List String) :=
  d.gapWithin? maxLinks (d.origin p) p.parts

theorem gapWithin?_nil (d : Disk) (n : Nat) (done : List String) : d.gapWithin? n done [] = none := by
  cases n <;> rfl

theorem gapWithin?_cons (d : Disk) (n : Nat) (done : List String) (name : String)
    (rest : List String) :
    d.gapWithin? n done (name :: rest) =
      if name = ".." then d.gapWithin? n done.dropLast rest
      else
        match d.bare? (done ++ [name]) with
        | none => some (done ++ [name])
        | some (.file _) => none
        | some (.folder _) => d.gapWithin? n (done ++ [name]) rest
        | some (.link target) =>
          match n with
          | 0 => none
          | m + 1 => d.gapWithin? m (linkStart target done) ((Path.ofString target).parts ++ rest) := by
  cases n <;> rfl

theorem bare?_of_gapWithin? (h : d.gapWithin? n done parts = some last) : d.bare? last = none := by
  induction n, done, parts using wayInduction with
  | nil n done =>
    rw [gapWithin?_nil] at h
    cases h
  | cons n done name rest ih ihn =>
    rw [gapWithin?_cons] at h
    split at h
    · exact ih _ h
    · cases hbare : d.bare? (done ++ [name]) with
      | none =>
        rw [hbare] at h
        rwa [← Option.some.inj h]
      | some e =>
        rw [hbare] at h
        cases e with
        | file bytes => cases h
        | folder es => exact ih _ h
        | link target =>
          cases n with
          | zero => cases h
          | succ m => exact ihn m (Nat.lt_succ_self m) _ _ h

/-- A way that ends at a free place breaks off there. -/
theorem Reaches.gapWithin?_eq (h : d.Reaches links done parts last) (hn : links ≤ n)
    (hdone : d.bare? done = some (.folder [])) (hlast : d.bare? last = none) :
    d.gapWithin? n done parts = some last := by
  induction h generalizing n with
  | nil done =>
    rw [hdone] at hlast
    cases hlast
  | up h ih =>
    rw [gapWithin?_cons, if_pos rfl]
    exact ih hn (dropLast_folder hdone) hlast
  | @step links done rest last name hname hlink hfolder h ih =>
    rw [gapWithin?_cons, if_neg hname]
    cases rest with
    | nil =>
      cases h
      rw [hlast]
    | cons next rest =>
      rw [hfolder (List.cons_ne_nil _ _)]
      exact ih hn (hfolder (List.cons_ne_nil _ _)) hlast
  | link hname hlink h ih =>
    obtain ⟨m, rfl⟩ := Nat.exists_eq_succ_of_ne_zero (by omega : n ≠ 0)
    rw [gapWithin?_cons, if_neg hname, hlink]
    exact ih (by omega) (linkStart_folder hdone _) hlast

/-! ### Paths without links -/

/-- Names in a folder lead to what stands there, a link included. -/
theorem locate_names {follow : Bool} {p : Path} (hp : p.anchor ≠ .here)
    (hparts : p.parts = inside ++ [name]) (hinside : d.bare? inside = some (.folder []))
    (hdots : ".." ∉ inside) :
    d.locate follow p = d.locateWithin follow maxLinks inside [name] := by
  have hinside' : d.bare? ([] ++ inside) = some (.folder []) := hinside
  rw [locate, origin, if_neg hp, hparts, locateWithin_append hinside' hdots, List.nil_append]

/-- A way ends at names without links. -/
theorem Reaches.noLinkAlong (h : d.Reaches links done parts last)
    (hdone : d.bare? done = some (.folder [])) : d.NoLinkAlong last := by
  rcases h.last_cases hdone with hfolder | ⟨inside, name, rfl, hinside, -, hlink⟩
  · exact noLinkAlong_of_bare? hfolder rfl
  · intro before target hbefore
    rcases List.prefix_concat_iff.mp hbefore with rfl | hshort
    · exact hlink target
    · exact noLinkAlong_of_bare? hinside rfl before target hshort

def endsInLink : Except Fault Found → Bool
  | .ok (.present _ (.link _)) => true
  | _ => false

section

variable {p : Path} {middle : List String} (hp : p.anchor ≠ .here) (hparts : p.parts = inside ++ [name])
  (hname : name ≠ "..")

include hp hparts hname

theorem endsInLink_of_reaches (hto : d.Reaches links [] inside middle) (hlinks : links ≤ maxLinks)
    (hmiddle : d.bare? middle = some (.folder []))
    (hlink : d.bare? (middle ++ [name]) = some (.link target)) :
    endsInLink (d.locate false p) = true := by
  have horigin : d.origin p = [] := if_neg hp
  rw [locate, horigin, hparts, hto.locateWithin_append hmiddle hlinks (List.cons_ne_nil _ _),
    locateWithin_cons, if_neg hname, hlink]
  rfl

/-- Where no link stands at a path, it ends at its last name. -/
theorem Reaches.last_name (h : d.Reaches links [] p.parts last) (hlinks : links ≤ maxLinks)
    (hlink : endsInLink (d.locate false p) = false) : ∃ middle, last = middle ++ [name] := by
  rw [hparts] at h
  obtain ⟨first, second, middle, rfl, hfirst, hsecond, hmiddle⟩ := h.split
  have hfolder := hmiddle d.bare?_root (List.cons_ne_nil _ _)
  cases hsecond with
  | up => exact absurd rfl hname
  | step _ _ _ hlast =>
    cases hlast
    exact ⟨middle, rfl⟩
  | link _ hhere =>
    have hends := endsInLink_of_reaches hp hparts hname hfirst (by omega) hfolder hhere
    rw [hlink] at hends
    cases hends

end

/-- Taking links out of names asks for links alone. -/
theorem alongReal_congr (hlink : ∀ names target,
      d'.bare? names = some (.link target) ↔ d.bare? names = some (.link target))
    (onLink : List (List String) → List String → List String → List String × Bool)
    (opened : List (List String)) (done parts : List String) :
    d'.alongReal onLink opened done parts = d.alongReal onLink opened done parts := by
  have hlink' : ∀ names target, d'.entry? names = some (.link target) ↔
      d.entry? names = some (.link target) := fun names target => by
    rw [← bare?_eq_link_iff, ← bare?_eq_link_iff, hlink]
  induction parts generalizing done with
  | nil => rfl
  | cons name rest ih =>
    rw [alongReal, alongReal]
    split
    · exact ih _
    · dsimp only
      split
      · rename_i target heq
        rw [(hlink' _ target).mp heq]
        dsimp only
        split
        · rfl
        · simp only [ih]
      · rename_i hnone
        split
        · rename_i target heq
          exact absurd ((hlink' _ target).mpr heq) (hnone target)
        · exact ih _

theorem realWithin_congr (hlink : ∀ names target,
      d'.bare? names = some (.link target) ↔ d.bare? names = some (.link target)) (n : Nat) :
    d'.realWithin n = d.realWithin n := by
  induction n with
  | zero => exact funext fun opened => funext fun done => funext (alongReal_congr hlink _ opened done)
  | succ n ih =>
    rw [realWithin, realWithin, ih]
    exact funext fun opened => funext fun done => funext (alongReal_congr hlink _ opened done)

/-- Where a path leads on a disk that has the same kinds as another tells its path without links on
the other one. -/
theorem SameKinds.resolve_eq (hkinds : d.SameKinds d') {p : Path} (hcurrent : d'.current = d.current)
    (horigin : d.bare? (d.origin p) = some (.folder [])) (hdots : ".." ∉ d.origin p)
    (h : d'.locate true p = .ok found) : d.resolve p = .ok ⟨.root, found.names⟩ := by
  have hsame : d'.origin p = d.origin p := by rw [origin, origin, hcurrent]
  rw [locate, hsame] at h
  obtain ⟨links, hlinks, hreaches⟩ := reaches_of_locateWithin h
  have hreal : d.realWithin 1000 [] (d.origin p) p.parts = (found.names, true) := by
    rw [← realWithin_congr hkinds.link 1000]
    exact hreaches.realWithin_nil (hlinks.trans (by decide))
  have hplain : d.Plain ⟨.root, found.names⟩ := by
    refine ⟨by simp, hreaches.noDots hdots, fun before target hbefore hlink => ?_⟩
    exact hreaches.noLinkAlong (hkinds.folder _ horigin) before target hbefore
      ((hkinds.link _ target).mpr hlink)
  have hlocate : d.locate true ⟨.root, found.names⟩ ≠ .error .tooManyLinks := hplain.locate_ne
  rw [resolve, hreal, withoutDots_of_noDots hplain.noDots]
  dsimp only
  split
  · exact absurd ‹_› hlocate
  · rfl

end SuiteDraft.Disk
