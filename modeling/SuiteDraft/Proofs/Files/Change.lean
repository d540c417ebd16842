import SuiteDraft.Files.Change
import SuiteDraft.Proofs.Files.Lookup

/-!
# What changes leave as it was

Making folders adds folders and nothing else, also when it fails on the way. A folder that was not
there before leads to no file, so where no link dangles, no path leads to a file through new folders
that it did not lead to before.
-/

namespace SuiteDraft.Disk

variable {d d' : Disk} {follow : Bool} {n : Nat} {done parts names inside : List String}
  {last : String} {e : Entry} {isNew isNew' : List String → List UInt8 → Prop}

/-- A disk has what stands on another, and besides only folders and files that `isNew` admits. -/
structure Gains (d d' : Disk) (isNew : List String → List UInt8 → Prop) : Prop extends Grows d d' where
  gained : ∀ names e, d.bare? names = none → d'.bare? names = some e →
    e = .folder [] ∨ ∃ bytes, e = .file bytes ∧ isNew names bytes
  noDots : d.NoDots → d'.NoDots

/-- A disk has what stands on another, and besides only folders. -/
def AddsFolders (d d' : Disk) : Prop := d.Gains d' fun _ _ => False

namespace Gains

theorem refl (d : Disk) (isNew : List String → List UInt8 → Prop) : d.Gains d isNew where
  toGrows := .refl d
  gained _ e hnone hsome := absurd (hnone.symm.trans hsome) (Option.some_ne_none e).symm
  noDots := id

theorem mono (h : d.Gains d' isNew) (himp : ∀ names bytes, isNew names bytes → isNew' names bytes) :
    d.Gains d' isNew' where
  toGrows := h.toGrows
  gained names e hnone hsome :=
    (h.gained names e hnone hsome).imp_right fun ⟨bytes, he, hnew⟩ => ⟨bytes, he, himp _ _ hnew⟩
  noDots := h.noDots

theorem trans {d₁ d₂ d₃ : Disk} (h : d₁.Gains d₂ isNew) (h' : d₂.Gains d₃ isNew) :
    d₁.Gains d₃ isNew where
  toGrows := h.toGrows.trans h'.toGrows
  gained names e hnone hsome := by
    cases hbetween : d₂.bare? names with
    | none => exact h'.gained names e hbetween hsome
    | some x =>
      have hkept := h'.keeps names x hbetween
      rw [hsome] at hkept
      cases hkept
      exact h.gained names e hnone hbetween
  noDots hdots := h'.noDots (h.noDots hdots)

/-- Links that do not dangle go on not to, and there are no new ones. -/
theorem noneDangles (h : d.Gains d' isNew) (hlinks : d.NoneDangles) : d'.NoneDangles := by
  intro names target hlink
  have hbare' := bare?_eq_link_iff.mpr hlink
  cases hbare : d.bare? names with
  | none =>
    rcases h.gained _ _ hbare hbare' with hfolder | ⟨bytes, hfile, -⟩
    · cases hfolder
    · cases hfile
  | some e =>
    have hkept := h.keeps _ _ hbare
    rw [hbare'] at hkept
    cases hkept
    exact h.comesToNothing (hlinks names target (bare?_eq_link_iff.mp hbare))

/-- What is put in a free place of a folder is gained. -/
theorem put (hfolder : d.bare? inside = some (.folder [])) (hfree : d.bare? (inside ++ [last]) = none)
    (hlast : last ≠ "..") (he : e.bare = e)
    (hnew : e = .folder [] ∨ ∃ bytes, e = .file bytes ∧ isNew (inside ++ [last]) bytes) :
    d.Gains (d.put (inside ++ [last]) e) isNew := by
  have hput := bare?_put_bare hfolder (hfree ▸ (Option.some_ne_none _).symm) he
  refine { current := rfl, keeps := fun names x hx => ?_, gained := fun names x hnone hsome => ?_,
           noDots := fun hdots names hsome => ?_ }
  · have hne : names ≠ inside ++ [last] := by
      rintro rfl
      rw [hfree] at hx
      cases hx
    rw [hput, if_neg hne, hx]
  · rw [hput] at hsome
    split at hsome
    · rename_i hnames
      cases hsome
      rw [hnames]
      exact hnew
    · rw [hnone] at hsome
      cases hsome
  · rw [hput] at hsome
    split at hsome
    · rename_i hnames
      rw [hnames, List.mem_append, List.mem_singleton, not_or]
      exact ⟨hdots _ (hfolder ▸ rfl), Ne.symm hlast⟩
    · exact hdots _ hsome

end Gains

/-! ### Making folders -/

/-- The disk that a change leaves, whether it comes to its end or not. -/
def left : Except Setback Disk → Disk
  | .ok d => d
  | .error setback => setback.disk

theorem addsFolders_makeOne {p : Path} (hp : p.anchor ≠ .here) (h : d.makeOne p = .ok d') :
    d.AddsFolders d' := by
  obtain ⟨found, hfound, h⟩ := bind_eq_ok_iff.mp h
  have horigin : d.origin p = [] := if_neg hp
  cases found with
  | present names e => cases h
  | absent names =>
    cases h
    have hfree : d.entry? names = none := entry?_of_locateWithin hfound
    rw [locate, horigin] at hfound
    obtain ⟨inside, last, rfl, hlast, hinside⟩ := parent_of_absent hfound d.bare?_root
    exact .put hinside (bare?_eq_none_iff.mpr hfree) hlast rfl (.inl rfl)

theorem addsFolders_makeOrKeep {p : Path} (hp : p.anchor ≠ .here) (d : Disk) :
    d.AddsFolders (left (d.makeOrKeep p)) := by
  rw [makeOrKeep]
  cases hone : d.makeOne p with
  | ok d' => exact addsFolders_makeOne hp hone
  | error fault =>
    dsimp only
    split <;> exact .refl d _

theorem addsFolders_makeWithin (n : Nat) {p : Path} (hp : p.anchor ≠ .here) (d : Disk) :
    d.AddsFolders (left (d.makeWithin n p)) := by
  induction n generalizing p with
  | zero => exact addsFolders_makeOrKeep hp d
  | succ n ih =>
    rw [makeWithin]
    split
    · have hparent : d.AddsFolders (left (d.makeWithin n p.parent)) := ih hp
      cases hmade : d.makeWithin n p.parent with
      | ok d' =>
        rw [hmade] at hparent
        exact hparent.trans (addsFolders_makeOrKeep hp d')
      | error setback =>
        rw [hmade] at hparent
        exact hparent
    · exact addsFolders_makeOrKeep hp d

/-- Making a folder adds folders, also where it fails. -/
theorem addsFolders_makeFolder {p : Path} (hp : p.anchor ≠ .here) (d : Disk) :
    d.AddsFolders (left (d.makeFolder p)) :=
  addsFolders_makeWithin _ hp d

/-- Where what a folder lies in is there, only the folder itself is made. -/
theorem makeFolder_eq_makeOrKeep {p : Path} (h : d.makeOne p ≠ .error .missing) :
    d.makeFolder p = d.makeOrKeep p := by
  rw [makeFolder]
  cases p.parts.length with
  | zero => rfl
  | succ n =>
    rw [makeWithin]
    split
    · exact absurd ‹_› h
    · rfl

namespace Plain

variable {p : Path}

theorem makeFolder_of_none (h : d.Plain p) (hparts : p.parts = inside ++ [last])
    (hfolder : d.bare? inside = some (.folder [])) (hnone : d.bare? p.parts = none) :
    d.makeFolder p = .ok (d.put p.parts (.folder [])) := by
  have hone : d.makeOne p = .ok (d.put p.parts (.folder [])) := by
    rw [makeOne, h.locate_eq_absent hparts hfolder hnone]
    rfl
  rw [makeFolder_eq_makeOrKeep (by simp [hone]), makeOrKeep, hone]

theorem makeFolder_of_some (h : d.Plain p) (hsome : d.bare? p.parts = some e) :
    d.makeFolder p = if e.isFolder then .ok d else .error ⟨⟨.present, p⟩, d⟩ := by
  obtain ⟨x, hx, rfl⟩ := Option.map_eq_some_iff.mp hsome
  have hone : d.makeOne p = .error .present := by
    rw [makeOne, h.locate_eq_present_iff.mpr ⟨rfl, hx⟩]
    rfl
  have hfolder : d.holdsFolder p = x.isFolder := by
    rw [holdsFolder, h.follow_eq_ok_iff.mpr hx]
  rw [makeFolder_eq_makeOrKeep (by simp [hone]), makeOrKeep, hone, Entry.isFolder_bare,
    ← hfolder]

end Plain

/-! ### Writing -/

/-- A file that is put in a free place or in place of a file leaves all else of its kind. -/
theorem sameKinds_put {bytes : List UInt8} (hfolder : d.bare? inside = some (.folder []))
    (hfree : d.bare? (inside ++ [last]) = none ∨ ∃ old, d.bare? (inside ++ [last]) = some (.file old)) :
    d.SameKinds (d.put (inside ++ [last]) (.file bytes)) := by
  have hne : d.bare? (inside ++ [last]) ≠ some (.folder []) := fun h => by simp [h] at hfree
  have hput := bare?_put_bare hfolder hne (e := .file bytes) rfl
  refine ⟨fun names hnames => ?_, fun names old hnames => ?_, fun names target => ?_⟩
  · have hother : names ≠ inside ++ [last] := fun heq => hne (heq ▸ hnames)
    rw [hput, if_neg hother]
    exact hnames
  · rw [hput]
    split
    · exact ⟨bytes, rfl⟩
    · exact ⟨old, hnames⟩
  · rw [hput]
    split
    · rename_i heq
      refine iff_of_false (fun h => nomatch h) fun hlink => ?_
      simp [← heq, hlink] at hfree
    · exact .rfl

/-- A file that is written where no file was is found there, and is all that is new. -/
theorem gains_write {p : Path} (hp : p.anchor ≠ .here)
    (hfile : ∀ names bytes, d.locate true p ≠ .ok (.present names (.file bytes)))
    (bytes : List UInt8) :
    d.Gains (left (d.write p bytes)) fun names new =>
      new = bytes ∧ (left (d.write p bytes)).locate true p = .ok (.present names (.file new)) := by
  rw [write]
  cases hfound : d.locate true p with
  | error fault => exact .refl d _
  | ok found =>
    cases found with
    | present names e =>
      cases e with
      | file old => exact absurd hfound (hfile names old)
      | link target => exact .refl d _
      | folder es => exact .refl d _
    | absent names =>
      have hentry : d.entry? names = none := entry?_of_locateWithin hfound
      have hfree : d.bare? names = none := bare?_eq_none_iff.mpr hentry
      have hway : d.locateWithin true maxLinks [] p.parts = .ok (.absent names) := by
        rwa [locate, origin, if_neg hp] at hfound
      obtain ⟨inside, last, rfl, hlast, hinside⟩ := parent_of_absent hway d.bare?_root
      have hput := bare?_put_bare hinside (e := .file bytes) (hfree ▸ (Option.some_ne_none _).symm) rfl
        (inside ++ [last])
      rw [if_pos rfl, bare?_eq_file_iff] at hput
      have hgrows : d.Gains (d.put (inside ++ [last]) (.file bytes)) fun _ _ => True :=
        .put hinside hfree hlast rfl (.inr ⟨bytes, rfl, trivial⟩)
      exact .put hinside hfree hlast rfl
        (.inr ⟨bytes, rfl, rfl, hgrows.locate hfound hput fun _ => rfl⟩)

namespace Plain

variable {p : Path} {bytes : List UInt8}

theorem write_of_none (h : d.Plain p) (hparts : p.parts = inside ++ [last])
    (hfolder : d.bare? inside = some (.folder [])) (hnone : d.bare? p.parts = none) :
    d.write p bytes = .ok (d.put p.parts (.file bytes)) := by
  rw [write, h.locate_eq_absent hparts hfolder hnone]

theorem write_of_file (h : d.Plain p) {old : List UInt8} (hfile : d.bare? p.parts = some (.file old)) :
    d.write p bytes = .ok (d.put p.parts (.file bytes)) := by
  rw [write, h.locate_eq_present_iff.mpr ⟨rfl, bare?_eq_file_iff.mp hfile⟩]

theorem write_of_folder (h : d.Plain p) (hfolder : d.bare? p.parts = some (.folder [])) :
    d.write p bytes = .error ⟨⟨.isDirectory, p⟩, d⟩ := by
  obtain ⟨es, hes⟩ := bare?_eq_folder_iff.mp hfolder
  rw [write, h.locate_eq_present_iff.mpr ⟨rfl, hes⟩]

end Plain

/-! ### Ways through new folders -/

/-- Nothing but new folders is reached through a new folder. -/
theorem AddsFolders.not_file (h : d.AddsFolders d') (hdone : d.bare? done = none)
    (hdots : ".." ∉ parts) {bytes : List UInt8} :
    d'.locateWithin follow n done parts ≠ .ok (.present names (.file bytes)) := by
  induction parts generalizing done with
  | nil =>
    rw [locateWithin_nil]
    cases hentry : d'.entry? done with
    | none => exact fun h => nomatch h
    | some e =>
      intro heq
      cases heq
      rcases h.gained _ _ hdone (bare?_eq_file_iff.mpr hentry) with hfolder | ⟨_, -, hnew⟩
      · cases hfolder
      · exact hnew
  | cons name rest ih =>
    obtain ⟨hname, hrest⟩ := List.ne_and_not_mem_of_not_mem_cons hdots
    have hhere : d.bare? (done ++ [name]) = none :=
      bare?_append_eq_none (List.cons_ne_nil _ _) (hdone ▸ (Option.some_ne_none _).symm)
    rw [locateWithin_cons, if_neg (Ne.symm hname)]
    cases hbare : d'.bare? (done ++ [name]) with
    | none =>
      dsimp only
      split <;> exact fun h => nomatch h
    | some e =>
      rcases h.gained _ _ hhere hbare with rfl | ⟨_, -, hnew⟩
      · exact ih hhere hrest
      · exact hnew.elim

/-- The way from `done` along `parts`, with `n` links that may be followed, does not come to nothing. -/
def Leads (d : Disk) (n : Nat) (done parts : List String) : Prop :=
  comesToNothing (d.locateWithin true n done parts) = false

theorem Leads.of_le {m : Nat} (h : d.Leads n done parts) (hm : m ≤ n) : d.Leads m done parts := by
  rw [Leads]
  rcases locateWithin_of_le hm with hsame | hmany
  · rw [hsame]
    exact h
  · rw [hmany]
    rfl

/-- Where such a way goes on after its first name. -/
theorem Leads.step {name : String} {rest : List String} (h : d.Leads n done (name :: rest)) :
    if name = ".." then d.Leads n done.dropLast rest
    else
      match d.bare? (done ++ [name]) with
      | none => False
      | some (.file _) => rest = []
      | some (.folder _) => d.Leads n (done ++ [name]) rest
      | some (.link target) => ∀ m < n,
        d.Leads m (linkStart target done) ((Path.ofString target).parts ++ rest) := by
  rw [Leads, locateWithin_cons] at h
  by_cases hdots : name = ".."
  · rw [if_pos hdots] at h ⊢
    exact h
  · rw [if_neg hdots] at h ⊢
    cases hbare : d.bare? (done ++ [name]) with
    | none =>
      rw [hbare] at h
      dsimp only at h
      split at h <;> cases h
    | some x =>
      rw [hbare] at h
      cases x with
      | folder es => exact h
      | file bytes =>
        dsimp only at h
        split at h
        · exact List.isEmpty_iff.mp ‹_›
        · cases h
      | link target =>
        dsimp only at h
        rw [Bool.not_true, Bool.and_false, if_neg Bool.false_ne_true] at h
        cases n with
        | zero => exact fun m hm => absurd hm (Nat.not_lt_zero m)
        | succ k =>
          have hleads : d.Leads k (linkStart target done) ((Path.ofString target).parts ++ rest) := h
          exact fun m hm => hleads.of_le (Nat.le_of_lt_succ hm)

/-- A link that does not dangle leads on from the folder in which it stands. -/
theorem NoneDangles.leads (h : d.NoneDangles) (hdots : d.NoDots) {name target : String}
    (hlink : d.bare? (done ++ [name]) = some (.link target)) {m : Nat} (hm : m < maxLinks) :
    d.Leads m (linkStart target done) (Path.ofString target).parts := by
  have hsome : (d.bare? (done ++ [name])).isSome := by rw [hlink]; rfl
  have hnames := hdots _ hsome
  rw [List.mem_append, not_or, List.mem_singleton] at hnames
  have hdone : d.bare? ([] ++ done) = some (.folder []) :=
    bare?_of_append (List.cons_ne_nil _ _) hsome
  have hleads : d.Leads maxLinks done [name] := by
    have hway := locateWithin_append hdone hnames.1 true maxLinks [name]
    have hfound := h _ _ (bare?_eq_link_iff.mp hlink)
    rw [Leads, ← List.nil_append done, ← hway]
    exact hfound
  have hstep := hleads.step
  rw [if_neg (Ne.symm hnames.2), hlink] at hstep
  dsimp only at hstep
  rw [List.append_nil] at hstep
  exact hstep m hm

/-- A way whose next name has the same under it on both disks leads to the same, if what is left of it
does. -/
theorem locateWithin_cons_of_same {name : String} {rest : List String} {found : Found}
    (hname : name ≠ "..") (hbare : d.bare? (done ++ [name]) = some e)
    (hbare' : d'.bare? (done ++ [name]) = some e)
    (hfolder : ∀ es, e = .folder es → d'.locateWithin true n (done ++ [name]) rest = .ok found →
      d.locateWithin true n (done ++ [name]) rest = .ok found)
    (hlink : ∀ target, e = .link target → ∀ m < n,
      d'.locateWithin true m (linkStart target done) ((Path.ofString target).parts ++ rest) =
          .ok found →
        d.locateWithin true m (linkStart target done) ((Path.ofString target).parts ++ rest) =
          .ok found)
    (hfound : d'.locateWithin true n done (name :: rest) = .ok found) :
    d.locateWithin true n done (name :: rest) = .ok found := by
  rw [locateWithin_cons, if_neg hname, hbare'] at hfound
  rw [locateWithin_cons, if_neg hname, hbare]
  cases e with
  | folder es => exact hfolder es rfl hfound
  | file bytes => exact hfound
  | link target =>
    dsimp only at hfound ⊢
    rw [Bool.not_true, Bool.and_false, if_neg Bool.false_ne_true] at hfound ⊢
    cases n with
    | zero => exact hfound
    | succ m => exact hlink target rfl m (Nat.lt_succ_self m) hfound

/-- No file is new where folders were added. -/
theorem AddsFolders.file_of_entry? (h : d.AddsFolders d') {bytes : List UInt8}
    (hfile : d'.entry? names = some (.file bytes)) : d.entry? names = some (.file bytes) := by
  rw [← bare?_eq_file_iff] at hfile ⊢
  cases hbare : d.bare? names with
  | none =>
    rcases h.gained _ _ hbare hfile with hfolder | ⟨_, -, hnew⟩
    · cases hfolder
    · exact hnew.elim
  | some e =>
    have hkept := h.keeps _ _ hbare
    rw [hfile] at hkept
    exact hkept.symm

/-- A file that a way without double dots leads to is one that it led to before folders were added:
the way may begin with the rest of a link, which did not come to nothing before. -/
theorem AddsFolders.file_of_locateWithin (h : d.AddsFolders d') (hlinks : d.NoneDangles)
    (hdots : d.NoDots) {bytes : List UInt8} (hn : n ≤ maxLinks) (ahead : List String)
    (hahead : ahead = [] ∨ d.Leads n done ahead) (hparts : ".." ∉ parts)
    (hfound : d'.locateWithin true n done (ahead ++ parts) = .ok (.present names (.file bytes))) :
    d.locateWithin true n done (ahead ++ parts) = .ok (.present names (.file bytes)) := by
  generalize hall : ahead ++ parts = all at hfound ⊢
  induction n, done, all using wayInduction generalizing ahead parts with
  | nil n done =>
    have hfile : d.entry? names = some (.file bytes) :=
      h.file_of_entry? (entry?_of_locateWithin hfound)
    rw [locateWithin_nil] at hfound ⊢
    cases hentry : d'.entry? done with
    | none =>
      rw [hentry] at hfound
      cases hfound
    | some e =>
      rw [hentry] at hfound
      cases hfound
      rw [hfile]
      rfl
  | cons n done name rest ih ihn =>
    cases ahead with
    | cons first ahead =>
      -- what is left of a link's way leads somewhere also from where its first name leads
      obtain ⟨rfl, rfl⟩ := List.cons.inj hall
      have hstep := Leads.step (hahead.resolve_left (List.cons_ne_nil _ _))
      by_cases hname : first = ".."
      · rw [locateWithin_cons, if_pos hname] at hfound ⊢
        rw [if_pos hname] at hstep
        exact ih _ hn ahead (.inr hstep) hparts rfl hfound
      · rw [if_neg hname] at hstep
        cases hbare : d.bare? (done ++ [first]) with
        | none =>
          rw [hbare] at hstep
          exact hstep.elim
        | some x =>
          rw [hbare] at hstep
          refine locateWithin_cons_of_same hname hbare (h.keeps _ _ hbare) ?_ ?_ hfound
          · rintro es rfl hfound
            exact ih _ hn ahead (.inr hstep) hparts rfl hfound
          · rintro target rfl m hm hfound
            exact ihn m hm _ _ (hm.le.trans hn) _ (.inr (hstep m hm)) hparts (List.append_assoc _ _ _)
              hfound
    | nil =>
      rw [List.nil_append] at hall
      subst hall
      obtain ⟨hname, hrest⟩ := List.ne_and_not_mem_of_not_mem_cons hparts
      cases hbare : d.bare? (done ++ [name]) with
      | some x =>
        refine locateWithin_cons_of_same (Ne.symm hname) hbare (h.keeps _ _ hbare) ?_ ?_ hfound
        · rintro es rfl hfound
          exact ih _ hn [] (.inl rfl) hrest rfl hfound
        · rintro target rfl m hm hfound
          exact ihn m hm _ _ (hm.le.trans hn) _ (.inr (hlinks.leads hdots hbare (hm.trans_le hn))) hrest
            rfl hfound
      | none =>
        rw [locateWithin_cons, if_neg (Ne.symm hname)] at hfound ⊢
        rw [hbare]
        cases hbare' : d'.bare? (done ++ [name]) with
        | none =>
          rw [hbare'] at hfound
          exact hfound
        | some x =>
          rw [hbare'] at hfound
          rcases h.gained _ _ hbare hbare' with rfl | ⟨_, -, hnew⟩
          · exact absurd hfound (h.not_file hbare hrest)
          · exact hnew.elim

end SuiteDraft.Disk
