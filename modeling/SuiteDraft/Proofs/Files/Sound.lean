import SuiteDraft.Proofs.Files.Entries
import SuiteDraft.Proofs.Keyed
import SuiteDraft.Proofs.Path

/-!
# Sound disks

A disk as a file system keeps it: a folder gives each of its names once, and these are names that can
stand in a path. Whether a disk is sound, or has links, can be computed from the list of its places.
-/

namespace SuiteDraft

namespace Entry

def isLink : Entry → Bool
  | link _ => true
  | _ => false

mutual

-- Every entry in an entry, itself included, each with the names that lead to it.
def places (names : List String) : Entry → List (List String × Entry)
  | file bytes => [(names, file bytes)]
  | link target => [(names, link target)]
  | folder es => (names, folder es) :: placesIn names es

def placesIn (names : List String) : List (String × Entry) → List (List String × Entry)
  | [] => []
  | (name, e) :: rest => places (names ++ [name]) e ++ placesIn names rest

end

theorem mem_placesIn {names : List String} {es : List (String × Entry)} {name : String}
    {child : Entry} (h : (name, child) ∈ es) {place : List String × Entry}
    (hplace : place ∈ places (names ++ [name]) child) : place ∈ placesIn names es := by
  induction es with
  | nil => cases h
  | cons e es ih =>
    rw [placesIn]
    rcases List.mem_cons.mp h with rfl | h
    · exact List.mem_append_left _ hplace
    · exact List.mem_append_right _ (ih h)

theorem mem_places {e found : Entry} {names rest : List String} (h : e.at? rest = some found) :
    (names ++ rest, found) ∈ e.places names := by
  induction rest generalizing e names with
  | nil =>
    cases h
    rw [List.append_nil]
    cases found <;> exact List.mem_cons_self
  | cons name rest ih =>
    rw [at?_cons] at h
    obtain ⟨child, hchild, hfound⟩ := Option.bind_eq_some_iff.mp h
    rw [List.append_cons]
    cases e with
    | file bytes => cases hchild
    | link target => cases hchild
    | folder es =>
      exact List.mem_cons_of_mem _ (mem_placesIn (Keyed.mem_of_get? hchild) (ih hfound))

end Entry

/-- A name that a folder can give. -/
def IsName (name : String) : Prop := Path.IsStep name ∧ name ≠ ".."

instance (name : String) : Decidable (IsName name) := inferInstanceAs (Decidable (_ ∧ _))

/-- A path that the paths of files on a disk look like: from the root, of names that folders give. -/
structure Path.Named (p : Path) : Prop where
  anchored : p.anchor ≠ .here
  names : ∀ name ∈ p.parts, IsName name

namespace Path.Named

variable {p : Path}

theorem noDots (h : p.Named) : ".." ∉ p.parts := fun hdots => (h.names _ hdots).2 rfl

theorem noDots_parent (h : p.Named) : ".." ∉ p.parts.dropLast :=
  fun hdots => h.noDots ((List.dropLast_sublist _).subset hdots)

theorem ofString_toString (h : p.Named) : ofString p.toString = p :=
  Path.ofString_toString fun name hname => (h.names name hname).1

end Path.Named

namespace Disk

variable {d : Disk} {names : List String}

def places (d : Disk) : List (List String × Entry) := (Entry.folder d.root).places []

theorem mem_places {e : Entry} (h : d.entry? names = some e) : (names, e) ∈ d.places := by
  have hmem : ([] ++ names, e) ∈ d.places := Entry.mem_places h
  exact hmem

/-- A disk as a file system keeps it. -/
structure Sound (d : Disk) : Prop where
  isName : ∀ {names es}, d.entry? names = some (.folder es) → ∀ name ∈ Keyed.names es, IsName name
  nodup : ∀ {names es}, d.entry? names = some (.folder es) → (Keyed.names es).Nodup
  current : ∀ name ∈ d.current, IsName name

theorem sound_of_places (hplaces : ∀ place ∈ d.places, (Keyed.names place.2.entries).Nodup ∧
    ∀ name ∈ Keyed.names place.2.entries, IsName name)
    (hcurrent : ∀ name ∈ d.current, IsName name) : d.Sound where
  isName h := (hplaces _ (mem_places h)).2
  nodup h := (hplaces _ (mem_places h)).1
  current := hcurrent

/-- A lookup comes to where nothing is, at its end or on the way. One that meets too many links does not:
it comes to no end. -/
def comesToNothing : Except Fault Found → Bool
  | .ok (.present _ _) | .error .tooManyLinks => false
  | _ => true

theorem comesToNothing_eq_false_iff {outcome : Except Fault Found} :
    comesToNothing outcome = false ↔
      (∃ names e, outcome = .ok (.present names e)) ∨ outcome = .error .tooManyLinks := by
  constructor
  · intro h
    cases outcome with
    | ok found =>
      cases found with
      | present names e => exact .inl ⟨names, e, rfl⟩
      | absent names => cases h
    | error fault =>
      cases fault with
      | tooManyLinks => exact .inr rfl
      | missing => cases h
      | present => cases h
      | notDirectory => cases h
      | isDirectory => cases h
  · rintro (⟨names, e, rfl⟩ | rfl) <;> rfl

/-- No link stands below names. -/
def LinkFreeBelow (d : Disk) (names : List String) : Prop :=
  ∀ rest target, d.entry? (names ++ rest) ≠ some (.link target)

theorem LinkFreeBelow.append (h : d.LinkFreeBelow names) (more : List String) :
    d.LinkFreeBelow (names ++ more) := fun rest target => by
  rw [List.append_assoc]
  exact h (more ++ rest) target

/-- No link stands anywhere. -/
def LinkFree (d : Disk) : Prop := d.LinkFreeBelow []

theorem linkFree_of_places (h : ∀ place ∈ d.places, place.2.isLink = false) : d.LinkFree :=
  fun _ _ hlink => Bool.noConfusion (h _ (mem_places hlink))

/-- No link dangles: each leads to something, or to no end at all. -/
def NoneDangles (d : Disk) : Prop :=
  ∀ names target, d.entry? names = some (.link target) →
    comesToNothing (d.locate true ⟨.root, names⟩) = false

theorem noneDangles_of_places (h : ∀ place ∈ d.places, place.2.isLink = true →
    comesToNothing (d.locate true ⟨.root, place.1⟩) = false) : d.NoneDangles :=
  fun _ _ hlink => h _ (mem_places hlink) rfl

/-- No double dots lead to anything. -/
def NoDots (d : Disk) : Prop := ∀ names, (d.bare? names).isSome → ".." ∉ names

theorem Sound.isName_of_mem (h : d.Sound) (hnames : (d.bare? names).isSome) :
    ∀ name ∈ names, IsName name := by
  -- From the right: the last name is one of the folder that the others lead to.
  induction names using List.reverseRecOn with
  | nil => exact fun name hname => absurd hname List.not_mem_nil
  | append_singleton names last ih =>
    have hfolder : d.bare? names = some (.folder []) := bare?_of_append (List.cons_ne_nil _ _) hnames
    obtain ⟨es, hes⟩ := bare?_eq_folder_iff.mp hfolder
    intro name hname
    rcases List.mem_append.mp hname with hname | hname
    · exact ih (hfolder ▸ rfl) name hname
    · rw [bare?, Option.isSome_map, entry?_append, hes, Option.bind_some, Entry.at?_folder] at hnames
      obtain ⟨e, he⟩ := Option.isSome_iff_exists.mp hnames
      obtain ⟨child, hchild, -⟩ := Option.bind_eq_some_iff.mp he
      rw [List.mem_singleton.mp hname]
      exact h.isName hes last (List.mem_map_of_mem (Keyed.mem_of_get? hchild))

theorem Sound.noDots (h : d.Sound) : d.NoDots :=
  fun _ hnames hdots => (h.isName_of_mem hnames _ hdots).2 rfl

theorem Sound.named_absolute (h : d.Sound) (text : String) :
    (d.absolute (.ofString text)).Named := by
  have hparts : ∀ name ∈ (Path.join ⟨.root, d.current⟩ (.ofString text)).parts, Path.IsStep name := by
    intro name hname
    rw [Path.join] at hname
    split at hname
    · rcases List.mem_append.mp hname with hname | hname
      · exact (h.current name hname).1
      · exact Path.isStep_of_mem_ofString hname
    · exact Path.isStep_of_mem_ofString hname
  refine ⟨?_, fun name hname => ?_⟩
  · change (Path.join ⟨.root, d.current⟩ (.ofString text)).anchor ≠ .here
    rw [Path.join]
    split
    · exact fun h => nomatch h
    · assumption
  · obtain ⟨hmem, hdots⟩ := mem_withoutDots hname
    exact ⟨hparts name hmem, hdots⟩

end Disk

end SuiteDraft
