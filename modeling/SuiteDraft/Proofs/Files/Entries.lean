import Mathlib.Data.List.Infix
import SuiteDraft.Files.Disk

/-!
# What stands on a disk

A disk is looked at name by name: `Disk.bare?` tells what stands at the end of names, a folder without
what is in it. Putting an entry somewhere changes this view there and nowhere else.
-/

namespace SuiteDraft

namespace Entry

/-- An entry by itself: a folder without what is in it. -/
def bare : Entry → Entry
  | folder _ => folder []
  | e => e

/-- Induction over entries: what holds of all that is in a folder holds of the folder. -/
theorem induction {motive : Entry → Prop} (file : ∀ bytes, motive (file bytes))
    (link : ∀ target, motive (link target))
    (folder : ∀ es : List (String × Entry), (∀ x ∈ es, motive x.2) → motive (folder es)) :
    ∀ e, motive e
  | .file bytes => file bytes
  | .link target => link target
  | .folder es => folder es fun x _ => induction file link folder x.2
termination_by e => sizeOf e
decreasing_by
  obtain ⟨name, e⟩ := x
  have hlist := List.sizeOf_lt_of_mem ‹(name, e) ∈ es›
  simp only [Prod.mk.sizeOf_spec, Entry.folder.sizeOf_spec] at hlist ⊢
  omega

variable {change : Folder → Folder}

@[simp] theorem isFolder_bare (e : Entry) : e.bare.isFolder = e.isFolder := by cases e <;> rfl

theorem bare_eq_file_iff {e : Entry} {bytes : List UInt8} :
    e.bare = file bytes ↔ e = file bytes := by
  cases e <;> simp [bare]

theorem bare_eq_link_iff {e : Entry} {target : String} :
    e.bare = link target ↔ e = link target := by
  cases e <;> simp [bare]

theorem at?_cons (e : Entry) (name : String) (rest : List String) :
    e.at? (name :: rest) = (Keyed.get? e.entries name).bind (·.at? rest) := by
  rw [at?]
  cases Keyed.get? e.entries name <;> rfl

theorem at?_folder (es : Folder) (name : String) (rest : List String) :
    (folder es).at? (name :: rest) = (Keyed.get? es name).bind (·.at? rest) := at?_cons _ name rest

theorem at?_append (e : Entry) (names more : List String) :
    e.at? (names ++ more) = (e.at? names).bind (·.at? more) := by
  induction names generalizing e with
  | nil => rw [List.nil_append, at?, Option.bind_some]
  | cons name names ih =>
    rw [List.cons_append, at?_cons, at?_cons, Option.bind_assoc]
    exact Option.bind_congr fun child _ => ih child

theorem changeAt_of_not_isFolder {e : Entry} (h : e.isFolder = false) (names : List String) :
    changeAt change names e = e := by
  cases e with
  | folder es => cases h
  | file bytes => cases names <;> rfl
  | link target => cases names <;> rfl

@[simp] theorem bare_changeAt (names : List String) (e : Entry) :
    (changeAt change names e).bare = e.bare := by
  cases e with
  | file bytes => rw [changeAt_of_not_isFolder rfl]
  | link target => rw [changeAt_of_not_isFolder rfl]
  | folder es =>
    cases names with
    | nil => rfl
    | cons name names =>
      rw [changeAt]
      split <;> rfl

/-- What a change at the end of names makes of an entry on the way. -/
theorem at?_changeAt_append (names more : List String) (e : Entry) :
    (changeAt change (names ++ more) e).at? names = (e.at? names).map (changeAt change more) := by
  induction names generalizing e with
  | nil => rfl
  | cons name names ih =>
    cases e with
    | file bytes => rfl
    | link target => rfl
    | folder es =>
      rw [List.cons_append, changeAt, at?_folder]
      cases hchild : Keyed.get? es name with
      | none =>
        rw [at?_folder, hchild]
        rfl
      | some child =>
        rw [at?_folder, Keyed.get?_put_self]
        exact ih child

/-- A change at the end of names is not seen at the end of others, but for what lies in folders. -/
theorem at?_changeAt_of_not_prefix {names path : List String} (h : ¬ names <+: path) (e : Entry) :
    ((changeAt change names e).at? path).map bare = (e.at? path).map bare := by
  induction names generalizing e path with
  | nil => exact absurd List.nil_prefix h
  | cons name names ih =>
    cases path with
    | nil => exact congrArg some (bare_changeAt _ e)
    | cons other path =>
      cases e with
      | file bytes => rfl
      | link target => rfl
      | folder es =>
        rw [changeAt]
        cases hchild : Keyed.get? es name with
        | none => rfl
        | some child =>
          rw [at?_folder, at?_folder]
          by_cases hname : other = name
          · subst hname
            rw [Keyed.get?_put_self, hchild]
            exact ih (fun hnames => h (List.cons_prefix_cons.mpr ⟨rfl, hnames⟩)) child
          · rw [Keyed.get?_put_of_ne _ _ hname]

end Entry

namespace Disk

variable {d : Disk} {names path : List String} {name : String} {e : Entry}

/-- What stands at the end of names, a folder without what is in it. -/
def bare? (d : Disk) (names : List String) : Option Entry := (d.entry? names).map Entry.bare

theorem entry?_append (d : Disk) (names more : List String) :
    d.entry? (names ++ more) = (d.entry? names).bind (·.at? more) :=
  Entry.at?_append _ names more

theorem bare?_eq_none_iff : d.bare? names = none ↔ d.entry? names = none := by
  rw [bare?, Option.map_eq_none_iff]

theorem bare?_eq_file_iff {bytes : List UInt8} :
    d.bare? names = some (.file bytes) ↔ d.entry? names = some (.file bytes) := by
  simp only [bare?, Option.map_eq_some_iff, Entry.bare_eq_file_iff, exists_eq_right]

theorem bare?_eq_link_iff {target : String} :
    d.bare? names = some (.link target) ↔ d.entry? names = some (.link target) := by
  simp only [bare?, Option.map_eq_some_iff, Entry.bare_eq_link_iff, exists_eq_right]

theorem bare?_eq_folder_iff :
    d.bare? names = some (.folder []) ↔ ∃ es, d.entry? names = some (.folder es) := by
  rw [bare?, Option.map_eq_some_iff]
  constructor
  · rintro ⟨e, he, hbare⟩
    cases e with
    | folder es => exact ⟨es, he⟩
    | file bytes => cases hbare
    | link target => cases hbare
  · rintro ⟨es, he⟩
    exact ⟨_, he, rfl⟩

theorem bare?_folder_nil {es : Folder} (h : d.bare? names = some (.folder es)) :
    d.bare? names = some (.folder []) := by
  obtain ⟨e, he, hbare⟩ := Option.map_eq_some_iff.mp h
  cases e with
  | folder es' => exact bare?_eq_folder_iff.mpr ⟨es', he⟩
  | file bytes => cases hbare
  | link target => cases hbare

theorem bare?_root (d : Disk) : d.bare? [] = some (.folder []) := rfl

/-- What stands below a name stands in a folder. -/
theorem bare?_of_append {more : List String} (hmore : more ≠ [])
    (h : (d.bare? (names ++ more)).isSome) : d.bare? names = some (.folder []) := by
  rw [bare?, Option.isSome_map, entry?_append, Option.isSome_bind] at h
  rw [bare?_eq_folder_iff]
  cases hentry : d.entry? names with
  | none =>
    rw [hentry] at h
    cases h
  | some e =>
    cases e with
    | folder es => exact ⟨es, rfl⟩
    | file bytes =>
      rw [hentry] at h
      obtain ⟨name, rest, rfl⟩ := List.exists_cons_of_ne_nil hmore
      cases h
    | link target =>
      rw [hentry] at h
      obtain ⟨name, rest, rfl⟩ := List.exists_cons_of_ne_nil hmore
      cases h

theorem bare?_append_eq_none {more : List String} (hmore : more ≠ [])
    (h : d.bare? names ≠ some (.folder [])) : d.bare? (names ++ more) = none := by
  rw [← Option.not_isSome_iff_eq_none]
  exact fun hsome => h (bare?_of_append hmore hsome)

theorem put_eq_changeAt (d : Disk) (names : List String) (name : String) (e : Entry) :
    d.put (names ++ [name]) e = d.changeAt names fun es => Keyed.put es name e := by
  rw [put, List.dropLast_concat, List.getLastD_concat]

theorem entry?_changeAt (d : Disk) (names path : List String) (change : Folder → Folder) :
    Disk.entry? (d.changeAt names change) path = ((Entry.folder d.root).changeAt change names).at? path := by
  have hroot : Entry.folder ((Entry.folder d.root).changeAt change names).entries =
      (Entry.folder d.root).changeAt change names := by
    cases names with
    | nil => rfl
    | cons name names =>
      rw [Entry.changeAt]
      split <;> rfl
  rw [changeAt, Disk.entry?, hroot]

/-- What an entry changes that is put in a folder. -/
theorem bare?_put (hfolder : d.bare? names = some (.folder [])) (name : String) (e : Entry)
    (path : List String) :
    (d.put (names ++ [name]) e).bare? path =
      if names ++ [name] <+: path then (e.at? (path.drop (names.length + 1))).map Entry.bare
      else d.bare? path := by
  rw [bare?, put_eq_changeAt, entry?_changeAt]
  by_cases hnames : names <+: path
  · obtain ⟨rest, rfl⟩ := hnames
    obtain ⟨es, hes⟩ := bare?_eq_folder_iff.mp hfolder
    have hself : ((Entry.folder d.root).changeAt (Keyed.put · name e) (names ++ [])).at? names = _ :=
      Entry.at?_changeAt_append names [] _
    rw [List.append_nil, ← entry?, hes] at hself
    rw [Entry.at?_append, hself, bare?, entry?_append, hes]
    cases rest with
    | nil =>
      rw [List.append_nil, if_neg fun h => absurd h.length_le (by simp)]
      rfl
    | cons other rest =>
      have hbefore : names ++ [name] <+: names ++ other :: rest ↔ name = other := by
        rw [List.prefix_append_right_inj, List.cons_prefix_cons]
        exact and_iff_left List.nil_prefix
      have hdrop : (names ++ other :: rest).drop (names.length + 1) = rest := by
        rw [← List.drop_drop, List.drop_left]
        rfl
      rw [hdrop]
      simp only [hbefore, Option.map_some, Option.bind_some, Entry.changeAt, Entry.at?_folder]
      rw [Keyed.get?_put]
      split <;> rfl
  · have hlonger : ¬ names ++ [name] <+: path :=
      fun h => hnames ((List.prefix_append names [name]).trans h)
    rw [if_neg hlonger, bare?]
    exact Entry.at?_changeAt_of_not_prefix hnames _

/-- A file, or a folder with nothing in it, put in a folder where no folder stands, changes what stands
there alone. -/
theorem bare?_put_bare (hfolder : d.bare? names = some (.folder []))
    (hfree : d.bare? (names ++ [name]) ≠ some (.folder [])) (he : e.bare = e) (path : List String) :
    (d.put (names ++ [name]) e).bare? path =
      if path = names ++ [name] then some e else d.bare? path := by
  rw [bare?_put hfolder]
  by_cases hbefore : names ++ [name] <+: path
  · obtain ⟨rest, rfl⟩ := hbefore
    have hdrop : (names ++ [name] ++ rest).drop (names.length + 1) = rest := by
      rw [← List.length_concat (a := name), List.concat_eq_append, List.drop_left]
    rw [if_pos (List.prefix_append _ _), hdrop]
    cases rest with
    | nil => rw [List.append_nil, if_pos rfl, Entry.at?, Option.map_some, he]
    | cons other rest =>
      have hne : names ++ [name] ++ other :: rest ≠ names ++ [name] := by simp
      have hempty : e.at? (other :: rest) = none := by
        cases e with
        | file bytes => rfl
        | link target => rfl
        | folder es =>
          rw [← he]
          rfl
      rw [hempty, if_neg hne, bare?_append_eq_none (List.cons_ne_nil _ _) hfree]
      rfl
  · have hne : path ≠ names ++ [name] := fun h => hbefore (h ▸ List.prefix_refl _)
    rw [if_neg hbefore, if_neg hne]

end Disk

end SuiteDraft
