import SuiteDraft.Proofs.Files.Entries

/-!
# Disks up to tests

A disk is taken without the folders for tests that lie below the names of interest. What is put into
such a folder, and such a folder itself, changes nothing of this.
-/

namespace SuiteDraft

namespace Entry

mutual

-- An entry without the folders for tests in it.
def withoutTests : Entry → Entry
  | file bytes => file bytes
  | link target => link target
  | folder es => folder (withoutTestsIn es)

def withoutTestsIn : List (String × Entry) → List (String × Entry)
  | [] => []
  | (name, e) :: rest =>
    if name = "__tests__" ∧ e.isFolder then withoutTestsIn rest
    else (name, withoutTests e) :: withoutTestsIn rest

end

variable {change : Folder → Folder}

@[simp] theorem bare_withoutTests (e : Entry) : e.withoutTests.bare = e.bare := by cases e <;> rfl

theorem get?_withoutTestsIn {name : String} (h : name ≠ "__tests__") (es : Folder) :
    Keyed.get? (withoutTestsIn es) name = (Keyed.get? es name).map withoutTests := by
  induction es with
  | nil => rfl
  | cons x es ih =>
    obtain ⟨other, e⟩ := x
    rw [withoutTestsIn]
    by_cases hname : name = other
    · subst hname
      rw [if_neg fun ⟨htests, _⟩ => h htests, Keyed.get?_cons_self, Keyed.get?_cons_self]
      rfl
    · rw [Keyed.get?_cons_of_ne hname, ← ih]
      split
      · rfl
      · rw [Keyed.get?_cons_of_ne hname]

/-- Away from folders for tests, an entry is the same without them. -/
theorem at?_withoutTests {names : List String} (h : "__tests__" ∉ names) (e : Entry) :
    e.withoutTests.at? names = (e.at? names).map withoutTests := by
  induction names generalizing e with
  | nil => rfl
  | cons name names ih =>
    obtain ⟨hname, hnames⟩ := List.ne_and_not_mem_of_not_mem_cons h
    cases e with
    | file bytes => rfl
    | link target => rfl
    | folder es =>
      rw [withoutTests, at?_folder, at?_folder, get?_withoutTestsIn hname.symm]
      cases Keyed.get? es name with
      | none => rfl
      | some child => exact ih hnames child

/-- Putting an entry in another's place is not seen if they are the same without tests, or both are the
folder for tests. -/
theorem withoutTestsIn_put {es : Folder} {name : String} {e child : Entry}
    (hchild : Keyed.get? es name = some child) (hfolder : e.isFolder = child.isFolder)
    (hsame : e.withoutTests = child.withoutTests ∨ name = "__tests__" ∧ child.isFolder = true) :
    withoutTestsIn (Keyed.put es name e) = withoutTestsIn es := by
  induction es with
  | nil => cases hchild
  | cons x es ih =>
    obtain ⟨other, found⟩ := x
    rw [Keyed.put]
    by_cases hname : other = name
    · subst hname
      rw [Keyed.get?_cons_self] at hchild
      cases hchild
      rw [if_pos rfl, withoutTestsIn, withoutTestsIn, hfolder]
      split
      · rfl
      · rename_i hkept
        rw [hsame.resolve_right hkept]
    · rw [Keyed.get?_cons_of_ne (Ne.symm hname)] at hchild
      rw [if_neg hname, withoutTestsIn, withoutTestsIn, ih hchild]

theorem withoutTestsIn_put_new {es : Folder} (h : Keyed.get? es "__tests__" = none) (inside : Folder) :
    withoutTestsIn (Keyed.put es "__tests__" (folder inside)) = withoutTestsIn es := by
  induction es with
  | nil => rfl
  | cons x es ih =>
    obtain ⟨other, found⟩ := x
    rw [Keyed.put]
    by_cases hname : other = "__tests__"
    · subst hname
      rw [Keyed.get?_cons_self] at h
      cases h
    · rw [Keyed.get?_cons_of_ne (Ne.symm hname)] at h
      rw [if_neg hname, withoutTestsIn, withoutTestsIn, ih h]

theorem isFolder_changeAt (names : List String) (e : Entry) :
    (changeAt change names e).isFolder = e.isFolder := by
  rw [← isFolder_bare, bare_changeAt, isFolder_bare]

/-- A change on the way is not seen if it is not seen where the way has come to. -/
theorem withoutTests_changeAt_append (names more : List String) (e : Entry)
    (h : ∀ found, e.at? names = some found →
      (changeAt change more found).withoutTests = found.withoutTests) :
    (changeAt change (names ++ more) e).withoutTests = e.withoutTests := by
  induction names generalizing e with
  | nil => exact h e rfl
  | cons name names ih =>
    cases e with
    | file bytes => rfl
    | link target => rfl
    | folder es =>
      rw [List.cons_append, changeAt]
      cases hchild : Keyed.get? es name with
      | none => rfl
      | some child =>
        have hsame := ih child fun found hfound => h found (by rw [at?_folder, hchild]; exact hfound)
        dsimp only
        rw [withoutTests, withoutTests,
          withoutTestsIn_put hchild (isFolder_changeAt _ _) (.inl hsame)]

/-- What changes in the folder for tests is not seen. -/
theorem withoutTests_changeAt_tests (e : Entry) :
    (changeAt change ["__tests__"] e).withoutTests = e.withoutTests := by
  cases e with
  | file bytes => rfl
  | link target => rfl
  | folder es =>
    rw [changeAt]
    cases hchild : Keyed.get? es "__tests__" with
    | none => rfl
    | some child =>
      have hsame : (changeAt change [] child).withoutTests = child.withoutTests ∨
          "__tests__" = "__tests__" ∧ child.isFolder = true := by
        cases hfolder : child.isFolder with
        | true => exact .inr ⟨rfl, rfl⟩
        | false => exact .inl (by rw [changeAt_of_not_isFolder hfolder])
      dsimp only
      rw [withoutTests, withoutTests, withoutTestsIn_put hchild (isFolder_changeAt _ _) hsame]

end Entry

namespace Disk

/-- Two disks are the same but for folders for tests below the folder at `root`. -/
structure SameOutside (d d' : Disk) (root : List String) : Prop where
  current : d'.current = d.current
  entry : ∀ before, before <+: root →
    (d'.entry? before).map Entry.withoutTests = (d.entry? before).map Entry.withoutTests

namespace SameOutside

variable {d d' : Disk} {root : List String}

theorem refl (d : Disk) (root : List String) : d.SameOutside d root := ⟨rfl, fun _ _ => rfl⟩

theorem trans {d₁ d₂ d₃ : Disk} (h : d₁.SameOutside d₂ root) (h' : d₂.SameOutside d₃ root) :
    d₁.SameOutside d₃ root where
  current := h'.current.trans h.current
  entry before hbefore := (h'.entry before hbefore).trans (h.entry before hbefore)

/-- Outside of folders for tests, the same stands on both. -/
theorem bare? (h : d.SameOutside d' root) {before rest : List String} (hbefore : before <+: root)
    (hrest : "__tests__" ∉ rest) : d'.bare? (before ++ rest) = d.bare? (before ++ rest) := by
  have hview : ∀ d : Disk, d.bare? (before ++ rest) =
      ((((d.entry? before).map Entry.withoutTests).bind (·.at? rest)).map Entry.bare) := by
    intro d
    rw [Disk.bare?, entry?_append]
    cases d.entry? before with
    | none => rfl
    | some e =>
      rw [Option.map_some, Option.bind_some, Option.bind_some, Entry.at?_withoutTests hrest,
        Option.map_map]
      exact Option.map_congr fun x _ => (Entry.bare_withoutTests x).symm
  rw [hview, hview, h.entry before hbefore]

/-- A change that is not seen at the end of a way below the folder is not seen at all. -/
theorem changeAt {change : Folder → Folder} (rest more : List String)
    (h : ∀ found, d.entry? (root ++ rest) = some found →
      (Entry.changeAt change more found).withoutTests = found.withoutTests) :
    d.SameOutside (d.changeAt (root ++ rest ++ more) change) root where
  current := rfl
  entry := by
    rintro before ⟨after, rfl⟩
    rw [entry?_changeAt, List.append_assoc, List.append_assoc, Entry.at?_changeAt_append, ← Disk.entry?,
      Option.map_map]
    refine Option.map_congr fun e he => ?_
    rw [Function.comp_apply, ← List.append_assoc]
    refine Entry.withoutTests_changeAt_append _ _ _ fun found hfound => h found ?_
    rw [List.append_assoc, entry?_append, he]
    exact hfound

end SameOutside

end Disk

end SuiteDraft
