import Mathlib.Data.List.Basic
import Mathlib.Data.String.Basic
import SuiteDraft.Files.Lookup

/-! Paths and their texts, and paths without double dots. -/

namespace SuiteDraft

theorem splitAt_eq_splitOn (sep : Char) (s : List Char) : splitAt sep s = s.splitOn sep := by
  induction s with
  | nil => rfl
  | cons c s ih =>
    rw [List.splitOn, List.splitOnP_cons_eq_if_modifyHead, splitAt, ih, ← List.splitOn]
    refine if_congr Iff.rfl rfl ?_
    cases hs : s.splitOn sep with
    | nil => exact absurd hs (List.splitOnP_ne_nil _ s)
    | cons first others => rfl

theorem not_mem_of_mem_splitAt {sep : Char} {s piece : List Char} (h : piece ∈ splitAt sep s) :
    sep ∉ piece := by
  induction s generalizing piece with
  | nil =>
    rw [List.mem_singleton.mp h]
    exact List.not_mem_nil
  | cons c s ih =>
    rw [splitAt] at h
    split at h
    · rcases List.mem_cons.mp h with rfl | h
      · exact List.not_mem_nil
      · exact ih h
    · rename_i hc
      have hc' : sep ≠ c := fun heq => hc (beq_iff_eq.mpr heq.symm)
      split at h
      · rw [List.mem_singleton.mp h]
        exact fun hmem => hc' (List.mem_singleton.mp hmem)
      · rename_i first others hs
        rcases List.mem_cons.mp h with rfl | h
        · refine fun hmem => (List.mem_cons.mp hmem).elim hc' fun hmem => ?_
          exact ih (hs ▸ List.mem_cons_self) hmem
        · exact ih (hs ▸ List.mem_cons_of_mem _ h)

attribute [ext] Path

namespace Path

/-- A name along a path in its normal form. -/
def IsStep (name : String) : Prop := name ≠ "" ∧ '/' ∉ name.toList ∧ name ≠ "."

instance (name : String) : Decidable (IsStep name) := inferInstanceAs (Decidable (_ ∧ _))

theorem partsOf_slash (s : List Char) : partsOf ('/' :: s) = partsOf s := by
  rw [partsOf, splitAt, beq_self_eq_true, if_pos rfl, List.filter_cons_of_neg (by decide), partsOf]

theorem partsOf_intercalate {parts : List String} (h : ∀ name ∈ parts, IsStep name) :
    partsOf (['/'].intercalate (parts.map String.toList)) = parts := by
  cases parts with
  | nil => rfl
  | cons name parts =>
    have hslash : ∀ piece ∈ (name :: parts).map String.toList, '/' ∉ piece := by
      intro piece hpiece
      obtain ⟨other, hother, rfl⟩ := List.mem_map.mp hpiece
      exact (h other hother).2.1
    have hkept : ∀ piece ∈ (name :: parts).map String.toList,
        (!piece.isEmpty && piece != ['.']) = true := by
      intro piece hpiece
      obtain ⟨other, hother, rfl⟩ := List.mem_map.mp hpiece
      obtain ⟨hempty, -, hdot⟩ := h other hother
      have hempty' : other.toList ≠ [] := fun heq => hempty (String.toList_inj.mp heq)
      have hdot' : other.toList ≠ ['.'] := fun heq => hdot (String.toList_inj.mp heq)
      simp [hempty', hdot']
    have hsplit := List.splitOn_intercalate '/' hslash (List.cons_ne_nil _ _)
    rw [partsOf, splitAt_eq_splitOn, hsplit, List.filter_eq_self.mpr hkept, List.map_map]
    exact (List.map_congr_left fun other _ => String.ofList_toList).trans (List.map_id _)

theorem isStep_of_mem_partsOf {s : List Char} {name : String} (h : name ∈ partsOf s) :
    IsStep name := by
  obtain ⟨piece, hpiece, rfl⟩ := List.mem_map.mp h
  obtain ⟨hmem, hkept⟩ := List.mem_filter.mp hpiece
  rw [Bool.and_eq_true, Bool.not_eq_true', bne_iff_ne] at hkept
  refine ⟨fun heq => ?_, ?_, fun heq => hkept.2 ?_⟩
  · rw [← String.toList_inj, String.toList_ofList] at heq
    rw [heq] at hkept
    cases hkept.1
  · rw [String.toList_ofList]
    exact not_mem_of_mem_splitAt hmem
  · rw [← String.toList_inj, String.toList_ofList] at heq
    exact heq

theorem isStep_of_mem_ofString {s name : String} (h : name ∈ (ofString s).parts) : IsStep name :=
  isStep_of_mem_partsOf h

/-- The joined names of a path do not begin with a slash. -/
theorem head?_intercalate_ne {parts : List String} (h : ∀ name ∈ parts, IsStep name) :
    (['/'].intercalate (parts.map String.toList)).head? ≠ some '/' := by
  cases parts with
  | nil => simp
  | cons name parts =>
    obtain ⟨hempty, hslash, -⟩ := h name List.mem_cons_self
    have hname : name.toList.head? ≠ some '/' := fun heq => hslash (List.mem_of_head? heq)
    have hne : name.toList ≠ [] := fun heq => hempty (String.toList_inj.mp heq)
    cases parts with
    | nil => rwa [List.map_singleton, List.intercalate_singleton]
    | cons next parts =>
      rwa [List.map_cons, List.map_cons, List.intercalate_cons_cons, List.append_assoc,
        List.head?_append_of_ne_nil _ hne]

/-- The slashes in front of a text tell the anchor of its path. -/
theorem ofString_slashes {s : List Char} (h : s.head? ≠ some '/') (anchor : Anchor) :
    ofString (String.ofList ((Anchor.slashes anchor).toList ++ s)) = ⟨anchor, partsOf s⟩ := by
  have hs : ∀ rest, s ≠ '/' :: rest := fun rest heq => h (heq ▸ rfl)
  rw [ofString, String.toList_ofList]
  cases anchor with
  | here =>
    have htext : (Anchor.slashes .here).toList ++ s = s := rfl
    rw [htext]
    refine congrArg₂ Path.mk ?_ rfl
    split
    · exact (hs _ rfl).elim
    · exact (hs _ rfl).elim
    · exact (hs _ rfl).elim
    · rfl
  | root =>
    have htext : (Anchor.slashes .root).toList ++ s = '/' :: s := rfl
    rw [htext]
    refine congrArg₂ Path.mk ?_ (partsOf_slash s)
    split
    · rfl
    · rename_i heq
      exact (hs _ (List.cons.inj heq).2).elim
    · rfl
    · rename_i hne
      exact (hne s rfl).elim
  | doubleRoot =>
    have htext : (Anchor.slashes .doubleRoot).toList ++ s = '/' :: '/' :: s := rfl
    rw [htext]
    refine congrArg₂ Path.mk ?_ ((partsOf_slash _).trans (partsOf_slash s))
    split
    · rename_i heq
      exact (hs _ (List.cons.inj (List.cons.inj heq).2).2).elim
    · rfl
    · rename_i hne heq
      exact (hne s (List.cons.inj heq).2.symm).elim
    · rename_i hne
      exact (hne _ rfl).elim

/-- A path in its normal form is the path of its text. -/
theorem ofString_toString {p : Path} (h : ∀ name ∈ p.parts, IsStep name) :
    ofString p.toString = p := by
  have hslashes := ofString_slashes (head?_intercalate_ne h) p.anchor
  rw [partsOf_intercalate h] at hslashes
  have htext : Anchor.slashes p.anchor ++ "/".intercalate p.parts = String.ofList
      ((Anchor.slashes p.anchor).toList ++ ['/'].intercalate (p.parts.map String.toList)) := by
    rw [← String.toList_inj, String.toList_ofList, String.toList_append, String.toList_intercalate]
    rfl
  rw [toString, htext]
  split
  · rename_i hempty
    rw [String.isEmpty_iff] at hempty
    rw [hempty] at hslashes
    exact hslashes
  · exact hslashes

end Path

namespace Disk

/-- Taking out the double dots leaves none, and adds no name. -/
theorem mem_withoutDots {names : List String} {name : String} (h : name ∈ withoutDots names) :
    name ∈ names ∧ name ≠ ".." := by
  have hrun : ∀ n ∈ withoutDots names, n ∈ names ∧ n ≠ ".." := by
    refine List.foldlRecOn (motive := fun done => ∀ n ∈ done, n ∈ names ∧ n ≠ "..") names _
      (fun n hn => absurd hn List.not_mem_nil) fun done hdone next hnext n hn => ?_
    split at hn
    · exact hdone n ((List.dropLast_sublist done).subset hn)
    · rename_i hdots
      rcases List.mem_append.mp hn with hn | hn
      · exact hdone n hn
      · rw [List.mem_singleton.mp hn]
        exact ⟨hnext, hdots⟩
  exact hrun name h

theorem withoutDots_of_noDots {parts : List String} (hdots : ".." ∉ parts) :
    withoutDots parts = parts := by
  have hrun : ∀ done : List String, parts.foldl
      (fun done n => if n = ".." then done.dropLast else done ++ [n]) done = done ++ parts := by
    induction parts with
    | nil => exact fun done => (List.append_nil done).symm
    | cons name rest ih =>
      obtain ⟨hname, hrest⟩ := List.ne_and_not_mem_of_not_mem_cons hdots
      intro done
      rw [List.foldl_cons, if_neg (Ne.symm hname), ih hrest, ← List.append_cons]
  exact hrun []

end Disk

end SuiteDraft
