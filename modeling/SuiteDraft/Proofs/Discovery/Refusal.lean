import SuiteDraft.Proofs.Discovery.Gathering
import SuiteDraft.Proofs.Ignore.Refusal

/-!
# When a scan comes to nothing

Where all ignore files can be read, a scan finds its files unless a line of one of them is refused; then it
finds nothing at all. The other lines that give no rule have no say.
-/

namespace SuiteDraft

namespace Ignore

/-- A line that gives a rule, or is refused. -/
def Matters (way line : List Char) : Bool := decide (ruleIn line way ≠ .ok none)

theorem rulesIn_filter (lines : List (List Char)) (way : List Char) :
    rulesIn (lines.filter (Matters way)) way = rulesIn lines way := by
  induction lines with
  | nil => rfl
  | cons line lines ih =>
    rw [List.filter_cons, rulesIn_cons]
    by_cases h : ruleIn line way = .ok none
    · have hno : Matters way line = false := decide_eq_false (not_not.mpr h)
      rw [hno, if_neg Bool.false_ne_true, ih, h]
      cases rulesIn lines way <;> rfl
    · have hyes : Matters way line = true := decide_eq_true h
      rw [hyes, if_pos rfl, rulesIn_cons, ih]

end Ignore

namespace Scope

variable {d : Disk} {p start root : Path}

theorem isOk_andThen_iff {x y : Gathered} :
    (∃ rules, andThen x y = .ok (.ok rules)) ↔
      (∃ rules, x = .ok (.ok rules)) ∧ ∃ rules, y = .ok (.ok rules) := by
  rcases x with _ | _ | rules
  · simp [andThen, bind, Except.bind]
  · rcases y with _ | _ | more <;> simp [andThen, bind, Except.bind, pure, Except.pure]
  · rcases y with _ | _ | more <;> simp [andThen, bind, Except.bind, pure, Except.pure]

theorem isOk_gather_iff {here : List String → Gathered}
    {folders : List (List String)} : (∃ rules, gather here folders = .ok (.ok rules)) ↔
      ∀ names ∈ folders, ∃ rules, here names = .ok (.ok rules) := by
  induction folders with
  | nil => exact iff_of_true ⟨[], rfl⟩ fun names h => absurd h List.not_mem_nil
  | cons names folders ih => rw [gather, isOk_andThen_iff, ih, List.forall_mem_cons]

theorem exists_rulesHere_iff {names : List String} :
    (∃ rules, rulesHere d root.parts names = .ok (.ok rules)) ↔ ∃ lines, rawLines d names = .ok lines ∧
      (Ignore.rulesIn lines (Ignore.wayOf (names.drop root.parts.length))).isOk = true := by
  rw [rulesHere]
  cases rawLines d names with
  | error e => simp [Except.map]
  | ok lines =>
    simp only [Except.map, Except.ok.injEq, exists_eq_left']
    cases Ignore.rulesIn lines (Ignore.wayOf (names.drop root.parts.length)) with
    | error e => exact iff_of_false (fun ⟨_, h⟩ => nomatch h) Bool.false_ne_true
    | ok rules => exact iff_of_true ⟨rules, rfl⟩ rfl

theorem ofPath_isOk_iff (hd : d.Sound) (hroot : rootOf d start = .ok root) :
    (ofPath d start).isOk = true ↔
      ∀ inside, Scanned d root.parts inside → ∃ lines, rawLines d (root.parts ++ inside) = .ok lines ∧
        (Ignore.rulesIn lines (Ignore.wayOf inside)).isOk = true := by
  have hgather : (ofPath d start).isOk = true ↔
      ∃ rules, gather (rulesHere d root.parts) (folders d root.parts) = .ok (.ok rules) := by
    rw [ofPath_eq_gather hd, hroot]
    change ((gather _ _).bind _).isOk = true ↔ _
    rcases gather (rulesHere d root.parts) (folders d root.parts) with _ | _ | rules
    · exact iff_of_false Bool.false_ne_true fun ⟨_, h⟩ => nomatch h
    · exact iff_of_false Bool.false_ne_true fun ⟨_, h⟩ => nomatch h
    · exact iff_of_true rfl ⟨rules, rfl⟩
  rw [hgather, isOk_gather_iff]
  simp only [mem_folders_iff hd, exists_rulesHere_iff]
  constructor
  · intro h inside hscanned
    have hinside := h _ ⟨inside, rfl, hscanned⟩
    rwa [List.drop_left] at hinside
  · rintro h _ ⟨inside, rfl, hscanned⟩
    rw [List.drop_left]
    exact h inside hscanned

end Scope

namespace Discovery

open Scope

variable {d : Disk} {p start root : Path}

theorem components_isOk_eq (hp : d.resolve p = .ok start) :
    (components d p).isOk = (ofPath d start).isOk := by
  rw [components, hp]
  change ((ofPath d start).bind _).isOk = _
  cases ofPath d start <;> rfl

/-- A scan of a tree with ignore files that can all be read finds its files unless one of their lines is
refused; and any other line that gives no rule may be there or not. -/
theorem components_of_readable (hd : d.Sound) (hp : d.resolve p = .ok start)
    (hroot : rootOf d start = .ok root)
    (hread : ∀ inside, Scanned d root.parts inside → (rawLines d (root.parts ++ inside)).isOk = true) :
    ((components d p).isOk = true ↔ ∀ inside, Scanned d root.parts inside → ∀ lines,
      rawLines d (root.parts ++ inside) = .ok lines → ∀ line ∈ lines, ∀ relocated,
        Ignore.relocate line (Ignore.wayOf inside) = some relocated → ¬ Ignore.Refused relocated) ∧
    ∀ d', d.SameOutline d' → (∀ inside, Scanned d root.parts inside → ∀ lines lines',
      rawLines d (root.parts ++ inside) = .ok lines → rawLines d' (root.parts ++ inside) = .ok lines' →
        lines'.filter (Ignore.Matters (Ignore.wayOf inside)) =
          lines.filter (Ignore.Matters (Ignore.wayOf inside))) →
      components d' p = components d p := by
  constructor
  · rw [components_isOk_eq hp, ofPath_isOk_iff hd hroot]
    refine forall₂_congr fun inside hscanned => ?_
    obtain ⟨lines, hlines⟩ := exists_of_isOk (hread inside hscanned)
    simp only [hlines, Except.ok.injEq, exists_eq_left', forall_eq', Ignore.isOk_rulesIn_iff,
      Ignore.ruleIn_isOk_iff]
  · intro d' houtline hsame
    apply components_of_outline houtline hp
    apply ofPath_of_outline hd houtline hroot
    intro inside hscanned lines lines' hlines hlines'
    rw [← Ignore.rulesIn_filter lines, ← Ignore.rulesIn_filter lines',
      hsame inside hscanned lines lines' hlines hlines']

/-- A class without an end is no rule, and as good as no line. -/
theorem components_of_unclosed :
    (components (layered "[x\nx.*" "") (.ofString "/p")).isOk = true ∧ ¬ Ignore.Refused "**/[x".toList ∧
      components (layered "x.*" "") (.ofString "/p") = components (layered "[x\nx.*" "") (.ofString "/p") := by
  have hread : ∀ inside, Scanned (layered "[x\nx.*" "") ["p"] inside →
      (rawLines (layered "[x\nx.*" "") ("p" :: inside)).isOk = true := by
    intro inside hscanned
    rcases scanned_layered hscanned with rfl | rfl | rfl <;> decide +kernel
  obtain ⟨hrefused, hsilent⟩ :=
    components_of_readable (layered_sound _ _) (resolve_layered "[x\nx.*" "") (rootOf_layered _ _) hread
  have hok : (components (layered "[x\nx.*" "") (.ofString "/p")).isOk = true := by decide +kernel
  refine ⟨hok, ?_, hsilent _ (layered_sameOutline _ _ _ _) ?_⟩
  · have hhere : Scanned (layered "[x\nx.*" "") ["p"] [] :=
      ⟨Disk.bare?_eq_folder_iff.mpr ⟨_, rfl⟩, fun _ h => absurd h List.not_mem_nil⟩
    exact hrefused.mp hok [] hhere ["[x".toList, "x.*".toList] (by decide +kernel) _ List.mem_cons_self _
      (by decide +kernel)
  · intro inside hscanned lines lines' hlines hlines'
    rcases scanned_layered hscanned with rfl | rfl | rfl
    · cases hlines.symm.trans (by decide +kernel : _ = .ok ["[x".toList, "x.*".toList])
      cases hlines'.symm.trans (by decide +kernel : _ = .ok ["x.*".toList])
      decide +kernel
    · cases hlines.symm.trans (by decide +kernel : _ = .ok [[]])
      cases hlines'.symm.trans (by decide +kernel : _ = .ok [[]])
      rfl
    · cases hlines.symm.trans (by decide +kernel : _ = .ok [])
      cases hlines'.symm.trans (by decide +kernel : _ = .ok [])
      rfl

/-- A backslash alone on a line of an ignore file, and the scan comes to nothing. -/
theorem components_of_lone_backslash :
    (∀ names ∈ folders (layered "\\" "") ["p"], (rawLines (layered "\\" "") names).isOk = true) ∧
      rawLines (layered "\\" "") ["p"] = .ok [['\\']] ∧
      components (layered "" "") (.ofString "/p") = .ok [.ofString "/p/a/x.jsx", .ofString "/p/a/foo/y.jsx"] ∧
      components (layered "\\" "") (.ofString "/p") = .error (.rule .malformed) := by
  rw [folders_layered]
  decide +kernel

end Discovery

end SuiteDraft
