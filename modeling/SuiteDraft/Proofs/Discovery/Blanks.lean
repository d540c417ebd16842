import SuiteDraft.Proofs.Discovery.Gathering

/-!
# Blanks at the end of a line

A line is relocated with the blanks at its end and trimmed afterwards. So blanks behind a line have no say
where relocation does not look at its end: a slash there ties the line to its directory only when blanks
stand behind it, and a line of blanks alone is a rule that a line of nothing is not.
-/

namespace SuiteDraft

namespace Ignore

/-- Blanks as they stand at the end of a line. -/
def Padding (pad : List Char) : Prop := ∀ c ∈ pad, c = ' ' ∨ c = '\t'

/-- A line behind which blanks have no say: there is something in it, no backslash stands at its end or
before a blank there, and slashes do not stand at its end alone. -/
structure Steady (line : List Char) : Prop where
  ne_nil : line ≠ []
  plain : ¬ ['\\'] <:+ line ∧ ¬ ['\\', ' '] <:+ line
  slash : '/' ∈ unmarked '!' line →
    (unmarked '!' line).head? = some '/' ∨ '/' ∈ trimEnd '/' (unmarked '!' line)

/-- Lines of which the others differ in blanks behind steady ones and in empty lines between. -/
inductive Spaced : List (List Char) → List (List Char) → Prop where
  | nil : Spaced [] []
  | same {lines lines' : List (List Char)} (line : List Char) (h : Spaced lines lines') :
      Spaced (line :: lines) (line :: lines')
  | padded {line pad : List Char} {lines lines' : List (List Char)} (hline : Steady line)
      (hpad : Padding pad) (h : Spaced lines lines') : Spaced (line :: lines) ((line ++ pad) :: lines')
  | inserted {lines lines' : List (List Char)} (h : Spaced lines lines') : Spaced lines ([] :: lines')

variable {line pad text : List Char}

theorem Padding.isBlank (h : Padding pad) : ∀ c ∈ pad, Text.isBlank c = true := by
  intro c hc
  rcases h c hc with rfl | rfl <;> decide

theorem Padding.not_mem (h : Padding pad) {c : Char} (hc : c ≠ ' ' ∧ c ≠ '\t') : c ∉ pad :=
  fun hmem => (h c hmem).elim hc.1 hc.2

theorem trimEnd_of_getLast? {c : Char} {s : List Char} (h : s.getLast? ≠ some c) : trimEnd c s = s := by
  apply List.rdropWhile_eq_self_iff.mpr
  intro hne hlast
  exact h (by rw [List.getLast?_eq_some_getLast hne, beq_iff_eq.mp hlast])

theorem trimEnd_of_not_mem {c : Char} {s : List Char} (h : c ∉ s) : trimEnd c s = s :=
  trimEnd_of_getLast? fun hlast => h (List.mem_of_getLast? hlast)

theorem isSilent_append (hpad : Padding pad) (hline : line ≠ []) : isSilent (line ++ pad) = isSilent line := by
  have hempty : (line ++ pad).isEmpty = line.isEmpty := by
    cases line with
    | nil => exact absurd rfl hline
    | cons c line => rfl
  have hblank : pad.dropWhile Text.isBlank = [] := List.dropWhile_eq_nil_iff.mpr hpad.isBlank
  rw [isSilent, isSilent, hempty, Text.trimLeft, Text.trimLeft, List.dropWhile_append, hblank]
  cases line.dropWhile Text.isBlank <;> rfl

theorem unmarked_append {c : Char} (hpad : c ∉ pad) (s : List Char) :
    unmarked c (s ++ pad) = unmarked c s ++ pad := by
  cases s with
  | nil =>
    apply unmarked_of_head
    intro hhead
    exact hpad (List.mem_of_mem_head? hhead)
  | cons d s =>
    simp only [List.cons_append, unmarked]
    split <;> rfl

theorem unmarked_suffix (c : Char) (s : List Char) : unmarked c s <:+ s := by
  cases s with
  | nil => exact List.suffix_rfl
  | cons d s =>
    rw [unmarked]
    split
    · exact List.suffix_cons d s
    · exact List.suffix_rfl

theorem isTied_append (hpad : Padding pad) (hne : pad ≠ []) {body : List Char}
    (hslash : '/' ∈ body → body.head? = some '/' ∨ '/' ∈ trimEnd '/' body) :
    isTied (body ++ pad) = isTied body := by
  have hno : '/' ∉ pad := hpad.not_mem (by decide)
  have hlast : (body ++ pad).getLast? ≠ some '/' := by
    rw [List.getLast?_append_of_ne_nil _ hne]
    exact fun h => hno (List.mem_of_getLast? h)
  have hmem : '/' ∈ trimEnd '/' body → '/' ∈ body :=
    fun h => (List.rdropWhile_prefix _ body).subset h
  have htied : ∀ s : List Char, isTied s = true ↔ s.head? = some '/' ∨ '/' ∈ trimEnd '/' s := by
    intro s
    rw [isTied, Bool.or_eq_true, beq_iff_eq, List.contains_iff_mem]
  rw [Bool.eq_iff_iff, htied, htied, trimEnd_of_getLast? hlast, List.mem_append, or_iff_left hno]
  constructor
  · rintro (hhead | h)
    · have hfirst := List.mem_append.mp (List.mem_of_mem_head? hhead)
      exact hslash (hfirst.resolve_right hno)
    · exact hslash h
  · rintro (hhead | h)
    · exact .inr (List.mem_of_mem_head? hhead)
    · exact .inr (hmem h)

theorem trimLine_append_pad (hpad : Padding pad) (hplain : ¬ ['\\'] <:+ text ∧ ¬ ['\\', ' '] <:+ text) :
    trimLine (text ++ pad) = trimLine text := by
  have hunescaped : ∀ s : List Char, ¬ ['\\', ' '] <:+ s → trimLine s = Text.trimRight s := by
    intro s hs
    rw [trimLine, if_neg]
    intro hescape
    exact hs (List.reverse_prefix.mp (List.isPrefixOf_iff_prefix.mp hescape))
  have hpadded : ¬ ['\\', ' '] <:+ text ++ pad := by
    rcases List.eq_nil_or_concat' pad with rfl | ⟨more, c, rfl⟩
    · rw [List.append_nil]
      exact hplain.2
    rw [← List.append_assoc, List.suffix_concat_iff]
    rintro (hempty | ⟨front, hfront, hbefore⟩)
    · cases hempty
    obtain ⟨rfl, -⟩ : ['\\'] = front ∧ [' '] = [c] := List.append_inj' hfront rfl
    rcases List.eq_nil_or_concat' more with rfl | ⟨rest, e, rfl⟩
    · exact hplain.1 (by rwa [List.append_nil] at hbefore)
    rw [← List.append_assoc, List.suffix_concat_iff] at hbefore
    rcases hbefore with hempty | ⟨front, hfront, -⟩
    · cases hempty
    obtain ⟨-, hback⟩ : [] = front ∧ ['\\'] = [e] := List.append_inj' hfront rfl
    exact hpad.not_mem (by decide : '\\' ≠ ' ' ∧ '\\' ≠ '\t') (by simp [← List.cons.inj hback])
  rw [hunescaped _ hpadded, hunescaped _ hplain.2, Text.trimRight, Text.trimRight, List.reverse_append,
    List.dropWhile_append_of_pos]
  intro c hc
  exact hpad.isBlank c (List.mem_reverse.mp hc)

theorem ofLine?_congr {line line' : List Char} (h : trimLine line' = trimLine line) :
    Rule.ofLine? line' = Rule.ofLine? line := by
  rw [Rule.ofLine?, Rule.ofLine?, h]

/-- Blanks behind a steady line do not change the rule that it gives. -/
theorem ruleIn_append (hline : Steady line) (hfeed : '\n' ∉ line) (hpad : Padding pad) (way : List Char) :
    ruleIn (line ++ pad) way = ruleIn line way := by
  by_cases hne : pad = []
  · rw [hne, List.append_nil]
  have hfeed' : '\n' ∉ line ++ pad := by
    rw [List.mem_append, not_or]
    exact ⟨hfeed, hpad.not_mem (by decide)⟩
  have hsilent := isSilent_append hpad hline.ne_nil
  cases hsay : isSilent line with
  | true =>
    rw [ruleIn, ruleIn, relocate_of_silent, relocate_of_silent]
    · rwa [trimEnd_of_not_mem hfeed]
    · rwa [trimEnd_of_not_mem hfeed', hsilent]
  | false =>
    rw [hsay] at hsilent
    rw [← trimEnd_of_not_mem hfeed] at hsay
    rw [← trimEnd_of_not_mem hfeed'] at hsilent
    rw [ruleIn, ruleIn, relocate_eq hsay, relocate_eq hsilent, trimEnd_of_not_mem hfeed,
      trimEnd_of_not_mem hfeed', List.head?_append_of_ne_nil _ hline.ne_nil,
      unmarked_append (hpad.not_mem (by decide)), isTied_append hpad hne hline.slash,
      unmarked_append (hpad.not_mem (by decide))]
    apply ofLine?_congr
    have hsuffix := (unmarked_suffix '/' (unmarked '!' line)).trans (unmarked_suffix '!' line)
    rw [trimLine_written, trimLine_written, trimLine_append_pad hpad]
    exact ⟨fun h => hline.plain.1 (h.trans hsuffix), fun h => hline.plain.2 (h.trans hsuffix)⟩

theorem rulesIn_of_spaced {lines lines' : List (List Char)} (h : Spaced lines lines')
    (hfeed : ∀ line ∈ lines, '\n' ∉ line) (way : List Char) : rulesIn lines' way = rulesIn lines way := by
  induction h with
  | nil => rfl
  | same line h ih =>
    rw [rulesIn_cons, rulesIn_cons, ih fun line hline => hfeed line (List.mem_cons_of_mem _ hline)]
  | padded hline hpad h ih =>
    rw [rulesIn_cons, rulesIn_cons, ruleIn_append hline (hfeed _ List.mem_cons_self) hpad,
      ih fun line hline => hfeed line (List.mem_cons_of_mem _ hline)]
  | inserted h ih => exact ih hfeed

end Ignore

namespace Scope

variable {d d' : Disk}

theorem feed_not_mem_of_mem_linesOf {s line : List Char} (h : line ∈ linesOf s) : '\n' ∉ line := by
  induction s using linesOf.induct generalizing line with
  | case1 =>
    obtain rfl : line = [] := by simpa [linesOf] using h
    exact List.not_mem_nil
  | case2 rest ih =>
    rcases List.mem_cons.mp (linesOf.eq_2 rest ▸ h) with rfl | h
    · exact List.not_mem_nil
    · exact ih h
  | case3 c rest _ hc ih =>
    rw [linesOf, if_pos hc] at h
    rcases List.mem_cons.mp h with rfl | h
    · exact List.not_mem_nil
    · exact ih h
    · assumption
  | case4 c rest _ hc hrest ih =>
    have hne : '\n' ≠ c := by
      rintro rfl
      exact hc rfl
    rw [linesOf, if_neg hc, hrest] at h
    · obtain rfl := List.mem_singleton.mp h
      exact List.not_mem_cons_of_ne_of_not_mem hne List.not_mem_nil
    · assumption
  | case5 c rest _ hc first more hrest ih =>
    have hne : '\n' ≠ c := by
      rintro rfl
      exact hc rfl
    rw [linesOf, if_neg hc, hrest] at h
    · rcases List.mem_cons.mp h with rfl | h
      · exact List.not_mem_cons_of_ne_of_not_mem hne (ih (hrest ▸ List.mem_cons_self))
      · exact ih (hrest ▸ List.mem_cons_of_mem _ h)
    · assumption

theorem feed_not_mem_of_rawLines {names : List String} {lines : List (List Char)}
    (h : rawLines d names = .ok lines) : ∀ line ∈ lines, '\n' ∉ line := by
  intro line hline
  unfold rawLines at h
  split at h
  · cases h
    cases hline
  · split at h
    · cases h
      cases hline
    · split at h
      · cases h
      · cases h
        exact feed_not_mem_of_mem_linesOf hline

/-- Blanks behind steady lines of ignore files, and empty lines in them, change no rule: the scope is the
same, its verdicts are, and so is what a scan finds. -/
theorem scan_of_spaced (hd : d.Sound) (h : d.SameOutline d') {start root : Path}
    (hroot : rootOf d start = .ok root)
    (hspaced : ∀ inside, Scanned d root.parts inside → ∀ lines lines',
      rawLines d (root.parts ++ inside) = .ok lines → rawLines d' (root.parts ++ inside) = .ok lines' →
        Ignore.Spaced lines lines') :
    ofPath d' start = ofPath d start ∧ (∀ scope : Scope, scope.isIgnored d' = scope.isIgnored d) ∧
      ∀ p, d.resolve p = .ok start → Discovery.components d' p = Discovery.components d p := by
  have hscope : ofPath d' start = ofPath d start := by
    apply ofPath_of_outline hd h hroot
    intro inside hscanned lines lines' hlines hlines'
    exact Ignore.rulesIn_of_spaced (hspaced inside hscanned lines lines' hlines hlines')
      (feed_not_mem_of_rawLines hlines) _
  exact ⟨hscope, isIgnored_of_outline h, fun p hp => Discovery.components_of_outline h hp hscope⟩

/-- Blanks behind the lines of both ignore files, and an empty line. -/
theorem scan_of_spaced_layered :
    Discovery.components (layered "x.*  \n\n/out" "!x.jsx\t") (.ofString "/p") =
        Discovery.components (layered "x.*\n/out" "!x.jsx") (.ofString "/p") ∧
      Discovery.components (layered "x.*\n/out" "!x.jsx") (.ofString "/p") =
        .ok [.ofString "/p/a/x.jsx", .ofString "/p/a/foo/y.jsx"] := by
  have houter : Ignore.Spaced ["x.*".toList, "/out".toList] ["x.*".toList ++ "  ".toList, [], "/out".toList] :=
    .padded ⟨by decide, by decide, by decide⟩ (by simp [Ignore.Padding]) (.inserted (.same _ .nil))
  have hinner : Ignore.Spaced ["!x.jsx".toList] ["!x.jsx".toList ++ "\t".toList] :=
    .padded ⟨by decide, by decide, by decide⟩ (by simp [Ignore.Padding]) .nil
  have hspaced : ∀ inside, Scanned (layered "x.*\n/out" "!x.jsx") ["p"] inside → ∀ lines lines',
      rawLines (layered "x.*\n/out" "!x.jsx") ("p" :: inside) = .ok lines →
        rawLines (layered "x.*  \n\n/out" "!x.jsx\t") ("p" :: inside) = .ok lines' →
          Ignore.Spaced lines lines' := by
    intro inside hscanned lines lines' hlines hlines'
    rcases scanned_layered hscanned with rfl | rfl | rfl
    · cases hlines.symm.trans (by decide +kernel : _ = .ok ["x.*".toList, "/out".toList])
      cases hlines'.symm.trans (by decide +kernel : _ = .ok ["x.*  ".toList, [], "/out".toList])
      exact houter
    · cases hlines.symm.trans (by decide +kernel : _ = .ok ["!x.jsx".toList])
      cases hlines'.symm.trans (by decide +kernel : _ = .ok ["!x.jsx\t".toList])
      exact hinner
    · cases hlines.symm.trans (by decide +kernel : _ = .ok [])
      cases hlines'.symm.trans (by decide +kernel : _ = .ok [])
      exact .nil
  obtain ⟨-, -, hfound⟩ := scan_of_spaced (layered_sound _ _)
    (layered_sameOutline "x.*\n/out" "!x.jsx" "x.*  \n\n/out" "!x.jsx\t") (rootOf_layered _ _) hspaced
  exact ⟨hfound _ (resolve_layered _ _), by decide +kernel⟩

/-- A blank behind `foo/` ties it to the folder of its ignore file: what a scan found to be ignored further
below is found then. -/
theorem scan_of_tied_layered :
    (layered "foo/" "").SameOutline (layered "foo/ " "") ∧
      rawLines (layered "foo/" "") ["p"] = .ok ["foo/".toList] ∧
      rawLines (layered "foo/ " "") ["p"] = .ok ["foo/".toList ++ " ".toList] ∧
      rawLines (layered "foo/" "") ["p", "a"] = rawLines (layered "foo/ " "") ["p", "a"] ∧
      ¬ ['\\'] <:+ "foo/".toList ∧
      Discovery.components (layered "foo/" "") (.ofString "/p") = .ok [.ofString "/p/a/x.jsx"] ∧
      Discovery.components (layered "foo/ " "") (.ofString "/p") =
        .ok [.ofString "/p/a/x.jsx", .ofString "/p/a/foo/y.jsx"] :=
  ⟨rfl, by decide +kernel, by decide +kernel, by decide +kernel, by decide +kernel, by decide +kernel,
    by decide +kernel⟩

end Scope

end SuiteDraft
