import SuiteDraft.Proofs.Ignore.Below
import SuiteDraft.Proofs.Ignore.Lines

/-!
# The same line in another directory

What a line of a nested ignore file says of the paths in its directory, the same line says of all paths
in the ignore file of the root.
-/

namespace SuiteDraft.Ignore

/-- A name that rules read as it stands, wherever it stands: none of its characters has a meaning of its
own there, and none of the marks that begin a line begins it. -/
structure Inert (name : String) : Prop where
  literal : IsLiteral name
  unmarked : name.toList.head? ≠ some '!' ∧ name.toList.head? ≠ some '#'

instance (name : String) : Decidable (Inert name) :=
  decidable_of_iff (IsLiteral name ∧ name.toList.head? ≠ some '!' ∧ name.toList.head? ≠ some '#')
    ⟨fun h => ⟨h.1, h.2⟩, fun h => ⟨h.literal, h.unmarked⟩⟩

/-- The segments of a text that is written in terms of the root, before they are put in order. -/
def standing (tied : Bool) (text : List Char) : List (List Char) :=
  if tied then splitAt '/' text else deep :: splitAt '/' text

theorem exists_mem_splitAt {sep c : Char} {s : List Char} (hc : c ∈ s) (hsep : c ≠ sep) :
    ∃ part ∈ splitAt sep s, c ∈ part := by
  induction s with
  | nil => cases hc
  | cons d s ih =>
    obtain ⟨first, others, hsplit⟩ := List.exists_cons_of_ne_nil (splitAt_ne_nil sep s)
    rw [splitAt]
    split
    · rename_i hd
      have hs : c ∈ s := by
        refine List.mem_of_ne_of_mem ?_ hc
        rintro rfl
        exact hsep (by simpa using hd)
      obtain ⟨part, hpart, hmem⟩ := ih hs
      exact ⟨part, List.mem_cons_of_mem _ hpart, hmem⟩
    · rw [hsplit]
      rcases List.mem_cons.mp hc with rfl | hs
      · exact ⟨_, List.mem_cons_self, List.mem_cons_self⟩
      · obtain ⟨part, hpart, hmem⟩ := ih hs
        rw [hsplit] at hpart
        rcases List.mem_cons.mp hpart with rfl | hpart
        · exact ⟨_, List.mem_cons_self, List.mem_cons_of_mem _ hmem⟩
        · exact ⟨part, List.mem_cons_of_mem _ hpart, hmem⟩

theorem tells_of_trimRight {text : List Char} (h : ∃ s ∈ splitAt '/' (Text.trimRight text), Tells s) :
    ∃ s ∈ splitAt '/' (trimLine text), Tells s := by
  unfold trimLine
  split
  · rename_i hescape
    have hblank : ' ' ∈ text :=
      List.mem_reverse.mp ((List.isPrefixOf_iff_prefix.mp hescape).subset List.mem_cons_self)
    obtain ⟨part, hpart, hmem⟩ := exists_mem_splitAt hblank (by decide : ' ' ≠ '/')
    exact ⟨part, hpart, .inr ⟨' ', hmem, by decide⟩⟩
  · exact h

theorem mem_closed {s : List Char} {parts : List (List Char)} (hs : s ∈ parts) (hne : s ≠ []) :
    s ∈ closed parts := by
  unfold closed
  split
  · rename_i hlast
    have hparts : parts.dropLast ++ [[]] = parts :=
      List.dropLast_append_getLast? [] (by simpa using hlast)
    rw [← hparts] at hs
    rcases List.mem_append.mp hs with hs | hs
    · exact List.mem_append_left _ hs
    · exact absurd (List.mem_singleton.mp hs) hne
  · exact hs

theorem mem_collapse {s : List Char} {parts : List (List Char)} (hs : s ∈ parts) (hne : s ≠ deep) :
    s ∈ collapse parts := by
  induction parts with
  | nil => cases hs
  | cons t parts ih =>
    rw [collapse]
    rcases List.mem_cons.mp hs with rfl | hs
    · rw [if_neg (by simp [hne])]
      exact List.mem_cons_self
    · split
      · exact ih hs
      · exact List.mem_cons_of_mem _ (ih hs)

theorem tells_of_standing {tied : Bool} {text : List Char} (h : ∃ s ∈ splitAt '/' text, Tells s) :
    ∃ s ∈ collapse (closed (standing tied text)), Tells s := by
  obtain ⟨s, hs, htells⟩ := h
  have hstanding : s ∈ standing tied text := by
    unfold standing
    split
    · exact hs
    · exact List.mem_cons_of_mem _ hs
  exact ⟨s, mem_collapse (mem_closed hstanding htells.ne_nil) htells.ne_deep, htells⟩

theorem segments_written_nil {text : List Char} (h : ∃ s ∈ splitAt '/' text, Tells s) (tied : Bool) :
    segments (written tied [] text) = collapse (closed (standing tied text)) := by
  cases tied with
  | true => exact segments_of_tied rfl
  | false =>
    have hsplit : splitAt '/' (written false [] text) = deep :: splitAt '/' text :=
      splitAt_append (by decide : '/' ∉ deep) text
    unfold standing
    match hparts : splitAt '/' text with
    | [] => exact absurd hparts (splitAt_ne_nil '/' text)
    | [s] =>
      obtain ⟨t, ht, htells⟩ := h
      obtain ⟨c, cs, rfl⟩ : ∃ c cs, s = c :: cs := by
        rw [hparts] at ht
        exact List.exists_cons_of_ne_nil (List.mem_singleton.mp ht ▸ htells.ne_nil)
      rw [hparts] at hsplit
      unfold segments
      rw [hsplit]
      rfl
    | s :: t :: more =>
      exact segments_of_long (hsplit.trans (by rw [hparts])) (by decide) (by simp)

section

variable {names : List String} (hne : names ≠ []) (hsteps : ∀ name ∈ names, Path.IsStep name)
  (hinert : ∀ name ∈ names, Inert name)

include hne hsteps hinert

omit hinert in
theorem head?_way : ∃ name ∈ names, (wayOf names).head? = name.toList.head? ∧ name.toList.head? ≠ none := by
  obtain ⟨name, names, rfl⟩ := List.exists_cons_of_ne_nil hne
  have hname := (hsteps name List.mem_cons_self).1
  refine ⟨name, List.mem_cons_self, head?_wayOf hname names, fun hnone => hname ?_⟩
  exact String.toList_inj.mp (List.head?_eq_none_iff.mp hnone)

omit hinert in
theorem written_way (tied : Bool) (text : List Char) :
    written tied (wayOf names) text =
      if tied then '/' :: wayOf names ++ '/' :: text
      else wayOf names ++ '/' :: '*' :: '*' :: '/' :: text := by
  obtain ⟨name, -, hhead, hnone⟩ := head?_way hne hsteps
  have hway : (wayOf names).isEmpty = false := by
    cases hempty : wayOf names with
    | nil => exact absurd (by rw [← hhead, hempty]; rfl) hnone
    | cons _ _ => rfl
  cases tied <;> simp [written, hway]

theorem segments_written_way (tied : Bool) (text : List Char) :
    segments (written tied (wayOf names) text) =
      names.map String.toList ++ collapse (closed (standing tied text)) := by
  have hliteral : ∀ name ∈ names, IsLiteral name := fun name hname => (hinert name hname).literal
  rw [written_way hne hsteps]
  cases tied with
  | true => exact segments_tied hne hsteps hliteral text
  | false => exact segments_loose hne hsteps hliteral text

theorem head?_written_way (tied : Bool) (text : List Char) :
    (written tied (wayOf names) text).head? ∉ [none, some '!', some '#'] := by
  rw [written_way hne hsteps]
  cases tied with
  | true => simp
  | false =>
    obtain ⟨name, hname, hhead, hnone⟩ := head?_way hne hsteps
    have hway : wayOf names ≠ [] := by
      intro hnil
      exact hnone (by rw [← hhead, hnil]; rfl)
    rw [if_neg Bool.false_ne_true, List.head?_append_of_ne_nil _ hway, hhead]
    simp [hnone, (hinert name hname).unmarked]

/-- What a line comes to in a directory and at the root: two bodies, of which one has the segments of the
other behind the way. -/
theorem bodies_of_line {line : List Char} (htells : ∃ s ∈ splitAt '/' (bodyOf line), Tells s) :
    (∀ way, ruleIn line way = .ok none) ∨ ∃ negated body moved parts,
      ruleIn line [] = (patternOf body).map (Option.map (⟨negated, ·⟩)) ∧
      ruleIn line (wayOf names) = (patternOf moved).map (Option.map (⟨negated, ·⟩)) ∧
      segments body = parts ∧ segments moved = names.map String.toList ++ parts ∧
      Settled parts ∧ ∃ s ∈ parts, Tells s := by
  cases hsilent : isSilent (trimEnd '\n' line) with
  | true => exact .inl fun way => by rw [ruleIn, relocate_of_silent hsilent]
  | false =>
  right
  have hsome := relocate_eq hsilent
  generalize ((trimEnd '\n' line).head? == some '!') = negated at hsome
  generalize isTied (unmarked '!' (trimEnd '\n' line)) = tied at hsome
  rw [bodyOf_eq] at htells
  generalize unmarked '/' (unmarked '!' (trimEnd '\n' line)) = text at hsome htells
  replace htells := tells_of_trimRight htells
  have htext : trimLine text ≠ [] := by
    intro hnil
    rw [hnil] at htells
    revert htells
    decide
  refine ⟨negated, written tied [] (trimLine text), written tied (wayOf names) (trimLine text), _, ?_, ?_,
    segments_written_nil htells tied, segments_written_way hne hsteps hinert tied _,
    settled_collapse _, tells_of_standing htells⟩
  · rw [ruleIn, hsome]
    apply ofLine?_eq (trimLine_written negated tied [] text) _ (written_ne_slash htext tied [])
    cases tied <;> simp [written]
  · rw [ruleIn, hsome]
    exact ofLine?_eq (trimLine_written negated tied _ text) (head?_written_way hne hsteps hinert tied _)
      (written_ne_slash htext tied _)

/-- In a directory, a line gives the rule that it gives at the root, moved below the way. -/
theorem ruleIn_eq_below {line : List Char} (htells : ∃ s ∈ splitAt '/' (bodyOf line), Tells s) :
    ruleIn line (wayOf names) =
      (ruleIn line []).map (Option.map fun rule => ⟨rule.negated, rule.pattern.below (wayOf names)⟩) := by
  rcases bodies_of_line hne hsteps hinert htells with
    hnone | ⟨negated, body, moved, parts, hroot, hway, hbody, hmoved, hsettled, hparts⟩
  · rw [hnone, hnone]
    rfl
  · have hliteral : ∀ name ∈ names, IsLiteral name := fun name hname => (hinert name hname).literal
    rw [hway, hroot, patternOf_below hne hliteral hsettled hparts hbody hmoved, map_map_some, map_map_some]

theorem asks_of_ruleIn {line : List Char} (htells : ∃ s ∈ splitAt '/' (bodyOf line), Tells s)
    {rule : Rule} (hrule : ruleIn line [] = .ok (some rule)) {as : List Atom}
    (has : rule.pattern = .atoms as) : ∃ test, .one test ∈ as := by
  rcases bodies_of_line hne hsteps hinert htells with
    hnone | ⟨negated, body, moved, parts, hroot, hway, hbody, hmoved, hsettled, hparts⟩
  · rw [hnone] at hrule
    cases hrule
  · rw [hroot] at hrule
    obtain ⟨pattern, hpattern, rfl⟩ := map_eq_ok_some hrule
    obtain rfl : pattern = .atoms as := has
    obtain ⟨s, hs, htells⟩ := hparts
    exact asks_of_segmentAtoms (hbody ▸ segmentAtoms_of_patternOf hpattern) hs htells

/-- A line says in a directory what it says at the root, of the paths in there: it gives a rule in both
places or in neither, with the same sign, and is refused in both or in neither. The rule of the directory
holds on the ways through it to what the rule of the root holds on, and where that is every path, on names
of line feeds alone as well. -/
theorem rule_of_relocated {line : List Char} (htells : ∃ s ∈ splitAt '/' (bodyOf line), Tells s) :
    (ruleIn line (wayOf names)).map (Option.map Rule.negated) =
        (ruleIn line []).map (Option.map Rule.negated) ∧
      ∀ rule moved, ruleIn line [] = .ok (some rule) → ruleIn line (wayOf names) = .ok (some moved) →
        ∀ path, IsWay path → (moved.pattern.holds path = true ↔
          ∃ q ≠ [], path = wayOf names ++ '/' :: q ∧
            (rule.pattern.holds q = true ∨ rule.pattern = .everything ∧ ∀ c ∈ q, c = '\n')) := by
  have hbelow := ruleIn_eq_below hne hsteps hinert htells
  constructor
  · rw [hbelow, map_map_some]
  · intro rule moved hrule hmoved path hpath
    rw [hrule, hmoved] at hbelow
    obtain rfl := Option.some.inj (Except.ok.inj hbelow)
    exact holds_below hne hsteps hpath fun as has => asks_of_ruleIn hne hsteps hinert htells hrule has

end

/-- A name that a directory takes back, on a way through it. -/
theorem rule_of_relocated_name :
    ["a", "b"] ≠ [] ∧ (∀ name ∈ ["a", "b"], Path.IsStep name) ∧ (∀ name ∈ ["a", "b"], Inert name) ∧
      (∃ s ∈ splitAt '/' (bodyOf "!x[yz]/\n".toList), Tells s) ∧
      ∃ rule moved, ruleIn "!x[yz]/\n".toList [] = .ok (some rule) ∧
        ruleIn "!x[yz]/\n".toList (wayOf ["a", "b"]) = .ok (some moved) ∧ moved.negated = true ∧
        moved.pattern.holds "a/b/c/xz/d".toList = true := by
  have hnames : (∀ name ∈ ["a", "b"], Path.IsStep name) ∧ ∀ name ∈ ["a", "b"], Inert name := by
    decide +kernel
  have htells : ∃ s ∈ splitAt '/' (bodyOf "!x[yz]/\n".toList), Tells s :=
    ⟨"x[yz]".toList, by decide +kernel, by decide +kernel⟩
  obtain ⟨hsign, hholds⟩ := rule_of_relocated (by decide) hnames.1 hnames.2 htells
  refine ⟨by decide, hnames.1, hnames.2, htells, _, _, rfl, rfl, rfl, ?_⟩
  exact (hholds _ _ rfl rfl _ (by decide +kernel)).mpr
    ⟨"c/xz/d".toList, by decide +kernel, by decide +kernel, .inl (by decide +kernel)⟩

/-- A star in a directory holds on a name of a line feed, which the star of the root does not read. -/
theorem rule_of_relocated_line_feed :
    ["b"] ≠ [] ∧ (∀ name ∈ ["b"], Path.IsStep name) ∧ (∀ name ∈ ["b"], Inert name) ∧
      [] ∉ splitAt '/' (bodyOf ['*']) ∧ (∃ s ∈ splitAt '/' (bodyOf ['*']), Tells s) ∧
      IsWay ['b', '/', '\n'] ∧
      ∃ rule moved, ruleIn ['*'] [] = .ok (some rule) ∧ ruleIn ['*'] (wayOf ["b"]) = .ok (some moved) ∧
        moved.pattern.holds ['b', '/', '\n'] = true ∧
        ¬ ∃ q ≠ [], ['b', '/', '\n'] = wayOf ["b"] ++ '/' :: q ∧ rule.pattern.holds q = true := by
  refine ⟨by decide, by decide +kernel, by decide +kernel, by decide, ⟨['*'], by decide, .inl rfl⟩,
    by decide, _, _, rfl, rfl, by decide +kernel, ?_⟩
  rintro ⟨q, -, hq, hholds⟩
  rw [wayOf_singleton] at hq
  obtain rfl : ['\n'] = q := List.cons_injective (List.cons_injective hq)
  exact absurd hholds (by decide +kernel)

end SuiteDraft.Ignore
