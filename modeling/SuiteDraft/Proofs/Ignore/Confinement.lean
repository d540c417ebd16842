import SuiteDraft.Ignore.Relocation
import SuiteDraft.Ignore.Rule
import SuiteDraft.Proofs.Path
import SuiteDraft.Proofs.Tree.Walk

/-!
# Rules are confined to their directory

A line of a nested ignore file is put in terms of the root by writing the way to its directory in front
of it. Where the names on that way are read as they stand, the rule speaks of nothing outside.
-/

namespace SuiteDraft

theorem splitAt_append {sep : Char} {s : List Char} (h : sep ∉ s) (rest : List Char) :
    splitAt sep (s ++ sep :: rest) = s :: splitAt sep rest := by
  induction s with
  | nil => simp [splitAt]
  | cons c s ih =>
    obtain ⟨hc, hs⟩ := List.ne_and_not_mem_of_not_mem_cons h
    rw [List.cons_append, splitAt, ih hs, if_neg (by simpa using hc.symm)]

theorem splitAt_ne_nil (sep : Char) (s : List Char) : splitAt sep s ≠ [] := by
  rw [splitAt_eq_splitOn]
  exact List.splitOnP_ne_nil _ s

theorem Text.trimRight_append {c : Char} (h : isBlank c = false) (s rest : List Char) :
    trimRight (s ++ c :: rest) = s ++ c :: trimRight rest := by
  simp only [trimRight, List.reverse_append, List.reverse_cons, List.append_assoc]
  rw [List.dropWhile_append]
  split
  · rename_i hempty
    simp [h, List.isEmpty_iff.mp hempty]
  · simp

namespace Ignore

/-- A name that a rule reads as it stands: no character of it has a meaning of its own there. -/
def IsLiteral (name : String) : Prop := ∀ c ∈ name.toList, c ∉ ['*', '?', '[', '\\']

-- By the characters of the name: what is inferred may go through all characters there are.
instance (name : String) : Decidable (IsLiteral name) := List.decidableBAll _ name.toList

theorem IsLiteral.ne_deep {name : String} (h : IsLiteral name) : name.toList ≠ deep := by
  intro hname
  have hstar := h '*' (by rw [hname]; decide)
  exact hstar (by decide)

theorem IsLiteral.ne_star {name : String} (h : IsLiteral name) : name.toList ≠ ['*'] := by
  intro hname
  have hstar := h '*' (by rw [hname]; decide)
  exact hstar (by decide)

/-- The way to a directory, as the rules of its ignore file are given it. -/
def wayOf (names : List String) : List Char := ("/".intercalate names).toList

@[simp] theorem wayOf_singleton (name : String) : wayOf [name] = name.toList := by
  simp [wayOf]

theorem wayOf_cons_cons (name next : String) (names : List String) :
    wayOf (name :: next :: names) = name.toList ++ '/' :: wayOf (next :: names) := by
  simp [wayOf, String.intercalate_cons_cons]

theorem splitAt_wayOf {names : List String} (hne : names ≠ []) (hnames : ∀ name ∈ names, '/' ∉ name.toList)
    (rest : List Char) :
    splitAt '/' (wayOf names ++ '/' :: rest) = names.map String.toList ++ splitAt '/' rest := by
  induction names with
  | nil => exact absurd rfl hne
  | cons name names ih =>
    have hname := hnames name List.mem_cons_self
    cases names with
    | nil => simp [splitAt_append hname]
    | cons next names =>
      have hrest := ih (List.cons_ne_nil _ _) fun n hn => hnames n (List.mem_cons_of_mem _ hn)
      rw [wayOf_cons_cons, List.append_assoc, List.cons_append, splitAt_append hname, hrest]
      rfl

/-! ### Lines -/

/-- A rule's body that is written behind the way to a directory: tied to it, or at any depth below. -/
def Below (way body : List Char) : Prop :=
  ∃ rest, body = '/' :: way ++ '/' :: rest ∨ body = way ++ '/' :: '*' :: '*' :: '/' :: rest

theorem below_relocateBody {way : List Char} (hway : way ≠ []) (body : List Char) :
    Below way (relocateBody body way) := by
  have hlead : (if way.isEmpty then [] else way ++ ['/']) = way ++ ['/'] :=
    if_neg (by simpa using hway)
  unfold relocateBody
  rw [hlead]
  split
  · rename_i rest
    exact ⟨rest, .inl (by simp)⟩
  · split
    · exact ⟨body, .inl (by simp)⟩
    · exact ⟨body, .inr (by simp)⟩

theorem Below.trimmed {way body : List Char} (h : Below way body) (pre : List Char) :
    ∃ body', Below way body' ∧ trimLine (pre ++ body) = pre ++ body' := by
  have hslash : Text.isBlank '/' = false := by decide
  have htrim : ∀ before rest, ∃ rest', trimLine (before ++ '/' :: rest) = before ++ '/' :: rest' := by
    intro before rest
    rw [trimLine]
    split
    · exact ⟨rest, rfl⟩
    · exact ⟨_, Text.trimRight_append hslash before rest⟩
  obtain ⟨rest, rfl | rfl⟩ := h
  · obtain ⟨rest', hrest⟩ := htrim (pre ++ '/' :: way) rest
    refine ⟨'/' :: way ++ '/' :: rest', ⟨rest', .inl rfl⟩, ?_⟩
    rw [← List.append_assoc, hrest, List.append_assoc]
  · obtain ⟨rest', hrest⟩ := htrim (pre ++ way ++ ['/', '*', '*']) rest
    refine ⟨way ++ '/' :: '*' :: '*' :: '/' :: rest', ⟨rest', .inr rfl⟩, ?_⟩
    simpa using hrest

/-- What a line of the ignore file at the end of a way becomes, up to the mark that takes paths back. -/
theorem relocate_eq_some {line way relocated : List Char} (hway : way ≠ [])
    (h : relocate line way = some relocated) :
    ∃ body, Below way body ∧ (relocated = body ∨ relocated = '!' :: body) := by
  unfold relocate at h
  dsimp only at h
  split at h
  · cases h
  · split at h
    · cases h
      exact ⟨_, below_relocateBody hway _, .inr rfl⟩
    · cases h
      exact ⟨_, below_relocateBody hway _, .inl rfl⟩

/-! ### Segments -/

/-- Segments that do not begin with two gaps. -/
def Settled (parts : List (List Char)) : Prop := ∀ rest, parts ≠ deep :: deep :: rest

theorem collapse_cons_of_ne {s : List Char} (h : s ≠ deep) (rest : List (List Char)) :
    collapse (s :: rest) = s :: collapse rest := by
  have hno : ¬ (s == deep && (collapse rest).head? == some deep) = true := by simp [h]
  rw [collapse, if_neg hno]

theorem collapse_append {names : List (List Char)} (h : ∀ s ∈ names, s ≠ deep)
    (rest : List (List Char)) : collapse (names ++ rest) = names ++ collapse rest := by
  induction names with
  | nil => rfl
  | cons s names ih =>
    rw [List.cons_append, collapse_cons_of_ne (h s List.mem_cons_self),
      ih fun t ht => h t (List.mem_cons_of_mem _ ht)]
    rfl

theorem collapse_ne_nil {parts : List (List Char)} (h : parts ≠ []) : collapse parts ≠ [] := by
  cases parts with
  | nil => exact absurd rfl h
  | cons s rest =>
    rw [collapse]
    split
    · rename_i hdeep
      intro hnil
      simp [hnil] at hdeep
    · exact List.cons_ne_nil _ _

theorem settled_collapse (parts : List (List Char)) : Settled (collapse parts) := by
  induction parts with
  | nil => exact fun rest h => nomatch h
  | cons s parts ih =>
    rw [collapse]
    split
    · exact ih
    · rename_i hdeep
      intro rest h
      obtain ⟨rfl, hrest⟩ := List.cons.inj h
      simp [hrest] at hdeep

/-- Segments of which an empty last one stands for all that is below. -/
def closed (parts : List (List Char)) : List (List Char) :=
  if parts.getLast? == some [] then parts.dropLast ++ [deep] else parts

theorem segments_of_tied {body : List Char} {parts : List (List Char)}
    (h : splitAt '/' body = [] :: parts) : segments body = collapse (closed parts) := by
  unfold segments
  rw [h]
  rfl

theorem segments_of_long {body s : List Char} {parts : List (List Char)}
    (h : splitAt '/' body = s :: parts) (hs : s ≠ []) (hlong : 2 ≤ parts.length) :
    segments body = collapse (closed (s :: parts)) := by
  obtain ⟨c, cs, rfl⟩ := List.exists_cons_of_ne_nil hs
  unfold segments
  rw [h]
  match parts, hlong with
  | [] :: u :: more, _ => rfl
  | (d :: ds) :: u :: more, _ => rfl

theorem closed_append (names : List (List Char)) {parts : List (List Char)} (h : parts ≠ []) :
    closed (names ++ parts) = names ++ closed parts := by
  unfold closed
  rw [List.dropLast_append_of_ne_nil h, List.append_assoc, List.getLast?_append_of_ne_nil _ h]
  split <;> rfl

theorem closed_ne_nil {parts : List (List Char)} (h : parts ≠ []) : closed parts ≠ [] := by
  unfold closed
  split
  · exact List.append_ne_nil_of_right_ne_nil _ (List.cons_ne_nil _ _)
  · exact h

theorem collapse_closed_way {names : List String} (hliteral : ∀ name ∈ names, IsLiteral name)
    {parts : List (List Char)} (h : parts ≠ []) : collapse (closed (names.map String.toList ++ parts)) =
      names.map String.toList ++ collapse (closed parts) := by
  rw [closed_append _ h, collapse_append]
  intro s hs
  obtain ⟨name, hname, rfl⟩ := List.mem_map.mp hs
  exact (hliteral name hname).ne_deep

section

variable {names : List String} (hne : names ≠ []) (hsteps : ∀ name ∈ names, Path.IsStep name)
  (hliteral : ∀ name ∈ names, IsLiteral name)

include hne hsteps hliteral

theorem segments_tied (rest : List Char) :
    segments ('/' :: wayOf names ++ '/' :: rest) =
      names.map String.toList ++ collapse (closed (splitAt '/' rest)) := by
  have hslash : ∀ name ∈ names, '/' ∉ name.toList := fun name hname => (hsteps name hname).2.1
  rw [← collapse_closed_way hliteral (splitAt_ne_nil '/' rest), ← splitAt_wayOf hne hslash]
  exact segments_of_tied rfl

theorem segments_loose (rest : List Char) :
    segments (wayOf names ++ '/' :: '*' :: '*' :: '/' :: rest) =
      names.map String.toList ++ collapse (closed (deep :: splitAt '/' rest)) := by
  have hslash : ∀ name ∈ names, '/' ∉ name.toList := fun name hname => (hsteps name hname).2.1
  have hdeep : splitAt '/' ('*' :: '*' :: '/' :: rest) = deep :: splitAt '/' rest :=
    splitAt_append (by decide : '/' ∉ deep) rest
  have hlength := List.length_pos_of_ne_nil (splitAt_ne_nil '/' rest)
  rw [← collapse_closed_way hliteral (List.cons_ne_nil _ _), ← hdeep]
  obtain ⟨name, names, rfl⟩ := List.exists_cons_of_ne_nil hne
  have hempty : name.toList ≠ [] := by
    intro hnil
    exact (hsteps name List.mem_cons_self).1 (String.toList_inj.mp hnil)
  apply segments_of_long _ hempty _
  · rw [splitAt_wayOf hne hslash]
    rfl
  · simp only [List.append_eq, List.length_append, hdeep, List.length_cons]
    omega

theorem segments_of_below {body : List Char} (h : Below (wayOf names) body) :
    ∃ parts, segments body = names.map String.toList ++ parts ∧ parts ≠ [] ∧ Settled parts := by
  obtain ⟨rest, rfl | rfl⟩ := h
  · exact ⟨_, segments_tied hne hsteps hliteral rest,
      collapse_ne_nil (closed_ne_nil (splitAt_ne_nil _ _)), settled_collapse _⟩
  · exact ⟨_, segments_loose hne hsteps hliteral rest,
      collapse_ne_nil (closed_ne_nil (List.cons_ne_nil _ _)), settled_collapse _⟩

end

/-! ### Atoms -/

theorem nameAtoms_of_literal {s : List Char} (h : ∀ c ∈ s, c ∉ ['*', '?', '[', '\\']) :
    nameAtoms s.length s = .ok (some (s.map fun c => .one (.exactly c))) := by
  induction s with
  | nil => rfl
  | cons c s ih =>
    have hc := h c List.mem_cons_self
    simp only [List.mem_cons, List.not_mem_nil, or_false, not_or] at hc
    obtain ⟨hstar, hmark, hbracket, hback⟩ := hc
    rw [List.length_cons, nameAtoms, ih fun d hd => h d (List.mem_cons_of_mem _ hd)]
    · rfl
    all_goals simp_all

/-- The atoms that read a text as it stands. -/
def literal (s : List Char) : List Atom := s.map fun c => .one (.exactly c)

theorem slash_eq_literal (afterName : Bool) :
    slash afterName = literal (if afterName then ['/'] else []) := by cases afterName <;> rfl

theorem literal_append (s t : List Char) : literal s ++ literal t = literal (s ++ t) :=
  List.map_append.symm

theorem map_eq_ok_some {ε α β : Type} {x : Except ε (Option α)} {f : α → β} {b : β}
    (h : x.map (Option.map f) = .ok (some b)) : ∃ a, x = .ok (some a) ∧ f a = b := by
  cases x with
  | error e => cases h
  | ok a? =>
    obtain ⟨a, rfl, hb⟩ := Option.map_eq_some_iff.mp (Except.ok.inj h)
    exact ⟨a, rfl, hb⟩

theorem bind_map_eq {ε α β : Type} (x : Except ε (Option α)) (f : α → β) :
    (x >>= fun a => pure (a.map f)) = x.map (Option.map f) := by cases x <;> rfl

/-- The atoms of a segment that is no gap. -/
def partAtoms (s : List Char) : Except RuleError (Option (List Atom)) :=
  if s == ['*'] then .ok (some [.one .withinName, .run]) else nameAtoms s.length s

/-- The atoms of a segment that is no gap and of what stands behind it. -/
theorem segmentAtoms_cons {s : List Char} (hs : s ≠ deep) (parts : List (List Char))
    (first afterName : Bool) :
    segmentAtoms first afterName (s :: parts) = partAtoms s >>= fun name? =>
      match name? with
      | none => .ok none
      | some name => (segmentAtoms false true parts).map
          (Option.map ((slash afterName ++ name ++ if parts.isEmpty then [.close] else []) ++ ·)) := by
  have hdeep : ¬ (s == deep) = true := by simpa using hs
  rw [segmentAtoms, if_neg hdeep, partAtoms]
  simp only [bind_map_eq]
  split <;> rfl

theorem segmentAtoms_name {name : String} (h : IsLiteral name) {parts : List (List Char)}
    (hparts : parts ≠ []) (first afterName : Bool) :
    segmentAtoms first afterName (name.toList :: parts) =
      (segmentAtoms false true parts).map
        (Option.map (literal ((if afterName then ['/'] else []) ++ name.toList) ++ ·)) := by
  have hstar : ¬ (name.toList == ['*']) = true := by simpa using h.ne_star
  have hempty : parts.isEmpty = false := by simpa using hparts
  rw [segmentAtoms_cons h.ne_deep, partAtoms, if_neg hstar, nameAtoms_of_literal h, ok_bind]
  simp only [hempty, Bool.false_eq_true, if_false, List.append_nil]
  rw [← literal_append, ← slash_eq_literal]
  rfl

/-- The atoms of a way and of what stands behind it: first those that read the way as it stands. -/
theorem segmentAtoms_way {names : List String} (hne : names ≠ [])
    (hliteral : ∀ name ∈ names, IsLiteral name) {parts : List (List Char)} (hparts : parts ≠ [])
    (first afterName : Bool) :
    segmentAtoms first afterName (names.map String.toList ++ parts) =
      (segmentAtoms false true parts).map
        (Option.map (literal ((if afterName then ['/'] else []) ++ wayOf names) ++ ·)) := by
  induction names generalizing first afterName with
  | nil => exact absurd rfl hne
  | cons name names ih =>
    have hname := hliteral name List.mem_cons_self
    cases names with
    | nil => simpa using segmentAtoms_name hname hparts first afterName
    | cons next names =>
      have hrest := ih (List.cons_ne_nil _ _) (fun n hn => hliteral n (List.mem_cons_of_mem _ hn)) false true
      rw [List.map_cons, List.cons_append, segmentAtoms_name hname (by simp), hrest]
      cases segmentAtoms false true parts with
      | error e => rfl
      | ok as? => cases as? <;> simp [Except.map, wayOf_cons_cons, literal]

theorem readsAtoms_literal {s path : List Char} {as : List Atom}
    (h : readsAtoms (literal s ++ as) path = true) :
    ∃ rest, path = s ++ rest ∧ readsAtoms as rest = true := by
  induction s generalizing path with
  | nil => exact ⟨path, rfl, h⟩
  | cons c s ih =>
    cases path with
    | nil => simp [literal, readsAtoms, Atom.rests] at h
    | cons d path =>
      simp only [literal, List.map_cons, List.cons_append, readsAtoms, Atom.rests, CharTest.holds,
        beq_iff_eq] at h
      by_cases hd : d = c
      · subst hd
        simp only [if_true, List.any_cons, List.any_nil, Bool.or_false] at h
        obtain ⟨rest, rfl, hrest⟩ := ih h
        exact ⟨rest, rfl, hrest⟩
      · simp [hd] at h

theorem readsAtoms_slash {path : List Char} {as : List Atom}
    (h : readsAtoms (slash true ++ as) path = true) : ∃ rest, path = '/' :: rest := by
  have hslash : readsAtoms (literal ['/'] ++ as) path = true := h
  obtain ⟨rest, rfl, -⟩ := readsAtoms_literal hslash
  exact ⟨rest, rfl⟩

theorem readsAtoms_gap_slash {path : List Char} {as : List Atom}
    (h : readsAtoms (.gap :: (slash true ++ as)) path = true) : ∃ rest, path = '/' :: rest := by
  -- A gap reads nothing, so that the slash behind it comes first, or begins with one itself.
  obtain ⟨rest, hrest, hreads⟩ := List.any_eq_true.mp h
  rcases List.mem_cons.mp hrest with rfl | hgap
  · exact readsAtoms_slash hreads
  · split at hgap
    · exact ⟨_, rfl⟩
    · cases hgap

/-- A segment that is no gap is read alike wherever it stands, behind the slash that must come. -/
theorem segmentAtoms_of_ne_deep {s : List Char} (hs : s ≠ deep) (parts : List (List Char))
    (first afterName : Bool) :
    segmentAtoms first afterName (s :: parts) =
      (segmentAtoms false false (s :: parts)).map (Option.map (slash afterName ++ ·)) := by
  rw [segmentAtoms_cons hs, segmentAtoms_cons hs]
  rcases partAtoms s with e | _ | name
  · rfl
  · rfl
  · rcases segmentAtoms false true parts with e | _ | as
    · rfl
    · rfl
    · simp [ok_bind, Except.map, slash]

theorem segmentAtoms_deep {parts : List (List Char)} (hparts : parts ≠ []) (first afterName : Bool) :
    segmentAtoms first afterName (deep :: parts) =
      (segmentAtoms false (!first) parts).map (Option.map ((if first then .lead else .gap) :: ·)) := by
  have hempty : parts.isEmpty = false := by simpa using hparts
  rw [segmentAtoms, if_pos (beq_self_eq_true deep), ← bind_map_eq]
  cases first <;> simp [hempty]

/-- What is read behind a name begins with a slash. -/
theorem begins_of_segmentAtoms {parts : List (List Char)} (hparts : parts ≠ [])
    (hsettled : Settled parts) {as : List Atom}
    (has : segmentAtoms false true parts = .ok (some as)) {path : List Char}
    (h : readsAtoms as path = true) : ∃ rest, path = '/' :: rest := by
  obtain ⟨s, parts, rfl⟩ := List.exists_cons_of_ne_nil hparts
  by_cases hs : s = deep
  · subst hs
    cases parts with
    | nil =>
      obtain rfl : slash true ++ [] = as := Option.some.inj (Except.ok.inj has)
      exact readsAtoms_slash h
    | cons t parts =>
      have ht : t ≠ deep := by
        rintro rfl
        exact hsettled parts rfl
      rw [segmentAtoms_deep (List.cons_ne_nil _ _)] at has
      obtain ⟨more, hmore, rfl⟩ := map_eq_ok_some has
      rw [segmentAtoms_of_ne_deep ht] at hmore
      obtain ⟨after, -, rfl⟩ := map_eq_ok_some hmore
      exact readsAtoms_gap_slash h
  · rw [segmentAtoms_of_ne_deep hs] at has
    obtain ⟨more, -, rfl⟩ := map_eq_ok_some has
    exact readsAtoms_slash h

/-- Atoms of a way and of what stands behind it read the way, and a slash after it. -/
theorem begins_with_way {names : List String} (hne : names ≠ [])
    (hliteral : ∀ name ∈ names, IsLiteral name) {parts : List (List Char)} (hparts : parts ≠ [])
    (hsettled : Settled parts) {as : List Atom}
    (has : segmentAtoms true false (names.map String.toList ++ parts) = .ok (some as))
    {path : List Char} (h : readsAtoms as path = true) : ∃ rest, path = wayOf names ++ '/' :: rest := by
  rw [segmentAtoms_way hne hliteral hparts] at has
  obtain ⟨as', has', rfl⟩ := map_eq_ok_some has
  obtain ⟨rest, rfl, hrest⟩ := readsAtoms_literal h
  obtain ⟨rest', rfl⟩ := begins_of_segmentAtoms hparts hsettled has' hrest
  exact ⟨rest', rfl⟩

/-- The pattern of atoms, unless a range in one of them runs backwards. -/
def ofAtoms : Except RuleError (Option (List Atom)) → Except RuleError (Option Pattern)
  | .error e => .error e
  | .ok none => .ok none
  | .ok (some as) =>
    if as.any Atom.isBackward then .error .backwardRange else .ok (some (.atoms as))

theorem ofAtoms_eq_ok_some {x : Except RuleError (Option (List Atom))} {pattern : Pattern}
    (h : ofAtoms x = .ok (some pattern)) : ∃ as, x = .ok (some as) ∧ pattern = .atoms as := by
  unfold ofAtoms at h
  split at h
  · cases h
  · cases h
  · rename_i as
    split at h
    · cases h
    · cases h
      exact ⟨as, rfl, rfl⟩

theorem patternOf_eq_ofAtoms {body : List Char} {parts : List (List Char)} (h : segments body = parts)
    (hplain : parts ∉ [[], [deep], [deep, ['*']], [deep, ['*'], deep]]) :
    patternOf body = ofAtoms (segmentAtoms true false parts) := by
  simp only [List.mem_cons, List.not_mem_nil, or_false, not_or] at hplain
  obtain ⟨hempty, hdeep, hstar, hbelow⟩ := hplain
  unfold patternOf
  rw [h]
  dsimp only
  split
  · exact absurd rfl hempty
  · rw [if_neg (by simpa using hdeep), if_neg (by simpa using hstar), if_neg (by simpa using hbelow)]
    rcases segmentAtoms true false parts with e | _ | as <;> rfl

theorem way_not_plain {names : List String} (hne : names ≠ [])
    (hliteral : ∀ name ∈ names, IsLiteral name) (parts : List (List Char)) :
    names.map String.toList ++ parts ∉ [[], [deep], [deep, ['*']], [deep, ['*'], deep]] := by
  obtain ⟨name, names, rfl⟩ := List.exists_cons_of_ne_nil hne
  have hname := (hliteral name List.mem_cons_self).ne_deep
  simp [hname]

/-- The pattern of a rule is that of its line, up to the mark that takes paths back. -/
theorem patternOf_of_ofLine? {line : List Char} {rule : Rule}
    (h : Rule.ofLine? line = .ok (some rule)) :
    ∃ body, patternOf body = .ok (some rule.pattern) ∧
      (trimLine line = '!' :: body ∨ trimLine line = body ∧ body.head? ≠ some '!') := by
  unfold Rule.ofLine? at h
  dsimp only at h
  split at h
  · cases h
  · cases h
  · cases h
  · rename_i body hline
    obtain ⟨pattern, hpattern, hsome⟩ := bind_eq_ok_iff.mp h
    obtain ⟨pattern', rfl, rfl⟩ := Option.map_eq_some_iff.mp (Except.ok.inj hsome)
    exact ⟨body, hpattern, .inl hline⟩
  · rename_i hmark
    obtain ⟨pattern, hpattern, hsome⟩ := bind_eq_ok_iff.mp h
    obtain ⟨pattern', rfl, rfl⟩ := Option.map_eq_some_iff.mp (Except.ok.inj hsome)
    refine ⟨trimLine line, hpattern, .inr ⟨rfl, fun hhead => ?_⟩⟩
    obtain ⟨rest, hrest⟩ := List.head?_eq_some_iff.mp hhead
    exact hmark rest hrest

/-- A way that rules read as it stands: no name on it has a meaning of its own, and no mark that takes
paths back begins it. -/
structure Legible (names : List String) : Prop where
  literal : ∀ name ∈ names, IsLiteral name
  unmarked : ∀ name ∈ names.head?, name.toList.head? ≠ some '!'

instance (names : List String) : Decidable (Legible names) :=
  decidable_of_iff ((∀ name ∈ names, IsLiteral name) ∧ ∀ name ∈ names.head?, name.toList.head? ≠ some '!')
    ⟨fun h => ⟨h.1, h.2⟩, fun h => ⟨h.literal, h.unmarked⟩⟩

theorem head?_wayOf {name : String} (h : name ≠ "") (names : List String) :
    (wayOf (name :: names)).head? = name.toList.head? := by
  have hname : name.toList ≠ [] := fun hnil => h (String.toList_inj.mp hnil)
  cases names with
  | nil => rw [wayOf_singleton]
  | cons next names => rw [wayOf_cons_cons, List.head?_append_of_ne_nil _ hname]

theorem head?_of_below {way body : List Char} (hway : way ≠ []) (h : Below way body) :
    body.head? = some '/' ∨ body.head? = way.head? := by
  obtain ⟨rest, rfl | rfl⟩ := h
  · exact .inl rfl
  · exact .inr (List.head?_append_of_ne_nil _ hway)

section

variable {names : List String} (hne : names ≠ []) (hsteps : ∀ name ∈ names, Path.IsStep name)
  (hlegible : Legible names) {path : List Char}

include hne hsteps hlegible

theorem begins_of_pattern {body : List Char} (hbelow : Below (wayOf names) body) {pattern : Pattern}
    (hpattern : patternOf body = .ok (some pattern)) (h : pattern.holds path = true) :
    ∃ rest, path = wayOf names ++ '/' :: rest := by
  obtain ⟨parts, hsegments, hparts, hsettled⟩ := segments_of_below hne hsteps hlegible.literal hbelow
  rw [patternOf_eq_ofAtoms hsegments (way_not_plain hne hlegible.literal _)] at hpattern
  obtain ⟨as, has, rfl⟩ := ofAtoms_eq_ok_some hpattern
  exact begins_with_way hne hlegible.literal hparts hsettled has h

/-- A rule of the ignore file at the end of a way holds on what is inside of its directory alone. -/
theorem begins_of_relocated {line relocated : List Char}
    (hline : relocate line (wayOf names) = some relocated) {rule : Rule}
    (hrule : Rule.ofLine? relocated = .ok (some rule)) (h : rule.pattern.holds path = true) :
    ∃ rest, path = wayOf names ++ '/' :: rest := by
  have hhead : (wayOf names).head? ≠ none ∧ (wayOf names).head? ≠ some '!' := by
    obtain ⟨name, names, rfl⟩ := List.exists_cons_of_ne_nil hne
    have hname := (hsteps name List.mem_cons_self).1
    rw [head?_wayOf hname]
    refine ⟨fun hnone => hname ?_, hlegible.unmarked name rfl⟩
    exact String.toList_inj.mp (List.head?_eq_none_iff.mp hnone)
  have hway : wayOf names ≠ [] := fun hnil => hhead.1 (List.head?_eq_none_iff.mpr hnil)
  obtain ⟨body, hbelow, hbody⟩ := relocate_eq_some hway hline
  obtain ⟨body', hpattern, htrim⟩ := patternOf_of_ofLine? hrule
  have hbelow' : Below (wayOf names) body' := by
    rcases hbody with rfl | rfl
    · obtain ⟨trimmed, hbelow', heq⟩ := hbelow.trimmed []
      rw [List.nil_append, List.nil_append] at heq
      rcases htrim with hmark | ⟨heq', -⟩
      · rcases head?_of_below hway hbelow' with hslash | hfirst
        · rw [← heq, hmark] at hslash
          cases hslash
        · rw [← heq, hmark] at hfirst
          exact absurd hfirst.symm hhead.2
      · rwa [← heq', heq]
    · obtain ⟨trimmed, hbelow', heq⟩ := hbelow.trimmed ['!']
      rcases htrim with hmark | ⟨heq', hno⟩
      · obtain rfl : trimmed = body' := List.cons_injective (heq.symm.trans hmark)
        exact hbelow'
      · rw [← heq', List.singleton_append.symm, heq] at hno
        exact absurd rfl hno
  exact begins_of_pattern hne hsteps hlegible hbelow' hpattern h

end

end Ignore

end SuiteDraft
