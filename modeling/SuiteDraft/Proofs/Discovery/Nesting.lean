import SuiteDraft.Proofs.Discovery.Unseen
import SuiteDraft.Proofs.Ignore.Confinement

/-!
# Which ignore files a verdict depends on

A repository's rules are those of all its ignore files, one list for all paths. On a path, only the
rules speak that come from the folders on the way to it, and they stand in the order of that way. So
the verdict is that of these folders' ignore files, whatever stands in others.
-/

namespace SuiteDraft

namespace Ignore

/-- The rule that a line gives. -/
def ruleOf? (line : List Char) : Option Rule := (Rule.ofLine? line).toOption.join

/-- The rules of lines that speak of a path. -/
def speaking (path : List Char) (lines : List (List Char)) : List Rule :=
  (lines.filterMap ruleOf?).filter (·.pattern.holds path)

theorem speaking_append (path : List Char) (lines more : List (List Char)) :
    speaking path (lines ++ more) = speaking path lines ++ speaking path more := by
  simp [speaking]

theorem speaking_flatMap {α : Type} (path : List Char) (lines : α → List (List Char)) (xs : List α) :
    speaking path (xs.flatMap lines) = xs.flatMap fun x => speaking path (lines x) := by
  induction xs with
  | nil => rfl
  | cons x xs ih => rw [List.flatMap_cons, speaking_append, ih, List.flatMap_cons]

theorem ruleOf?_eq {line : List Char} {rule? : Option Rule} (h : Rule.ofLine? line = .ok rule?) :
    ruleOf? line = rule? := by
  rw [ruleOf?, h]
  rfl

theorem speaking_eq_nil {path : List Char} {lines : List (List Char)}
    (h : ∀ line ∈ lines, ∀ rule, Rule.ofLine? line = .ok (some rule) → rule.pattern.holds path = false) :
    speaking path lines = [] := by
  apply List.filter_eq_nil_iff.mpr
  intro rule hrule
  obtain ⟨line, hline, hsome⟩ := List.mem_filterMap.mp hrule
  cases hread : Rule.ofLine? line with
  | error e => simp [ruleOf?, hread, Except.toOption] at hsome
  | ok rule? =>
    rw [ruleOf?_eq hread] at hsome
    subst hsome
    simp [h line hline rule hread]

theorem rulesOf_eq_ok {lines : List (List Char)} {rules : List Rule} (h : rulesOf lines = .ok rules) :
    rules = lines.filterMap ruleOf? := by
  obtain ⟨rules?, hread, hrules⟩ := bind_eq_ok_iff.mp h
  obtain rfl : rules?.filterMap id = rules := Except.ok.inj hrules
  clear h hrules
  induction lines generalizing rules? with
  | nil =>
    cases hread
    rfl
  | cons line lines ih =>
    rw [List.mapM_cons] at hread
    obtain ⟨rule?, hrule, hread⟩ := bind_eq_ok_iff.mp hread
    obtain ⟨more, hmore, hread⟩ := bind_eq_ok_iff.mp hread
    cases hread
    rw [List.filterMap_cons, List.filterMap_cons, ruleOf?_eq hrule, ih more hmore]
    rfl

/-- A verdict is told by the rules that speak of the path. -/
theorem isIgnored_eq_of_filter {rules others : List Rule} {path : List Char}
    (h : rules.filter (·.pattern.holds (visible path)) = others.filter (·.pattern.holds (visible path))) :
    isIgnored rules path = isIgnored others path := by
  have hlast : ∀ rules : List Rule, rules.reverse.find? (·.pattern.holds (visible path)) =
      (rules.filter (·.pattern.holds (visible path))).getLast? := by
    intro rules
    rw [← List.head?_filter, List.filter_reverse, List.head?_reverse]
  rw [isIgnored, isIgnored, hlast, hlast, h]

end Ignore

namespace Scope

variable {d : Disk} {root names inside target : List String} {path : List Char}

/-! ### The lines of a folder -/

/-- The bytes of the ignore file in a folder that is no link. -/
def ignoreFile? (d : Disk) (names : List String) : Option (List UInt8) :=
  match d.entry? names with
  | some (.folder es) => (Keyed.get? es fileName).bind fun e =>
    if isFolderHere d names fileName e then none else (d.read ⟨.root, names ++ [fileName]⟩).toOption
  | _ => none

/-- The lines that a folder's ignore file gives. -/
def linesAt (d : Disk) (root inside : List String) : List (List Char) :=
  ((ignoreFile? d (root ++ inside)).map fun bytes =>
    (linesOf ((Glyph.ofBytes bytes).map (·.char))).filterMap (Ignore.relocate · (Ignore.wayOf inside))).getD []

theorem ignoreFile?_of_not_folder (h : d.bare? names ≠ some (.folder [])) : ignoreFile? d names = none := by
  unfold ignoreFile?
  split
  · rename_i es hes
    exact absurd (Disk.bare?_eq_folder_iff.mpr ⟨es, hes⟩) h
  · rfl

theorem linesAt_of_not_folder (h : d.bare? (root ++ inside) ≠ some (.folder [])) :
    linesAt d root inside = [] := by
  rw [linesAt, ignoreFile?_of_not_folder h]
  rfl

theorem ownLines_eq_ok {es : Folder} (he : d.entry? (root ++ inside) = some (.folder es))
    {lines : List (List Char)} (h : ownLines d root (root ++ inside) es = .ok lines) :
    lines = linesAt d root inside := by
  unfold ownLines at h
  unfold linesAt ignoreFile?
  rw [he]
  dsimp only
  split at h
  · rename_i hnone
    rw [hnone]
    exact (Except.ok.inj h).symm
  · rename_i e hsome
    rw [hsome, Option.bind_some]
    split at h
    · rename_i hfolder
      rw [if_pos hfolder]
      exact (Except.ok.inj h).symm
    · rename_i hfolder
      rw [if_neg hfolder]
      dsimp only at h
      split at h
      · cases h
      · rename_i bytes hread
        rw [hread]
        rw [List.drop_left] at h
        exact (Except.ok.inj h).symm

/-- The lines from an entry of the folder at `names`. -/
def linesHere (d : Disk) (root names : List String) (x : String × Entry) : List (List Char) :=
  if ignoredDirectories.contains x.1 then []
  else (linesIn d root (names ++ [x.1]) x.2).toOption.getD []

/-- The lines from below a folder are those from the entries of it, one after the other. -/
theorem linesBelow_eq_ok {es : List (String × Entry)} {lines : List (List Char)}
    (h : linesBelow d root names es = .ok lines) : lines = es.flatMap (linesHere d root names) ∧
      ∀ x ∈ es, ignoredDirectories.contains x.1 = false →
        linesIn d root (names ++ [x.1]) x.2 = .ok (linesHere d root names x) := by
  induction es generalizing lines with
  | nil =>
    cases h
    exact ⟨rfl, fun x hx => absurd hx List.not_mem_nil⟩
  | cons x es ih =>
    obtain ⟨name, e⟩ := x
    have hstep : ∃ below, linesBelow d root names es = .ok below ∧
        lines = linesHere d root names (name, e) ++ below ∧
        (ignoredDirectories.contains name = false →
          linesIn d root (names ++ [name]) e = .ok (linesHere d root names (name, e))) := by
      rw [linesBelow] at h
      unfold linesHere
      split at h
      · rename_i hcontains
        obtain ⟨here, hhere, h⟩ := bind_eq_ok_iff.mp h
        obtain ⟨below, hbelow, h⟩ := bind_eq_ok_iff.mp h
        cases hhere
        cases h
        exact ⟨below, hbelow, by rw [if_pos hcontains],
          fun hno => absurd (hcontains.symm.trans hno) (by decide)⟩
      · rename_i hcontains
        obtain ⟨here, hhere, h⟩ := bind_eq_ok_iff.mp h
        obtain ⟨below, hbelow, h⟩ := bind_eq_ok_iff.mp h
        cases h
        rw [if_neg hcontains, hhere]
        exact ⟨below, hbelow, rfl, fun _ => rfl⟩
    obtain ⟨below, hbelow, rfl, hhere⟩ := hstep
    obtain ⟨rfl, hes⟩ := ih hbelow
    refine ⟨rfl, fun x hx => ?_⟩
    rcases List.mem_cons.mp hx with rfl | hx
    · exact hhere
    · exact hes x hx

theorem linesIn_folder_eq_ok {es : Folder} (he : d.entry? (root ++ inside) = some (.folder es))
    {lines : List (List Char)} (h : linesIn d root (root ++ inside) (.folder es) = .ok lines) :
    lines = linesAt d root inside ++ es.flatMap (linesHere d root (root ++ inside)) ∧
      ∀ x ∈ es, ignoredDirectories.contains x.1 = false →
        linesIn d root (root ++ inside ++ [x.1]) x.2 = .ok (linesHere d root (root ++ inside) x) := by
  rw [linesIn] at h
  obtain ⟨own, hown, h⟩ := bind_eq_ok_iff.mp h
  obtain ⟨below, hbelow, h⟩ := bind_eq_ok_iff.mp h
  cases h
  obtain ⟨rfl, hes⟩ := linesBelow_eq_ok hbelow
  exact ⟨by rw [ownLines_eq_ok he hown], hes⟩

theorem isSome_entry?_of_ignoreFile? (h : (ignoreFile? d names).isSome) : (d.entry? names).isSome := by
  unfold ignoreFile? at h
  split at h
  · rename_i es hes
    rw [hes]
    rfl
  · cases h

/-! ### Lines that speak of a path -/

/-- The path is below the folder at the end of every way that a slash ends in it. -/
def Follows (path : List Char) (target : List String) : Prop :=
  ∀ inside rest, inside ≠ [] → (∀ name ∈ inside, Path.IsStep name) →
    path = Ignore.wayOf inside ++ '/' :: rest → inside <+: target

/-- Ignore files that stand off a way are in folders whose names are read as they stand. -/
def LegibleOff (d : Disk) (root target : List String) : Prop :=
  ∀ inside, (ignoreFile? d (root ++ inside)).isSome → ¬ inside <+: target → Ignore.Legible inside

theorem legibleOff_of_places (h : ∀ place ∈ d.places, (ignoreFile? d place.1).isSome →
    ∀ inside ∈ place.1.tails, place.1 = root ++ inside → ¬ inside <+: target → Ignore.Legible inside) :
    LegibleOff d root target := by
  intro inside hfile hinside
  obtain ⟨e, he⟩ := Option.isSome_iff_exists.mp (isSome_entry?_of_ignoreFile? hfile)
  exact h _ (Disk.mem_places he) hfile inside ((List.mem_tails _ _).mpr (List.suffix_append _ _)) rfl hinside

section

variable (hd : d.Sound) (hfollows : Follows path target) (hoff : LegibleOff d root target)

include hd hfollows hoff

theorem speaking_linesAt_off (hinside : ¬ inside <+: target) :
    Ignore.speaking path (linesAt d root inside) = [] := by
  by_cases hfolder : d.bare? (root ++ inside) = some (.folder [])
  · unfold linesAt
    cases hfile : ignoreFile? d (root ++ inside) with
    | none => rfl
    | some bytes =>
      apply Ignore.speaking_eq_nil
      intro line hline rule hrule
      obtain ⟨raw, -, hraw⟩ := List.mem_filterMap.mp hline
      have hne : inside ≠ [] := by
        rintro rfl
        exact hinside List.nil_prefix
      have hsteps : ∀ name ∈ inside, Path.IsStep name := fun name hname =>
        (hd.isName_of_mem (by rw [hfolder]; rfl) name (List.mem_append_right _ hname)).1
      have hlegible := hoff inside (by rw [hfile]; rfl) hinside
      by_contra hholds
      obtain ⟨rest, hpath⟩ := Ignore.begins_of_relocated hne hsteps hlegible hraw hrule
        (Bool.not_eq_false _ ▸ hholds)
      exact hinside (hfollows inside rest hne hsteps hpath)
  · rw [linesAt_of_not_folder hfolder]
    rfl

/-- What lies off the way to a path gives no rule that speaks of it. -/
theorem speaking_linesIn_off {e : Entry} (he : d.entry? (root ++ inside) = some e)
    (hinside : ¬ inside <+: target) {lines : List (List Char)}
    (h : linesIn d root (root ++ inside) e = .ok lines) : Ignore.speaking path lines = [] := by
  induction e using Entry.induction generalizing inside lines with
  | file bytes =>
    cases h
    rfl
  | link _ =>
    cases h
    rfl
  | folder es ih =>
    obtain ⟨rfl, hes⟩ := linesIn_folder_eq_ok he h
    rw [Ignore.speaking_append, speaking_linesAt_off hd hfollows hoff hinside, List.nil_append]
    rw [Ignore.speaking_flatMap, List.flatMap_eq_nil_iff]
    intro x hx
    cases hcontains : ignoredDirectories.contains x.1 with
    | true =>
      rw [linesHere, if_pos hcontains]
      rfl
    | false =>
      have he' := hd.entry?_of_mem he hx
      have hlines := hes x hx hcontains
      rw [List.append_assoc] at he' hlines
      exact ih x hx he' (fun hbefore => hinside ((List.prefix_append _ _).trans hbefore)) hlines

/-- The same of an entry in a folder that lies on the way. -/
theorem speaking_linesHere_off {es : Folder} (he : d.entry? (root ++ inside) = some (.folder es))
    (hes : ∀ x ∈ es, ignoredDirectories.contains x.1 = false →
      linesIn d root (root ++ inside ++ [x.1]) x.2 = .ok (linesHere d root (root ++ inside) x))
    {x : String × Entry} (hx : x ∈ es) (hinside : ¬ inside ++ [x.1] <+: target) :
    Ignore.speaking path (linesHere d root (root ++ inside) x) = [] := by
  cases hcontains : ignoredDirectories.contains x.1 with
  | true =>
    rw [linesHere, if_pos hcontains]
    rfl
  | false =>
    have he' := hd.entry?_of_mem he hx
    have hlines := hes x hx hcontains
    rw [List.append_assoc] at he' hlines
    exact speaking_linesIn_off hd hfollows hoff he' hinside hlines

end

/-- The lines from the folders on a way, up to the first that a scan stays out of. -/
def linesAlong (d : Disk) (root : List String) : List String → List String → List (List Char)
  | before, [] => linesAt d root before
  | before, next :: rest =>
    linesAt d root before ++
      if ignoredDirectories.contains next then [] else linesAlong d root (before ++ [next]) rest

theorem linesAlong_of_not_folder (h : d.bare? (root ++ inside) ≠ some (.folder [])) (rest : List String) :
    linesAlong d root inside rest = [] := by
  induction rest generalizing inside with
  | nil => rw [linesAlong, linesAt_of_not_folder h]
  | cons next rest ih =>
    have hnone : d.bare? (root ++ (inside ++ [next])) = none := by
      rw [← List.append_assoc]
      exact Disk.bare?_append_eq_none (by simp) h
    rw [linesAlong, linesAt_of_not_folder h, ih (by rw [hnone]; exact fun h => nomatch h), ite_self]
    rfl

theorem linesAt_congr {d' : Disk}
    (h : ignoreFile? d' (root ++ inside) = ignoreFile? d (root ++ inside)) :
    linesAt d' root inside = linesAt d root inside := by
  rw [linesAt, linesAt, h]

theorem linesAlong_congr {d' : Disk} {rest : List String}
    (h : ∀ more, more <+: rest →
      ignoreFile? d' (root ++ (inside ++ more)) = ignoreFile? d (root ++ (inside ++ more))) :
    linesAlong d' root inside rest = linesAlong d root inside rest := by
  induction rest generalizing inside with
  | nil =>
    have hhere := h [] List.nil_prefix
    rw [List.append_nil] at hhere
    exact linesAt_congr hhere
  | cons next rest ih =>
    have hhere := h [] List.nil_prefix
    rw [List.append_nil] at hhere
    have hnext : linesAlong d' root (inside ++ [next]) rest = linesAlong d root (inside ++ [next]) rest := by
      apply ih
      intro more hmore
      have hfile := h (next :: more) (List.cons_prefix_cons.mpr ⟨rfl, hmore⟩)
      rwa [List.append_cons] at hfile
    rw [linesAlong, linesAlong, linesAt_congr hhere, hnext]

/-- Where only the entry of one name gives anything, a folder gives what that entry does. -/
theorem flatMap_eq_of_nodup {α : Type} {es : Folder} (hnames : (Keyed.names es).Nodup)
    {f : String × Entry → List α} {name : String} (h : ∀ x ∈ es, x.1 ≠ name → f x = []) :
    es.flatMap f = ((Keyed.get? es name).map fun e => f (name, e)).getD [] := by
  induction es with
  | nil => rfl
  | cons x es ih =>
    obtain ⟨other, e⟩ := x
    obtain ⟨hother, hnodup⟩ := List.nodup_cons.mp hnames
    have hes := ih hnodup fun x hx => h x (List.mem_cons_of_mem _ hx)
    rw [List.flatMap_cons]
    by_cases hname : name = other
    · subst hname
      have hnone : es.flatMap f = [] := by
        rw [List.flatMap_eq_nil_iff]
        intro x hx
        apply h x (List.mem_cons_of_mem _ hx)
        intro hx'
        have hmem : x.1 ∈ Keyed.names es := List.mem_map_of_mem hx
        rw [hx'] at hmem
        exact hother hmem
      rw [Keyed.get?_cons_self, hnone, List.append_nil]
      rfl
    · rw [h (other, e) List.mem_cons_self (Ne.symm hname), List.nil_append, hes,
        Keyed.get?_cons_of_ne hname]

section

variable (hd : d.Sound) (hfollows : Follows path target) (hoff : LegibleOff d root target)

include hd hfollows hoff

/-- Of all lines from a folder on the way to a path, those speak of it that come from along the way. -/
theorem speaking_linesIn {e : Entry} {rest : List String} (he : d.entry? (root ++ inside) = some e)
    (htarget : target = inside ++ rest) {lines : List (List Char)}
    (h : linesIn d root (root ++ inside) e = .ok lines) :
    Ignore.speaking path lines = Ignore.speaking path (linesAlong d root inside rest) := by
  induction e using Entry.induction generalizing inside rest lines with
  | file bytes =>
    cases h
    rw [linesAlong_of_not_folder (by simp [Disk.bare?, he, Entry.bare])]
  | link _ =>
    cases h
    rw [linesAlong_of_not_folder (by simp [Disk.bare?, he, Entry.bare])]
  | folder es ih =>
    obtain ⟨rfl, hes⟩ := linesIn_folder_eq_ok he h
    have hoffway : ∀ x ∈ es, (∀ more, rest ≠ x.1 :: more) →
        Ignore.speaking path (linesHere d root (root ++ inside) x) = [] := by
      intro x hx hrest
      apply speaking_linesHere_off hd hfollows hoff he hes hx
      rintro ⟨more, hmore⟩
      rw [htarget, List.append_assoc] at hmore
      exact hrest more (List.append_cancel_left hmore).symm
    rw [Ignore.speaking_append, Ignore.speaking_flatMap]
    cases rest with
    | nil =>
      have hnone : (es.flatMap fun x =>
          Ignore.speaking path (linesHere d root (root ++ inside) x)) = [] :=
        List.flatMap_eq_nil_iff.mpr fun x hx => hoffway x hx (by simp)
      rw [hnone, List.append_nil, linesAlong]
    | cons next rest =>
      have hother : ∀ x ∈ es, x.1 ≠ next →
          Ignore.speaking path (linesHere d root (root ++ inside) x) = [] := by
        intro x hx hne
        apply hoffway x hx
        intro more hmore
        exact hne (List.cons.inj hmore).1.symm
      rw [flatMap_eq_of_nodup (hd.nodup he) hother, linesAlong, Ignore.speaking_append]
      congr 1
      cases hcontains : ignoredDirectories.contains next with
      | true =>
        rw [if_pos rfl]
        cases Keyed.get? es next with
        | none => rfl
        | some e =>
          rw [Option.map_some, Option.getD_some, linesHere, if_pos hcontains]
      | false =>
        rw [if_neg Bool.false_ne_true]
        cases hget : Keyed.get? es next with
        | none =>
          have hnone : d.bare? (root ++ (inside ++ [next])) = none := by
            rw [← List.append_assoc, Disk.bare?, Disk.entry?_append, he, Option.bind_some,
              Entry.at?_folder, hget]
            rfl
          rw [linesAlong_of_not_folder (by simp [hnone])]
          rfl
        | some e =>
          have hmem := Keyed.mem_of_get? hget
          have he' := hd.entry?_of_mem he hmem
          have hlines := hes _ hmem hcontains
          rw [List.append_assoc] at he' hlines
          exact ih _ hmem he' (by rw [htarget, List.append_assoc]; rfl) hlines

end

/-! ### The path asked about -/

theorem splitAt_ended {ending : List Char} (hne : target ≠ [])
    (hsteps : ∀ name ∈ target, Path.IsStep name) (hending : ending = [] ∨ ending = ['/']) :
    ∃ extra, splitAt '/' (Ignore.wayOf target ++ ending) = target.map String.toList ++ extra ∧
      extra.length ≤ 1 := by
  have hslash : ∀ piece ∈ target.map String.toList, '/' ∉ piece := by
    intro piece hpiece
    obtain ⟨name, hname, rfl⟩ := List.mem_map.mp hpiece
    exact (hsteps name hname).2.1
  rcases hending with rfl | rfl
  · refine ⟨[], ?_, Nat.zero_le 1⟩
    rw [List.append_nil, List.append_nil, Ignore.wayOf, String.toList_intercalate, splitAt_eq_splitOn]
    exact List.splitOn_intercalate '/' hslash (by simpa using hne)
  · refine ⟨[[]], ?_, Nat.le_refl 1⟩
    rw [Ignore.splitAt_wayOf hne fun name hname => (hsteps name hname).2.1]
    rfl

theorem visible_ended {ending : List Char} (hne : target ≠ [])
    (hsteps : ∀ name ∈ target, Path.IsStep name) (hending : ending = [] ∨ ending = ['/']) :
    Ignore.visible (Ignore.wayOf target ++ ending) = Ignore.wayOf target ++ ending := by
  obtain ⟨extra, hsplit, -⟩ := splitAt_ended hne hsteps hending
  obtain ⟨name, more, rfl⟩ := List.exists_cons_of_ne_nil hne
  obtain ⟨hempty, -, hdot⟩ := hsteps name List.mem_cons_self
  unfold Ignore.visible
  split
  · rename_i rest heq
    rw [heq] at hsplit
    have hnil : [] = name.toList := (List.cons.inj hsplit).1
    exact absurd (String.toList_inj.mp hnil.symm) hempty
  · rename_i rest heq
    rw [heq, show '.' :: '/' :: rest = ['.'] ++ '/' :: rest from rfl, splitAt_append (by decide)] at hsplit
    have hone : ['.'] = name.toList := (List.cons.inj hsplit).1
    exact absurd (String.toList_inj.mp hone.symm) hdot
  · rfl

theorem follows_of_ended {ending : List Char} (hsteps : ∀ name ∈ target, Path.IsStep name)
    (hne : target ≠ []) (hending : ending = [] ∨ ending = ['/']) :
    Follows (Ignore.wayOf target ++ ending) target := by
  intro inside rest hinside hnames hpath
  obtain ⟨extra, hsplit, hextra⟩ := splitAt_ended hne hsteps hending
  rw [hpath, Ignore.splitAt_wayOf hinside fun name hname => (hnames name hname).2.1] at hsplit
  have hlength := congrArg List.length hsplit
  have hpos := List.length_pos_of_ne_nil (splitAt_ne_nil '/' rest)
  simp only [List.length_append, List.length_map] at hlength
  have hbefore : inside.map String.toList <+: target.map String.toList ++ extra :=
    hsplit ▸ List.prefix_append _ _
  have hprefix : inside.map String.toList <+: target.map String.toList := by
    apply List.prefix_of_prefix_length_le hbefore (List.prefix_append _ _)
    simp only [List.length_map]
    omega
  have hnames' := hprefix.map String.ofList
  simpa [List.map_map, Function.comp_def] using hnames'

theorem toString_here {name : String} (hname : name ≠ "") (names : List String) :
    (⟨.here, name :: names⟩ : Path).toString.toList = Ignore.wayOf (name :: names) := by
  have hempty : ¬ (Path.Anchor.slashes .here ++ "/".intercalate (name :: names)).isEmpty = true := by
    rw [String.isEmpty_iff, ← String.toList_inj, String.toList_append]
    intro hnil
    have hhead := Ignore.head?_wayOf hname names
    rw [show Ignore.wayOf (name :: names) = [] from hnil] at hhead
    exact hname (String.toList_inj.mp (List.head?_eq_none_iff.mp hhead.symm))
  rw [Path.toString, if_neg hempty, String.toList_append]
  rfl

theorem follows_visible (hsteps : ∀ name ∈ target, Path.IsStep name) {ending : String}
    (hending : ending = "" ∨ ending = "/") :
    Follows (Ignore.visible ((⟨.here, target⟩ : Path).toString ++ ending).toList) target := by
  have hending' : ending.toList = [] ∨ ending.toList = ['/'] := by
    rcases hending with rfl | rfl
    · exact .inl rfl
    · exact .inr rfl
  cases target with
  | nil =>
    -- The root itself is asked about by a text without a slash that rules can see.
    intro inside rest _ _ hpath
    have hslash : '/' ∉ Ignore.visible ((⟨.here, []⟩ : Path).toString ++ ending).toList := by
      rcases hending with rfl | rfl <;> decide +kernel
    rw [hpath] at hslash
    exact absurd (List.mem_append_right _ List.mem_cons_self) hslash
  | cons name names =>
    have hname := (hsteps name List.mem_cons_self).1
    rw [String.toList_append, toString_here hname, visible_ended (List.cons_ne_nil _ _) hsteps hending']
    exact follows_of_ended hsteps (List.cons_ne_nil _ _) hending'

theorem ofPath_eq_ok {start : Path} {scope : Scope} (h : ofPath d start = .ok scope) :
    ∃ lines, ((d.entry? scope.root.parts).map (linesIn d scope.root.parts scope.root.parts)).getD (.ok []) =
      .ok lines ∧ scope.rules = lines.filterMap Ignore.ruleOf? := by
  rw [ofPath_eq] at h
  obtain ⟨root, -, h⟩ := bind_eq_ok_iff.mp h
  obtain ⟨lines, hlines, h⟩ := bind_eq_ok_iff.mp h
  obtain ⟨rules, hrules, h⟩ := bind_eq_ok_iff.mp h
  cases h
  refine ⟨lines, hlines, Ignore.rulesOf_eq_ok ?_⟩
  cases hread : Ignore.rulesOf lines with
  | error e =>
    rw [hread] at hrules
    cases hrules
  | ok rules' =>
    rw [hread] at hrules
    cases hrules
    rfl

theorem filter_rules (hd : d.Sound) {start : Path} {scope : Scope} (h : ofPath d start = .ok scope)
    (hfollows : Follows path target) (hoff : LegibleOff d scope.root.parts target) :
    scope.rules.filter (·.pattern.holds path) =
      Ignore.speaking path (linesAlong d scope.root.parts [] target) := by
  obtain ⟨lines, hlines, hrules⟩ := ofPath_eq_ok h
  rw [hrules]
  cases he : d.entry? scope.root.parts with
  | none =>
    rw [he] at hlines
    cases hlines
    rw [linesAlong_of_not_folder (by simp [Disk.bare?, he])]
    rfl
  | some e =>
    rw [he, Option.map_some, Option.getD_some] at hlines
    rw [← List.append_nil scope.root.parts] at he
    have hlines' : linesIn d scope.root.parts (scope.root.parts ++ []) e = .ok lines := by
      rw [List.append_nil]
      exact hlines
    exact speaking_linesIn hd hfollows hoff he (List.nil_append target).symm hlines'

/-- On two disks that keep the same ignore files on the way to a path, the rules of both give the same
verdict on it, whatever ignore files the other folders hold and however the disks list them. -/
theorem isIgnored_of_same_way {d' : Disk} (hd : d.Sound) (hd' : d'.Sound) {start start' : Path}
    {scope scope' : Scope} (hscope : ofPath d start = .ok scope) (hscope' : ofPath d' start' = .ok scope')
    (hroot : scope'.root = scope.root) (hsteps : ∀ name ∈ target, Path.IsStep name)
    (hfolder : d'.holdsFolder ⟨scope.root.anchor, scope.root.parts ++ target⟩ =
      d.holdsFolder ⟨scope.root.anchor, scope.root.parts ++ target⟩)
    (hway : ∀ inside, inside <+: target →
      ignoreFile? d' (scope.root.parts ++ inside) = ignoreFile? d (scope.root.parts ++ inside))
    (hoff : LegibleOff d scope.root.parts target) (hoff' : LegibleOff d' scope.root.parts target) :
    scope'.isIgnored d' ⟨scope.root.anchor, scope.root.parts ++ target⟩ =
      scope.isIgnored d ⟨scope.root.anchor, scope.root.parts ++ target⟩ := by
  have hrelative : (⟨scope.root.anchor, scope.root.parts ++ target⟩ : Path).relativeTo? scope.root =
      some ⟨.here, target⟩ := by
    simp [Path.relativeTo?]
  rw [isIgnored, isIgnored, hfolder, hroot, hrelative]
  apply Ignore.isIgnored_eq_of_filter
  rw [Option.getD_some]
  have hfollows : Follows (Ignore.visible ((⟨.here, target⟩ : Path).toString ++
      if d.holdsFolder ⟨scope.root.anchor, scope.root.parts ++ target⟩ then "/" else "").toList) target := by
    apply follows_visible hsteps
    split
    · exact .inr rfl
    · exact .inl rfl
  have hlines : linesAlong d' scope.root.parts [] target = linesAlong d scope.root.parts [] target :=
    linesAlong_congr hway
  rw [filter_rules hd hscope hfollows hoff, filter_rules hd' hscope' hfollows (hroot ▸ hoff'), hroot,
    hlines]

/-- A repository with an ignore file beside the way to `a/x.jsx`. -/
def neighbouring (folder line : String) : Disk where
  root := [
    ("p", .folder [
      (".git", .folder []),
      (".gitignore", .file (bytesOf "*.log")),
      ("a", .folder [(".gitignore", .file (bytesOf "y.jsx")), ("x.jsx", .file [])]),
      (folder, .folder [(".gitignore", .file (bytesOf line))])])]

theorem isIgnored_neighbouring :
    (ofPath (neighbouring "b" "x.jsx") (.ofString "/p")).toOption.map
        (·.isIgnored (neighbouring "b" "x.jsx") (.ofString "/p/a/x.jsx")) = some false ∧
      (ofPath (neighbouring "c" "/*\n!*") (.ofString "/p/c")).toOption.map
          (·.isIgnored (neighbouring "c" "/*\n!*") (.ofString "/p/a/x.jsx")) =
        (ofPath (neighbouring "b" "x.jsx") (.ofString "/p")).toOption.map
          (·.isIgnored (neighbouring "b" "x.jsx") (.ofString "/p/a/x.jsx")) := by
  have hd : (neighbouring "b" "x.jsx").Sound :=
    Disk.sound_of_places (by decide +kernel) (by decide +kernel)
  have hd' : (neighbouring "c" "/*\n!*").Sound :=
    Disk.sound_of_places (by decide +kernel) (by decide +kernel)
  have hroot : (ofPath (neighbouring "b" "x.jsx") (.ofString "/p")).toOption.map (·.root) =
      some ⟨.root, ["p"]⟩ := by decide +kernel
  have hroot' : (ofPath (neighbouring "c" "/*\n!*") (.ofString "/p/c")).toOption.map (·.root) =
      some ⟨.root, ["p"]⟩ := by decide +kernel
  have hway : ∀ inside ∈ ["a", "x.jsx"].inits,
      ignoreFile? (neighbouring "c" "/*\n!*") (["p"] ++ inside) =
        ignoreFile? (neighbouring "b" "x.jsx") (["p"] ++ inside) := by decide +kernel
  have hoff : LegibleOff (neighbouring "b" "x.jsx") ["p"] ["a", "x.jsx"] :=
    legibleOff_of_places (by decide +kernel)
  have hoff' : LegibleOff (neighbouring "c" "/*\n!*") ["p"] ["a", "x.jsx"] :=
    legibleOff_of_places (by decide +kernel)
  refine ⟨by decide +kernel, ?_⟩
  obtain ⟨scope, hscope, heq⟩ := exists_of_toOption_map hroot
  obtain ⟨scope', hscope', heq'⟩ := exists_of_toOption_map hroot'
  have hsame := @isIgnored_of_same_way _ ["a", "x.jsx"] _ hd hd' _ _ _ _ hscope hscope'
    (heq'.trans heq.symm) (by decide) (by rw [heq]; decide +kernel)
    (by rw [heq]; exact fun inside h => hway inside ((List.mem_inits _ _).mpr h))
    (by rwa [heq]) (by rwa [heq])
  rw [heq] at hsame
  rw [hscope, hscope']
  exact congrArg some hsame

/-- A folder's name with brackets is read as a class of characters: what the ignore file in `[ab]` says is
said of the folder `a` too. -/
theorem isIgnored_bracketed :
    ((ofPath (neighbouring "[ab]" "x.jsx") (.ofString "/p")).toOption.map
        (·.isIgnored (neighbouring "[ab]" "x.jsx") (.ofString "/p/a/x.jsx"))) = some true ∧
      ((ofPath (neighbouring "b" "x.jsx") (.ofString "/p")).toOption.map
        (·.isIgnored (neighbouring "b" "x.jsx") (.ofString "/p/a/x.jsx"))) = some false ∧
      ∀ inside, inside <+: ["a", "x.jsx"] →
        ignoreFile? (neighbouring "[ab]" "x.jsx") (["p"] ++ inside) =
          ignoreFile? (neighbouring "b" "x.jsx") (["p"] ++ inside) := by
  refine ⟨by decide +kernel, by decide +kernel, fun inside hinside => ?_⟩
  have hway : ∀ inside ∈ ["a", "x.jsx"].inits,
      ignoreFile? (neighbouring "[ab]" "x.jsx") (["p"] ++ inside) =
        ignoreFile? (neighbouring "b" "x.jsx") (["p"] ++ inside) := by decide +kernel
  exact hway inside ((List.mem_inits _ _).mpr hinside)

end Scope

end SuiteDraft
