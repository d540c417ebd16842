import SuiteDraft.Proofs.Discovery.Nesting
import SuiteDraft.Proofs.Files.Outline
import SuiteDraft.Proofs.Ignore.Lines

/-!
# Where the rules of a scan come from

The rules of a repository are gathered from folder to folder. Which folders these are is told by the
outline of the disk; and what a folder gives is told by the lines of its ignore file, one at a time.
-/

namespace SuiteDraft

namespace Ignore

theorem rulesOf_cons (line : List Char) (lines : List (List Char)) :
    rulesOf (line :: lines) = do
      let rule? ← Rule.ofLine? line
      return rule?.toList ++ (← rulesOf lines) := by
  rw [rulesOf, rulesOf, List.mapM_cons]
  rcases Rule.ofLine? line with e | _ | rule
  · rfl
  all_goals rcases List.mapM Rule.ofLine? lines with e | rules <;> rfl

theorem rulesOf_append (lines more : List (List Char)) :
    rulesOf (lines ++ more) = do return (← rulesOf lines) ++ (← rulesOf more) := by
  induction lines with
  | nil =>
    rw [List.nil_append]
    rcases rulesOf more with e | rules <;> rfl
  | cons line lines ih =>
    rw [List.cons_append, rulesOf_cons, rulesOf_cons, ih]
    rcases Rule.ofLine? line with e | rule?
    · rfl
    rcases rulesOf lines with e | rules
    · rfl
    rcases rulesOf more with e | others
    · rfl
    · exact congrArg Except.ok (List.append_assoc _ _ _).symm

/-- The rules that lines of the ignore file at the end of a way give. -/
def rulesIn (lines : List (List Char)) (way : List Char) : Except RuleError (List Rule) :=
  rulesOf (lines.filterMap (relocate · way))

theorem rulesIn_cons (line : List Char) (lines : List (List Char)) (way : List Char) :
    rulesIn (line :: lines) way = do
      let rule? ← ruleIn line way
      return rule?.toList ++ (← rulesIn lines way) := by
  rw [rulesIn, rulesIn, List.filterMap_cons, ruleIn]
  cases relocate line way with
  | none => cases rulesOf (lines.filterMap (relocate · way)) <;> rfl
  | some relocated => exact rulesOf_cons relocated _

/-- Lines give rules when each of them gives one or none. -/
theorem isOk_rulesIn_iff {lines : List (List Char)} {way : List Char} :
    (rulesIn lines way).isOk = true ↔ ∀ line ∈ lines, (ruleIn line way).isOk = true := by
  induction lines with
  | nil => exact ⟨fun _ _ h => absurd h List.not_mem_nil, fun _ => rfl⟩
  | cons line lines ih =>
    rw [rulesIn_cons, List.forall_mem_cons, ← ih]
    rcases ruleIn line way with e | rule?
    · simp [bind, Except.bind, Except.isOk, Except.toBool]
    · rcases rulesIn lines way with e | rules
      · simp [bind, Except.bind, Except.isOk, Except.toBool]
      · simp [bind, Except.bind, pure, Except.pure, Except.isOk, Except.toBool]

end Ignore

namespace Scope

variable {d d' : Disk} {root names inside : List String}

/-! ### The folders of a scan -/

mutual

/-- The folders that a scan of an entry looks into for ignore files, in its order. -/
def foldersIn (names : List String) : Entry → List (List String)
  | .file _ => []
  | .link _ => []
  | .folder es => names :: foldersBelow names es

def foldersBelow (names : List String) : List (String × Entry) → List (List String)
  | [] => []
  | (name, e) :: rest =>
    (if ignoredDirectories.contains name then [] else foldersIn (names ++ [name]) e) ++
      foldersBelow names rest

end

/-- A folder that a scan looks into: one that is reached through no name that it stays out of. -/
structure Scanned (d : Disk) (root inside : List String) : Prop where
  folder : d.bare? (root ++ inside) = some (.folder [])
  entered : ∀ name ∈ inside, ignoredDirectories.contains name = false

theorem foldersBelow_eq_flatMap (names : List String) (es : List (String × Entry)) :
    foldersBelow names es = (es.filter fun x => !ignoredDirectories.contains x.1).flatMap fun x =>
      foldersIn (names ++ [x.1]) x.2 := by
  induction es with
  | nil => rfl
  | cons x es ih =>
    obtain ⟨name, e⟩ := x
    rw [foldersBelow, ih, List.filter_cons]
    cases hname : ignoredDirectories.contains name with
    | true => rfl
    | false => rfl

theorem mem_foldersBelow_iff {es : List (String × Entry)} {more : List String} :
    more ∈ foldersBelow names es ↔
      ∃ x ∈ es, ignoredDirectories.contains x.1 = false ∧ more ∈ foldersIn (names ++ [x.1]) x.2 := by
  rw [foldersBelow_eq_flatMap, List.mem_flatMap]
  simp only [List.mem_filter, Bool.not_eq_true', and_assoc]

/-- A scan looks into the folders that it comes to. -/
theorem mem_foldersIn_iff (hd : d.Sound) {e : Entry} (he : d.entry? names = some e) {more : List String} :
    more ∈ foldersIn names e ↔ ∃ inside, more = names ++ inside ∧ Scanned d names inside := by
  induction e using Entry.induction generalizing names with
  | file bytes | link target =>
    refine ⟨fun h => absurd h List.not_mem_nil, ?_⟩
    rintro ⟨inside, -, hfolder, -⟩
    rw [Disk.bare?, Disk.entry?_append, he] at hfolder
    cases inside <;> cases hfolder
  | folder es ih =>
    rw [foldersIn, List.mem_cons, mem_foldersBelow_iff]
    constructor
    · rintro (rfl | ⟨x, hx, hname, hmore⟩)
      · refine ⟨[], (List.append_nil _).symm, ?_, fun _ h => absurd h List.not_mem_nil⟩
        rw [List.append_nil]
        exact Disk.bare?_eq_folder_iff.mpr ⟨es, he⟩
      · obtain ⟨inside, rfl, hfolder, hentered⟩ := (ih x hx (hd.entry?_of_mem he hx)).mp hmore
        rw [List.append_assoc] at hfolder
        exact ⟨x.1 :: inside, List.append_assoc _ _ _, hfolder, List.forall_mem_cons.mpr ⟨hname, hentered⟩⟩
    · rintro ⟨inside, rfl, hfolder, hentered⟩
      cases inside with
      | nil => exact .inl (List.append_nil _)
      | cons name inside =>
        right
        obtain ⟨hname, hentered⟩ := List.forall_mem_cons.mp hentered
        obtain ⟨inner, hinner⟩ := Disk.bare?_eq_folder_iff.mp hfolder
        have hchild := hinner
        rw [Disk.entry?_append, he, Option.bind_some, Entry.at?_folder] at hchild
        obtain ⟨child, hget, -⟩ := Option.bind_eq_some_iff.mp hchild
        have hmem := Keyed.mem_of_get? hget
        rw [List.append_cons] at hfolder
        exact ⟨_, hmem, hname, (ih _ hmem (hd.entry?_of_mem he hmem)).mpr
          ⟨inside, List.append_cons _ _ _, hfolder, hentered⟩⟩

theorem foldersBelow_hollowIn (names : List String) (es : List (String × Entry))
    (h : ∀ x ∈ es, ∀ names, foldersIn names x.2.hollow = foldersIn names x.2) :
    foldersBelow names (Entry.hollowIn es) = foldersBelow names es := by
  induction es with
  | nil => rfl
  | cons x es ih =>
    obtain ⟨name, e⟩ := x
    rw [Entry.hollowIn, foldersBelow, foldersBelow, h _ List.mem_cons_self,
      ih fun x hx => h x (List.mem_cons_of_mem _ hx)]

theorem foldersIn_hollow (names : List String) (e : Entry) : foldersIn names e.hollow = foldersIn names e := by
  induction e using Entry.induction generalizing names with
  | file bytes => rfl
  | link target => rfl
  | folder es ih =>
    rw [Entry.hollow, foldersIn, foldersIn, foldersBelow_hollowIn names es fun x hx names => ih x hx names]

/-! ### What a folder gives -/

/-- The lines of the ignore file in a folder, as they stand there. -/
def rawLines (d : Disk) (names : List String) : Except ScanError (List (List Char)) :=
  match d.entry? (names ++ [fileName]) with
  | none => .ok []
  | some e =>
    if isFolderHere d names fileName e then .ok []
    else
      match d.read ⟨.root, names ++ [fileName]⟩ with
      | .error fault => .error (.file ⟨fault, ⟨.root, names ++ [fileName]⟩⟩)
      | .ok bytes => .ok (linesOf ((Glyph.ofBytes bytes).map (·.char)))

/-- What ignore files give: their rules, unless a file cannot be read or else a line cannot be a rule. -/
abbrev Gathered := Except ScanError (Except Ignore.RuleError (List Ignore.Rule))

/-- What the ignore file of a folder gives. -/
def rulesHere (d : Disk) (root names : List String) : Gathered :=
  (rawLines d names).map (Ignore.rulesIn · (Ignore.wayOf (names.drop root.length)))

theorem ownLines_eq {es : Folder} (he : d.entry? names = some (.folder es)) (root : List String) :
    ownLines d root names es =
      (rawLines d names).map (List.filterMap (Ignore.relocate · (Ignore.wayOf (names.drop root.length)))) := by
  have hfile : d.entry? (names ++ [fileName]) = Keyed.get? es fileName := by
    rw [Disk.entry?_append, he, Option.bind_some, Entry.at?_folder]
    cases Keyed.get? es fileName <;> rfl
  rw [ownLines, rawLines, hfile]
  cases Keyed.get? es fileName with
  | none => rfl
  | some e =>
    dsimp only
    split
    · rfl
    · cases d.read ⟨.root, names ++ [fileName]⟩ <;> rfl

/-- One folder's rules and then those of others: a file that cannot be read comes before a line that
cannot be a rule. -/
def andThen (x y : Gathered) : Gathered := do
  let rules ← x
  let more ← y
  return do return (← rules) ++ (← more)

def gather (here : List String → Gathered) : List (List String) → Gathered
  | [] => .ok (.ok [])
  | names :: rest => andThen (here names) (gather here rest)

theorem andThen_assoc (x y z : Gathered) :
    andThen (andThen x y) z = andThen x (andThen y z) := by
  rcases x with _ | _ | rules
  · rfl
  all_goals
    rcases y with _ | _ | more
    · rfl
    all_goals
      rcases z with _ | _ | others
      · rfl
      all_goals first
        | rfl
        | exact congrArg (fun rules => Except.ok (Except.ok rules)) (List.append_assoc _ _ _)

theorem gather_append (here : List String → Gathered) (folders more : List (List String)) :
    gather here (folders ++ more) = andThen (gather here folders) (gather here more) := by
  induction folders with
  | nil =>
    rw [List.nil_append]
    rcases gather here more with _ | _ | rules <;> rfl
  | cons names folders ih => rw [List.cons_append, gather, gather, ih, andThen_assoc]

theorem map_rulesOf_append (x y : Except ScanError (List (List Char))) :
    (do return (← x) ++ (← y) : Except ScanError (List (List Char))).map Ignore.rulesOf =
      andThen (x.map Ignore.rulesOf) (y.map Ignore.rulesOf) := by
  rcases x with e | lines
  · rfl
  rcases y with e | more
  · rfl
  · exact congrArg Except.ok (Ignore.rulesOf_append lines more)

mutual

/-- The rules of a scan are those of the folders that it looks into, in its order. -/
theorem map_rulesOf_linesIn (hd : d.Sound) (root names : List String) : ∀ e : Entry,
    d.entry? names = some e →
      (linesIn d root names e).map Ignore.rulesOf = gather (rulesHere d root) (foldersIn names e)
  | .file _, _ => rfl
  | .link _, _ => rfl
  | .folder es, he => by
    rw [linesIn, map_rulesOf_append, foldersIn, gather, ownLines_eq he,
      map_rulesOf_linesBelow hd root names es fun x hx => hd.entry?_of_mem he hx]
    congr 1
    rw [rulesHere]
    cases rawLines d names <;> rfl

theorem map_rulesOf_linesBelow (hd : d.Sound) (root names : List String) : ∀ es : List (String × Entry),
    (∀ x ∈ es, d.entry? (names ++ [x.1]) = some x.2) →
      (linesBelow d root names es).map Ignore.rulesOf = gather (rulesHere d root) (foldersBelow names es)
  | [], _ => rfl
  | (name, e) :: rest, hes => by
    have hrest := map_rulesOf_linesBelow hd root names rest fun x hx => hes x (List.mem_cons_of_mem _ hx)
    rw [linesBelow, foldersBelow, gather_append, ← hrest]
    split
    · exact map_rulesOf_append (.ok []) _
    · rw [← map_rulesOf_linesIn hd root (names ++ [name]) e (hes _ List.mem_cons_self)]
      exact map_rulesOf_append _ _

end

theorem gather_congr {here here' : List String → Gathered}
    {folders : List (List String)} (h : ∀ names ∈ folders, here' names = here names) :
    gather here' folders = gather here folders := by
  induction folders with
  | nil => rfl
  | cons names folders ih =>
    rw [gather, gather, h names List.mem_cons_self, ih fun names hnames => h names (List.mem_cons_of_mem _ hnames)]

/-- The folders that a scan of the folder at the end of names looks into. -/
def folders (d : Disk) (names : List String) : List (List String) :=
  ((d.entry? names).map (foldersIn names)).getD []

theorem mem_folders_iff (hd : d.Sound) {more : List String} :
    more ∈ folders d names ↔ ∃ inside, more = names ++ inside ∧ Scanned d names inside := by
  unfold folders
  cases he : d.entry? names with
  | none =>
    refine ⟨fun h => absurd h List.not_mem_nil, ?_⟩
    rintro ⟨inside, -, hfolder, -⟩
    rw [Disk.bare?, Disk.entry?_append, he] at hfolder
    cases hfolder
  | some e => exact mem_foldersIn_iff hd he

theorem ofPath_eq_gather (hd : d.Sound) (start : Path) :
    ofPath d start = (rootOf d start).bind fun root =>
      (gather (rulesHere d root.parts) (folders d root.parts)).bind fun rules =>
        (rules.mapError .rule).map (⟨root, ·⟩) := by
  rw [ofPath_eq]
  congr 1
  funext root
  unfold folders
  cases he : d.entry? root.parts with
  | none => rfl
  | some e =>
    rw [Option.map_some, Option.getD_some, Option.map_some, Option.getD_some,
      ← map_rulesOf_linesIn hd root.parts root.parts e he]
    rcases linesIn d root.parts root.parts e with fault | lines
    · rfl
    · rfl

/-! ### Two disks of one outline -/

section

variable (h : d.SameOutline d')

include h

theorem rootOf_of_outline (start : Path) : rootOf d' start = rootOf d start := by
  have hholds : d'.holds = d.holds := funext h.holds_eq
  rw [rootOf, rootOf, h.resolve_eq, hholds]

theorem folders_of_outline (names : List String) : folders d' names = folders d names := by
  have hmap : ∀ d : Disk, folders d names = (((d.entry? names).map Entry.hollow).map (foldersIn names)).getD [] := by
    intro d
    rw [folders, Option.map_map]
    congr 2
    funext e
    exact (foldersIn_hollow names e).symm
  rw [hmap, hmap, h.entry?_eq]

theorem isFolderHere_of_outline (names : List String) (name : String) {e e' : Entry}
    (he : e'.hollow = e.hollow) : isFolderHere d' names name e' = isFolderHere d names name e := by
  have hfolder := h.holdsFolder_eq ⟨.root, names ++ [name]⟩
  cases e <;> cases e' <;> first | rfl | exact hfolder | cases he

/-- An ignore file can be read on both disks, or is the same fault on both. -/
theorem rawLines_of_outline (names : List String) :
    (∃ lines lines', rawLines d names = .ok lines ∧ rawLines d' names = .ok lines') ∨
      ∃ error, rawLines d names = .error error ∧ rawLines d' names = .error error := by
  have hfile := h.entry?_eq (names ++ [fileName])
  have hread := h.read_eq ⟨.root, names ++ [fileName]⟩
  rw [rawLines, rawLines]
  rcases hentry : d.entry? (names ++ [fileName]) with _ | e
  · rw [hentry] at hfile
    rw [Option.map_eq_none_iff.mp hfile]
    exact .inl ⟨[], [], rfl, rfl⟩
  · rw [hentry] at hfile
    obtain ⟨e', hentry', he⟩ := Option.map_eq_some_iff.mp hfile
    rw [hentry']
    dsimp only
    rw [isFolderHere_of_outline h names fileName he]
    split
    · exact .inl ⟨[], [], rfl, rfl⟩
    · generalize d.read ⟨.root, names ++ [fileName]⟩ = read at hread ⊢
      generalize d'.read ⟨.root, names ++ [fileName]⟩ = read' at hread ⊢
      rcases read with fault | bytes <;> rcases read' with fault' | bytes' <;> cases hread
      · exact .inr ⟨_, rfl, rfl⟩
      · exact .inl ⟨_, _, rfl, rfl⟩

theorem rulesHere_of_outline
    (hrules : ∀ lines lines', rawLines d names = .ok lines → rawLines d' names = .ok lines' →
      Ignore.rulesIn lines' (Ignore.wayOf (names.drop root.length)) =
        Ignore.rulesIn lines (Ignore.wayOf (names.drop root.length))) :
    rulesHere d' root names = rulesHere d root names := by
  rw [rulesHere, rulesHere]
  rcases rawLines_of_outline h names with ⟨lines, lines', hlines, hlines'⟩ | ⟨error, hlines, hlines'⟩
  · rw [hlines, hlines']
    exact congrArg Except.ok (hrules lines lines' hlines hlines')
  · rw [hlines, hlines']

theorem isIgnored_of_outline (scope : Scope) : scope.isIgnored d' = scope.isIgnored d :=
  funext fun p => isIgnored_congr (h.holdsFolder_eq p)

end

/-- Where the ignore files of two disks of one outline give the same rules, folder by folder, the scope is
the same. -/
theorem ofPath_of_outline (hd : d.Sound) (h : d.SameOutline d') {start root : Path}
    (hroot : rootOf d start = .ok root)
    (hrules : ∀ inside, Scanned d root.parts inside → ∀ lines lines',
      rawLines d (root.parts ++ inside) = .ok lines → rawLines d' (root.parts ++ inside) = .ok lines' →
        Ignore.rulesIn lines' (Ignore.wayOf inside) = Ignore.rulesIn lines (Ignore.wayOf inside)) :
    ofPath d' start = ofPath d start := by
  have hgather : gather (rulesHere d' root.parts) (folders d root.parts) =
      gather (rulesHere d root.parts) (folders d root.parts) := by
    apply gather_congr
    intro names hnames
    obtain ⟨inside, rfl, hscanned⟩ := (mem_folders_iff hd).mp hnames
    apply rulesHere_of_outline h
    rw [List.drop_left]
    exact hrules inside hscanned
  rw [ofPath_eq_gather hd, ofPath_eq_gather (h.sound hd), rootOf_of_outline h, hroot]
  change (gather _ _).bind _ = (gather _ _).bind _
  rw [folders_of_outline h, hgather]

end Scope

namespace Discovery

variable {d d' : Disk}

/-! ### What a scan finds on two disks of one outline -/

theorem isFolderHere_hollow (d : Disk) (names : List String) (name : String) (e : Entry) :
    Scope.isFolderHere d.hollow names name e.hollow = Scope.isFolderHere d names name e := by
  cases e with
  | file bytes => rfl
  | folder es => rfl
  | link target => exact d.holdsFolder_hollow _

theorem ownFiles_hollow (d : Disk) (ignored : Path → Bool) (names : List String) (es : Folder) :
    ownFiles d.hollow ignored names (Entry.hollowIn es) = ownFiles d ignored names es := by
  have hfolder : (fun x => !Scope.isFolderHere d.hollow names x.1 x.2) ∘
      (fun x : String × Entry => (x.1, x.2.hollow)) = fun x => !Scope.isFolderHere d names x.1 x.2 :=
    funext fun x => congrArg not (isFolderHere_hollow d names x.1 x.2)
  have hfiles : (Entry.hollowIn es).filter (fun x => !Scope.isFolderHere d.hollow names x.1 x.2) =
      (es.filter fun x => !Scope.isFolderHere d names x.1 x.2).map fun x => (x.1, x.2.hollow) := by
    rw [Entry.hollowIn_eq_map, List.filter_map, hfolder]
  rw [ownFiles, ownFiles, hfiles, inOrder_map_key, List.map_map]
  rfl

mutual

theorem filesIn_hollow (d : Disk) (ignored : Path → Bool) (names : List String) : ∀ e : Entry,
    filesIn d.hollow ignored names e.hollow = filesIn d ignored names e
  | .file _ => rfl
  | .link _ => rfl
  | .folder es => by
    rw [Entry.hollow, filesIn, filesIn, ownFiles_hollow, filesBelow_hollow d ignored names es]

theorem filesBelow_hollow (d : Disk) (ignored : Path → Bool) (names : List String) :
    ∀ es : List (String × Entry),
      filesBelow d.hollow ignored names (Entry.hollowIn es) = filesBelow d ignored names es
  | [] => rfl
  | (name, e) :: rest => by
    rw [Entry.hollowIn, filesBelow, filesBelow, filesIn_hollow d ignored (names ++ [name]) e,
      filesBelow_hollow d ignored names rest]

end

theorem filesUnder_of_outline (h : d.SameOutline d') (ignored : Path → Bool) (root : List String) :
    filesUnder d' ignored root = filesUnder d ignored root := by
  have hhollow : ∀ d : Disk, filesUnder d.hollow ignored root = filesUnder d ignored root := by
    intro d
    rw [filesUnder, filesUnder, d.entry?_hollow, Option.map_map]
    congr 2
    exact funext fun e => filesIn_hollow d ignored root e
  rw [← hhollow d', h, hhollow d]

theorem components_of_outline (h : d.SameOutline d') {p start : Path} (hp : d.resolve p = .ok start)
    (hscope : Scope.ofPath d' start = Scope.ofPath d start) : components d' p = components d p := by
  rw [components, components, h.resolve_eq, hp]
  change (Scope.ofPath d' start).bind _ = (Scope.ofPath d start).bind _
  rw [hscope]
  congr 1
  funext scope
  rw [Scope.isIgnored_of_outline h, filesUnder_of_outline h]

end Discovery

namespace Scope

/-- A repository with an ignore file in its root and another in a folder of it. -/
def layered (outer inner : String) : Disk where
  root := [
    ("p", .folder [
      (".git", .folder []),
      (".gitignore", .file (bytesOf outer)),
      ("a", .folder [
        (".gitignore", .file (bytesOf inner)),
        ("x.jsx", .file []),
        ("foo", .folder [("y.jsx", .file [])])])])]

theorem layered_sameOutline (outer inner outer' inner' : String) :
    (layered outer inner).SameOutline (layered outer' inner') := rfl

theorem layered_sound (outer inner : String) : (layered outer inner).Sound :=
  (layered_sameOutline "" "" outer inner).sound (Disk.sound_of_places (by decide +kernel) (by decide +kernel))

theorem folders_layered (outer inner : String) :
    folders (layered outer inner) ["p"] = [["p"], ["p", "a"], ["p", "a", "foo"]] :=
  (folders_of_outline (layered_sameOutline "" "" outer inner) ["p"]).trans (by decide +kernel)

theorem scanned_layered {outer inner : String} {inside : List String}
    (h : Scanned (layered outer inner) ["p"] inside) :
    inside = [] ∨ inside = ["a"] ∨ inside = ["a", "foo"] := by
  have hmem := (mem_folders_iff (layered_sound outer inner)).mpr ⟨inside, rfl, h⟩
  rw [folders_layered] at hmem
  simpa using hmem

theorem rootOf_layered (outer inner : String) :
    rootOf (layered outer inner) (.ofString "/p") = .ok (.ofString "/p") :=
  (rootOf_of_outline (layered_sameOutline "" "" outer inner) _).trans (by decide +kernel)

theorem resolve_layered (outer inner : String) :
    (layered outer inner).resolve (.ofString "/p") = .ok (.ofString "/p") :=
  ((layered_sameOutline "" "" outer inner).resolve_eq _).trans (by decide +kernel)

end Scope

end SuiteDraft
