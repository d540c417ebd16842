import Mathlib.Data.List.DropRight
import Mathlib.Data.List.TakeWhile
import SuiteDraft.Proofs.Analysis.Attributes
import SuiteDraft.Proofs.Analysis.Elements

/-!
# The text of an element

Pieces of text that stand side by side below an element make a run, which every other node ends. The
text of an element is what its first run says that is not blank, without the blanks at its ends. What
another node parts is never joined, and into how many pieces a run is cut has no say.
-/

namespace SuiteDraft

namespace Text

/-- Some text, which neither begins nor ends with a blank. -/
def Trimmed (s : List Char) : Prop :=
  ∃ h : s ≠ [], isBlank (s.head h) = false ∧ isBlank (s.getLast h) = false

theorem trim_eq_nil_iff {s : List Char} : trim s = [] ↔ ∀ c ∈ s, isBlank c = true := by
  change List.rdropWhile isBlank (s.dropWhile isBlank) = [] ↔ _
  rw [List.rdropWhile_eq_nil_iff]
  constructor
  · intro h
    rw [← List.dropWhile_eq_nil_iff]
    by_contra ne_nil
    have first := List.head_dropWhile_not isBlank ne_nil
    rw [h _ (List.head_mem ne_nil)] at first
    cases first
  · exact fun h c mem => h c (List.dropWhile_sublist _ |>.subset mem)

theorem trim_append_of_blank {blanks : List Char} (h : ∀ c ∈ blanks, isBlank c = true)
    (s : List Char) : trim (blanks ++ s) = trim s := by
  rw [trim, trimLeft, List.dropWhile_append_of_pos h]
  rfl

theorem trimmed_trim {s : List Char} (h : trim s ≠ []) : Trimmed (trim s) := by
  have first : trim s <+: s.dropWhile isBlank := List.rdropWhile_prefix isBlank _
  refine ⟨h, ?_, ?_⟩
  · rw [first.head h]
    exact List.head_dropWhile_not isBlank _
  · exact Bool.eq_false_iff.mpr (List.rdropWhile_last_not isBlank (s.dropWhile isBlank) h)

end Text

namespace Markup

/-- A piece of text: text as it stands, or a character reference. -/
def IsPiece (t : Tree) : Prop := t.kind = .jsxText ∨ t.kind = .characterReference

/-- What a piece says: a reference what it refers to, and text itself. -/
def said (t : Tree) : List Char :=
  if t.kind = .characterReference then (Text.resolveReferences t.text).toList else t.text.toList

/-- What pieces say one after the other. -/
def wording (run : List Tree) : List Char := run.flatMap said

def Blank (run : List Tree) : Prop := ∀ c ∈ wording run, Text.isBlank c = true

/-- A run of pieces among `nodes` that no piece stands before or after. -/
structure MaximalRun (nodes before run after : List Tree) : Prop where
  split : nodes = before ++ (run ++ after)
  ne_nil : run ≠ []
  pieces : ∀ t ∈ run, IsPiece t
  opens : ∀ t ∈ before.getLast?, ¬ IsPiece t
  closes : ∀ t ∈ after.head?, ¬ IsPiece t

/-- Every run among nodes is blank. -/
def AllBlank (nodes : List Tree) : Prop :=
  ∀ before run after, MaximalRun nodes before run after → Blank run

/-! ## One step of the search -/

theorem firstText?_piece {c : Tree} (h : IsPiece c) (run : List Char) (cs : List Tree) :
    firstText? run (c :: cs) = firstText? (run ++ said c) cs := by
  have piece : textPiece? c = some (said c) := by
    rcases h with kind | kind <;> simp [textPiece?, said, kind]
  rw [firstText?, piece]

theorem firstText?_other {c : Tree} (h : ¬ IsPiece c) (run : List Char) (cs : List Tree) :
    firstText? run (c :: cs) = (runText? run).or (firstText? [] cs) := by
  have piece : textPiece? c = none := by
    rw [IsPiece, not_or] at h
    simp [textPiece?, h]
  rw [firstText?, piece]

theorem runText?_eq_none_iff {run : List Char} :
    runText? run = none ↔ ∀ c ∈ run, Text.isBlank c = true := by
  rw [← Text.trim_eq_nil_iff]
  simp [runText?]

theorem runText?_eq_some_iff {run : List Char} {text : String} :
    runText? run = some text ↔ Text.trim run ≠ [] ∧ text.toList = Text.trim run := by
  simp only [runText?, List.isEmpty_iff, ne_eq]
  split <;> rename_i h
  · simp [h]
  · rw [Option.some.injEq, and_iff_right h, ← String.toList_inj, String.toList_ofList, eq_comm]

/-! ## Runs in a search -/

/-- Pieces join the run before them. -/
theorem firstText?_pieces {pieces : List Tree} (h : ∀ t ∈ pieces, IsPiece t) (run : List Char)
    (after : List Tree) :
    firstText? run (pieces ++ after) = firstText? (run ++ wording pieces) after := by
  induction pieces generalizing run with
  | nil => rw [List.nil_append, wording, List.flatMap_nil, List.append_nil]
  | cons c cs ih =>
    obtain ⟨hc, hcs⟩ := List.forall_mem_cons.mp h
    rw [List.cons_append, firstText?_piece hc, ih hcs, wording, wording, List.flatMap_cons,
      List.append_assoc]

/-- A node that is no piece parts a search in two. -/
theorem firstText?_parted {c : Tree} (h : ¬ IsPiece c) (run : List Char)
    (before after : List Tree) :
    firstText? run (before ++ c :: after) = (firstText? run before).or (firstText? [] after) := by
  induction before generalizing run with
  | nil => exact firstText?_other h run after
  | cons b before ih =>
    rw [List.cons_append]
    by_cases hb : IsPiece b
    · rw [firstText?_piece hb, firstText?_piece hb, ih]
    · rw [firstText?_other hb, firstText?_other hb, ih, Option.or_assoc]

/-- Blanks at the beginning of a run have no say. -/
theorem firstText?_append_of_blank {blanks : List Char} (h : ∀ c ∈ blanks, Text.isBlank c = true)
    (run : List Char) (nodes : List Tree) : firstText? (blanks ++ run) nodes = firstText? run nodes := by
  have same (run : List Char) : runText? (blanks ++ run) = runText? run := by
    rw [runText?, runText?, Text.trim_append_of_blank h]
  induction nodes generalizing run with
  | nil => exact same run
  | cons c cs ih =>
    by_cases hc : IsPiece c
    · rw [firstText?_piece hc, firstText?_piece hc, List.append_assoc, ih]
    · rw [firstText?_other hc, firstText?_other hc, same]

/-- Nodes without a text have no say in what comes after them. -/
theorem firstText?_append_of_none {before : List Tree} {run : List Char}
    (h : firstText? run before = none) (after : List Tree) :
    firstText? run (before ++ after) = firstText? [] after := by
  -- Pieces at the end may begin a run that goes on, but only with blanks.
  induction before generalizing run with
  | nil =>
    have blank := firstText?_append_of_blank (runText?_eq_none_iff.mp h) [] after
    rwa [List.append_nil] at blank
  | cons c cs ih =>
    rw [List.cons_append]
    by_cases hc : IsPiece c
    · rw [firstText?_piece hc] at h ⊢
      exact ih h
    · rw [firstText?_other hc, Option.or_eq_none_iff] at h
      rw [firstText?_other hc, h.1, Option.none_or, ih h.2]

theorem firstText?_nil : firstText? [] [] = none := rfl

namespace MaximalRun

variable {nodes before run after : List Tree}

/-- A run parts a search in three: what is before it, the run, and what is after it. -/
theorem firstText?_eq (h : MaximalRun nodes before run after) :
    firstText? [] nodes =
      (firstText? [] before).or ((runText? (wording run)).or (firstText? [] after)) := by
  have tail : firstText? [] (run ++ after) = (runText? (wording run)).or (firstText? [] after) := by
    rw [firstText?_pieces h.pieces, List.nil_append]
    cases after with
    | nil => rw [firstText?_nil, Option.or_none, firstText?]
    | cons d after =>
      have closes : ¬ IsPiece d := h.closes d rfl
      rw [firstText?_other closes, firstText?_other closes]
      rfl
  rw [h.split]
  rcases List.eq_nil_or_concat before with rfl | ⟨initial, c, rfl⟩
  · rw [List.nil_append, tail, firstText?_nil, Option.none_or]
  · have opens : ¬ IsPiece c := h.opens c (by rw [List.concat_eq_append, List.getLast?_concat]; rfl)
    rw [List.concat_eq_append, List.append_assoc, List.singleton_append, firstText?_parted opens,
      firstText?_parted opens, firstText?_nil, Option.or_none, tail]

/-- A run stays one when other nodes are put before it. -/
theorem shift (h : MaximalRun nodes before run after) {c : Tree} (hc : ¬ IsPiece c)
    (initial : List Tree) :
    MaximalRun (initial ++ c :: nodes) (initial ++ c :: before) run after where
  split := by rw [h.split, List.append_assoc, List.cons_append]
  ne_nil := h.ne_nil
  pieces := h.pieces
  opens := by
    intro t ht
    rw [List.getLast?_append_cons, List.getLast?_cons] at ht
    cases hlast : before.getLast? with
    | none =>
      rw [hlast] at ht
      cases ht
      exact hc
    | some last =>
      rw [hlast] at ht
      cases ht
      exact h.opens last hlast
  closes := h.closes

end MaximalRun

/-- A text that is found is that of a run before which no text is found. -/
theorem exists_run_of_firstText? {nodes : List Tree} (pieces : List Tree)
    (h : ∀ t ∈ pieces, IsPiece t) {text : String} (found : firstText? (wording pieces) nodes = some text) :
    ∃ before run after, MaximalRun (pieces ++ nodes) before run after ∧
      firstText? [] before = none ∧ runText? (wording run) = some text := by
  -- The pieces are those of the run that the search has gathered so far.
  induction nodes generalizing pieces with
  | nil =>
    refine ⟨[], pieces, [], ⟨rfl, ?_, h, nofun, nofun⟩, firstText?_nil, found⟩
    rintro rfl
    cases found
  | cons c cs ih =>
    by_cases hc : IsPiece c
    · have hpieces : ∀ t ∈ pieces ++ [c], IsPiece t :=
        List.forall_mem_append.mpr ⟨h, List.forall_mem_singleton.mpr hc⟩
      have gathered : wording (pieces ++ [c]) = wording pieces ++ said c := by
        rw [wording, List.flatMap_append, List.flatMap_singleton]
        rfl
      rw [firstText?_piece hc, ← gathered] at found
      rw [List.append_cons]
      exact ih _ hpieces found
    · rw [firstText?_other hc, Option.or_eq_some_iff] at found
      rcases found with found | ⟨absent, found⟩
      · refine ⟨[], pieces, c :: cs, ⟨rfl, ?_, h, nofun, ?_⟩, firstText?_nil, found⟩
        · rintro rfl
          cases found
        · rintro _ ⟨⟩
          exact hc
      · obtain ⟨before, run, after, maximal, earlier, told⟩ := ih [] nofun found
        refine ⟨pieces ++ c :: before, run, after, maximal.shift hc pieces, ?_, told⟩
        have gathered : firstText? [] pieces = runText? (wording pieces) := by
          have alone := firstText?_pieces h [] []
          rwa [List.append_nil, List.nil_append] at alone
        rw [firstText?_parted hc, gathered, absent, Option.none_or, earlier]

theorem firstText?_eq_none_iff {nodes : List Tree} :
    firstText? [] nodes = none ↔ AllBlank nodes := by
  constructor
  · intro absent before run after maximal
    rw [maximal.firstText?_eq, Option.or_eq_none_iff, Option.or_eq_none_iff] at absent
    exact runText?_eq_none_iff.mp absent.2.1
  · intro blank
    rw [Option.eq_none_iff_forall_ne_some]
    intro text found
    obtain ⟨before, run, after, maximal, -, told⟩ := exists_run_of_firstText? [] nofun found
    rw [runText?_eq_none_iff.mpr (blank before run after maximal)] at told
    cases told

theorem firstText?_eq_some_iff {nodes : List Tree} {text : String} :
    firstText? [] nodes = some text ↔ ∃ before run after, MaximalRun nodes before run after ∧
      AllBlank before ∧ ¬ Blank run ∧ text.toList = Text.trim (wording run) := by
  have told_iff (run : List Tree) : runText? (wording run) = some text ↔
      ¬ Blank run ∧ text.toList = Text.trim (wording run) := by
    rw [runText?_eq_some_iff, ne_eq, Text.trim_eq_nil_iff]
    rfl
  constructor
  · intro found
    obtain ⟨before, run, after, maximal, absent, told⟩ := exists_run_of_firstText? [] nofun found
    exact ⟨before, run, after, maximal, firstText?_eq_none_iff.mp absent, (told_iff run).mp told⟩
  · rintro ⟨before, run, after, maximal, blank, told⟩
    rw [maximal.firstText?_eq, firstText?_eq_none_iff.mpr blank, (told_iff run).mpr told]
    rfl

/-- Where text is parted into pieces has no say. -/
theorem firstText?_resplit {c : Tree} {pieces : List Tree} (hc : IsPiece c)
    (hpieces : ∀ t ∈ pieces, IsPiece t) (same : wording pieces = said c) (before after : List Tree) :
    firstText? [] (before ++ (pieces ++ after)) = firstText? [] (before ++ c :: after) := by
  have joined (run : List Char) : firstText? run (pieces ++ after) = firstText? run (c :: after) := by
    rw [firstText?_pieces hpieces, firstText?_piece hc, same]
  -- Up to the text both searches are in the same run.
  suffices h : ∀ run, firstText? run (before ++ (pieces ++ after)) =
      firstText? run (before ++ c :: after) from h []
  induction before with
  | nil => exact joined
  | cons b before ih =>
    intro run
    rw [List.cons_append, List.cons_append]
    by_cases hb : IsPiece b
    · rw [firstText?_piece hb, firstText?_piece hb, ih]
    · rw [firstText?_other hb, firstText?_other hb, ih]

theorem text_of_element? {t : Tree} {e : Element} (recorded : element? t = .ok (some e))
    (kind : t.kind = .jsxElement) : e.text = firstText? [] t.namedChildren := by
  have ⟨_, _, record_eq⟩ := record_of_element? recorded
  have ⟨_, _, fields_eq⟩ := bind_eq_ok_iff.mp record_eq
  cases fields_eq
  exact if_pos kind

/-- The text of an element is what the first run below it says that is not blank, trimmed, and there
is none exactly when all runs are blank. It is that of one side of every node that is no piece; it
stays when text is parted into pieces, and when nodes without a text come before it. -/
theorem text_of_runs (t : Tree) :
    (∀ e, element? t = .ok (some e) → t.kind = .jsxElement →
      e.text = firstText? [] t.namedChildren) ∧
    (∀ text, firstText? [] t.namedChildren = some text ↔
      ∃ before run after, MaximalRun t.namedChildren before run after ∧ AllBlank before ∧
        ¬ Blank run ∧ text.toList = Text.trim (wording run)) ∧
    (firstText? [] t.namedChildren = none ↔ AllBlank t.namedChildren) ∧
    (∀ text, firstText? [] t.namedChildren = some text → Text.Trimmed text.toList) ∧
    (∀ before c after, t.namedChildren = before ++ c :: after → ¬ IsPiece c →
      firstText? [] t.namedChildren = (firstText? [] before).or (firstText? [] after)) ∧
    (∀ before c pieces after, t.namedChildren = before ++ c :: after → c.kind = .jsxText →
      (∀ p ∈ pieces, p.kind = .jsxText) → pieces.flatMap (·.text.toList) = c.text.toList →
      firstText? [] (before ++ (pieces ++ after)) = firstText? [] t.namedChildren) ∧
    (∀ before blanks after, t.namedChildren = before ++ after → AllBlank before →
      AllBlank blanks →
      firstText? [] (before ++ (blanks ++ after)) = firstText? [] t.namedChildren) := by
  refine ⟨fun e => text_of_element?, fun text => firstText?_eq_some_iff, firstText?_eq_none_iff,
    ?trimmed, ?parted, ?resplit, ?padded⟩
  case trimmed =>
    intro text found
    obtain ⟨_, run, _, -, -, blank, text_eq⟩ := firstText?_eq_some_iff.mp found
    rw [text_eq]
    exact Text.trimmed_trim fun empty => blank (Text.trim_eq_nil_iff.mp empty)
  case parted =>
    intro before c after split hc
    rw [split, firstText?_parted hc]
  case resplit =>
    intro before c pieces after split kind kinds same
    have said_eq {p : Tree} (kind : p.kind = .jsxText) : said p = p.text.toList := by
      rw [said, if_neg (by rw [kind]; decide)]
    have wording_eq : wording pieces = said c := by
      rw [said_eq kind, ← same]
      exact List.flatMap_congr fun p mem => said_eq (kinds p mem)
    rw [split]
    exact firstText?_resplit (.inl kind) (fun p mem => .inl (kinds p mem)) wording_eq before after
  case padded =>
    intro before blanks after split before_blank blanks_blank
    rw [split, firstText?_append_of_none (firstText?_eq_none_iff.mpr before_blank),
      firstText?_append_of_none (firstText?_eq_none_iff.mpr blanks_blank),
      firstText?_append_of_none (firstText?_eq_none_iff.mpr before_blank)]

def textNode (text : String) : Tree := .node { kind := .jsxText, text } []

/-- The nodes of `<p> {x} Save &amp; close<b/>now</p>`, but for those that say nothing here. -/
def saveElement : Tree := .node { kind := .jsxElement } [
  .node { kind := .other "jsx_opening_element", field := some .openTag } [
    .node { kind := .identifier, field := some .name, text := "p" } []],
  textNode " ", .node { kind := .jsxExpression } [], textNode " Save ",
  .node { kind := .characterReference, text := "&amp;" } [], textNode " close",
  .node { kind := .jsxSelfClosingElement } [], textNode "now"]

theorem text_of_saveElement :
    (∃ e, element? saveElement = .ok (some e) ∧ e.text = some "Save & close") ∧
    Text.Trimmed "Save & close".toList ∧
    firstText? [] (saveElement.namedChildren.take 3 ++
      ([textNode " Sa", textNode "ve "] ++ saveElement.namedChildren.drop 4)) =
        some "Save & close" := by
  obtain ⟨own, -, -, trimmed, -, resplit, -⟩ := text_of_runs saveElement
  have found : firstText? [] saveElement.namedChildren = some "Save & close" := by decide +kernel
  have recorded : element? saveElement =
      .ok (some { tag := "p", text := some "Save & close" }) := by decide +kernel
  have pieces : ∀ t ∈ [textNode " Sa", textNode "ve "], t.kind = .jsxText :=
    List.forall_mem_cons.mpr ⟨rfl, List.forall_mem_singleton.mpr rfl⟩
  refine ⟨⟨_, recorded, (own _ recorded rfl).trans found⟩, trimmed _ found, ?_⟩
  rw [resplit _ (textNode " Save ") _ _ rfl rfl pieces (by decide +kernel)]
  exact found

end Markup

end SuiteDraft
