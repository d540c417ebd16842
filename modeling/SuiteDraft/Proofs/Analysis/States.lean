import SuiteDraft.Grammar.Program
import SuiteDraft.Proofs.Analysis.Calls
import SuiteDraft.Proofs.Analysis.Facts
import SuiteDraft.Proofs.Lockstep

/-!
# The states of a component

What `useState` gives is taken apart by position: its value stands at the first place of an array
pattern and its setter at the second. A declarator is taken for the declaration of a state by the
elements of its pattern alone, so that a hole between them goes unseen; where no pattern has a hole,
elements and positions come to the same.
-/

namespace SuiteDraft

namespace Tree

/-- A comma between two places of a pattern. -/
def isComma (t : Tree) : Bool := !t.named && t.kind == .other ","

/-- The positions of an array pattern, each with what stands there: nothing, where there is a hole.
A comma after the last element opens no position. -/
def positions (pattern : Tree) : List (List Tree) :=
  let parts := (pattern.children.splitOnP isComma).map fun part => part.filter (·.isMeaningful)
  match parts.getLast? with
  | some [] => parts.dropLast
  | _ => parts

theorem isMeaningful_of_isComma {t : Tree} (h : t.isComma = true) : t.isMeaningful = false := by
  rw [isComma, Bool.and_eq_true, Bool.not_eq_true'] at h
  rw [isMeaningful, h.1, Bool.false_and]

/-- What is kept of the parts of a list is what is kept of the list. -/
theorem flatten_filter_splitOnP {α : Type} {cut keep : α → Bool} (l : List α)
    (h : ∀ a, cut a = true → keep a = false) :
    ((l.splitOnP cut).map fun part => part.filter keep).flatten = l.filter keep := by
  induction l with
  | nil => rfl
  | cons a l ih =>
    rw [List.splitOnP_cons_eq_if_modifyHead]
    cases hcut : cut a with
    | true =>
      have hkeep : keep a = false := h a hcut
      rw [if_pos rfl, List.filter_cons_of_neg (by simp [hkeep]), ← ih]
      rfl
    | false =>
      rw [if_neg Bool.false_ne_true]
      -- the part that begins with `a` is the first one, and there always is one
      cases hparts : l.splitOnP cut with
      | nil => exact absurd hparts (List.splitOnP_ne_nil cut l)
      | cons part parts =>
        rw [hparts, List.map_cons, List.flatten_cons] at ih
        rw [List.modifyHead_cons, List.map_cons, List.flatten_cons, List.filter_cons, List.filter_cons,
          ← ih]
        split
        · rw [List.cons_append]
        · rfl

/-- The positions of a pattern hold its elements, in their order. -/
theorem flatten_positions (pattern : Tree) : pattern.positions.flatten = pattern.meaningful := by
  have hparts : ((pattern.children.splitOnP isComma).map fun part =>
      part.filter (·.isMeaningful)).flatten = pattern.meaningful :=
    flatten_filter_splitOnP pattern.children fun _ => isMeaningful_of_isComma
  unfold positions
  dsimp only
  split
  · rename_i hlast
    -- the part after the last comma is empty, so that nothing is lost with it
    obtain ⟨parts, hparts'⟩ := List.getLast?_eq_some_iff.mp hlast
    rw [hparts', List.flatten_append, List.flatten_singleton, List.append_nil] at hparts
    rw [hparts', List.dropLast_concat, hparts]
  · exact hparts

end Tree

namespace Effect

/-- A declarator takes apart, by the array pattern `pattern`, what a call of `useState` gives. -/
def TakesState (t pattern : Tree) : Prop :=
  t.kind = .variableDeclarator ∧ t.child? .name = some pattern ∧ pattern.kind = .arrayPattern ∧
    ∃ value, t.child? .value = some value ∧ value.Calls "useState"

/-- Two plain names, those of a state's value and of its setter. -/
inductive Names : Tree → Tree → StatePair → Prop
  | intro {value setter : Tree} (ofValue : value.kind = .identifier)
      (ofSetter : setter.kind = .identifier) : Names value setter ⟨value.text, setter.text⟩

/-- A declarator with two positions in its pattern, at which the names of a state stand. -/
def DeclaresByPosition (t : Tree) (pair : StatePair) : Prop :=
  ∃ pattern, TakesState t pattern ∧
    ∃ value setter, pattern.positions = [[value], [setter]] ∧ Names value setter pair

/-- A declarator with two elements in its pattern, wherever they stand, which are the names of a
state. -/
def DeclaresByElement (t : Tree) (pair : StatePair) : Prop :=
  ∃ pattern, TakesState t pattern ∧
    ∃ value setter, pattern.positions.flatten = [value, setter] ∧ Names value setter pair

theorem TakesState.unique {t pattern pattern' : Tree} (h : TakesState t pattern)
    (h' : TakesState t pattern') : pattern = pattern' :=
  Option.some.inj (h.2.1.symm.trans h'.2.1)

/-- The names in the list of a pattern's elements. -/
def pairOf? : List Tree → Option StatePair
  | [v, s] => if v.kind = .identifier && s.kind = .identifier then some ⟨v.text, s.text⟩ else none
  | _ => none

theorem pairOf?_eq_some_iff {elements : List Tree} {pair : StatePair} :
    pairOf? elements = some pair ↔ ∃ value setter, elements = [value, setter] ∧
      Names value setter pair := by
  constructor
  · intro h
    unfold pairOf? at h
    split at h
    · rename_i v s
      split at h
      · rename_i hkinds
        rw [Bool.and_eq_true, decide_eq_true_iff, decide_eq_true_iff] at hkinds
        cases h
        exact ⟨v, s, rfl, .intro hkinds.1 hkinds.2⟩
      · cases h
    · cases h
  · rintro ⟨value, setter, rfl, ⟨hvalue, hsetter⟩⟩
    simp [pairOf?, hvalue, hsetter]

theorem state?_of_takesState {t pattern : Tree} (h : TakesState t pattern) :
    state? t = pairOf? pattern.meaningful := by
  obtain ⟨hkind, hname, hpattern, value, hvalue, hcalls⟩ := h
  have hcall : value.isCallOf "useState" = true := Tree.isCallOf_iff.mpr hcalls
  simp only [state?, hkind, hname, hvalue, hpattern, hcall, decide_true, Bool.and_self, if_true]
  rfl

theorem takesState_of_state? {t : Tree} {pair : StatePair} (h : state? t = some pair) :
    ∃ pattern, TakesState t pattern := by
  unfold state? at h
  split at h
  · rename_i hkind
    split at h
    · rename_i pattern value hname hvalue
      split at h
      · rename_i hcond
        rw [Bool.and_eq_true, decide_eq_true_iff] at hcond
        exact ⟨pattern, hkind, hname, hcond.1, value, hvalue, Tree.isCallOf_iff.mp hcond.2⟩
      · cases h
    · cases h
  · cases h

/-- A declarator declares a state to the analysis when its pattern has two elements that are names. -/
theorem state?_eq_some_iff {t : Tree} {pair : StatePair} :
    state? t = some pair ↔ DeclaresByElement t pair := by
  constructor
  · intro h
    obtain ⟨pattern, htakes⟩ := takesState_of_state? h
    rw [state?_of_takesState htakes, pairOf?_eq_some_iff] at h
    refine ⟨pattern, htakes, ?_⟩
    rw [Tree.flatten_positions]
    exact h
  · rintro ⟨pattern, htakes, h⟩
    rw [Tree.flatten_positions] at h
    rw [state?_of_takesState htakes, pairOf?_eq_some_iff]
    exact h

/-- Every position of a pattern holds one element. -/
def Full (pattern : Tree) : Prop := ∀ place ∈ pattern.positions, ∃ element, place = [element]

/-- A list of lists with one member each is known by its members. -/
theorem eq_map_singleton {α : Type} {parts : List (List α)} (h : ∀ part ∈ parts, ∃ a, part = [a]) :
    parts = parts.flatten.map fun a => [a] := by
  induction parts with
  | nil => rfl
  | cons part parts ih =>
    obtain ⟨⟨a, rfl⟩, hparts⟩ := List.forall_mem_cons.mp h
    rw [List.flatten_cons, List.singleton_append, List.map_cons, ← ih hparts]

/-- A declarator declares by position what it declares by its elements, unless there is a hole. -/
theorem declaresByPosition_iff {t : Tree} {pair : StatePair} :
    DeclaresByPosition t pair ↔
      DeclaresByElement t pair ∧ ∀ pattern, TakesState t pattern → Full pattern := by
  constructor
  · rintro ⟨pattern, htakes, value, setter, hpositions, hnames⟩
    refine ⟨⟨pattern, htakes, value, setter, by rw [hpositions]; rfl, hnames⟩, ?_⟩
    intro pattern' htakes' place hplace
    rw [← htakes.unique htakes', hpositions] at hplace
    simp only [List.mem_cons, List.not_mem_nil, or_false] at hplace
    cases hplace with
    | inl h => exact ⟨value, h⟩
    | inr h => exact ⟨setter, h⟩
  · rintro ⟨⟨pattern, htakes, value, setter, helements, hnames⟩, hfull⟩
    refine ⟨pattern, htakes, value, setter, ?_, hnames⟩
    rw [eq_map_singleton (hfull pattern htakes), helements]
    rfl

end Effect

namespace Analysis

/-- No pattern in the scope of a file's component that takes a state apart has a hole. -/
def WithoutHoles (tree : Tree) : Prop :=
  ∀ p pattern, InScope tree p → Effect.TakesState p.node pattern → Effect.Full pattern

/-- The places `declarators`, in the order of the document, are those in the scope of a file's
component that `declares` says to declare a state, and they declare `states`. -/
structure Declared (tree : Tree) (declares : Tree → StatePair → Prop) (states : List StatePair)
    (declarators : List Place) : Prop where
  ordered : declarators.Pairwise Place.Precedes
  mem_iff : ∀ p, p ∈ declarators ↔ InScope tree p ∧ ∃ pair, declares p.node pair
  pairs : List.Forall₂ (fun p pair => declares p.node pair) declarators states

theorem Declared.congr {tree : Tree} {declares declares' : Tree → StatePair → Prop}
    {states : List StatePair} {declarators : List Place}
    (h : Declared tree declares states declarators)
    (same : ∀ p, InScope tree p → ∀ pair, declares p.node pair ↔ declares' p.node pair) :
    Declared tree declares' states declarators where
  ordered := h.ordered
  mem_iff p := by
    rw [h.mem_iff]
    exact and_congr_right fun hp => exists_congr (same p hp)
  pairs := by
    have hscope : ∀ p ∈ declarators, InScope tree p := fun p hp => ((h.mem_iff p).mp hp).1
    refine ((List.forall₂_and_left _ _).mpr ⟨hscope, h.pairs⟩).imp ?_
    intro p pair hpair
    exact (same p hpair.1 pair).mp hpair.2

/-- The states of a component are those that the declarators in its scope declare by their elements,
in the order of the document; where no pattern has a hole, they are declared by position. -/
theorem states_of_declarators {path : String} {tree : Tree} {c : Component}
    (analysed : (Report.ofTree path tree).outcome = .ok c) :
    (∃ declarators, Declared tree Effect.DeclaresByElement c.states declarators) ∧
    (WithoutHoles tree →
      ∃ declarators, Declared tree Effect.DeclaresByPosition c.states declarators) := by
  obtain ⟨facts, props, collected, rfl⟩ := report_collected analysed
  let found := (scopeNodes tree).filter fun p => (Effect.state? p.node).isSome
  have hstates : facts.states = (scopeNodes tree).filterMap fun p => Effect.state? p.node := by
    rw [collected.states, List.nil_append]
  have hfound : Declared tree Effect.DeclaresByElement facts.states found := by
    refine ⟨(scopeNodes_pairwise tree).filter _, fun p => ?_, ?_⟩
    · rw [List.mem_filter, mem_scopeNodes_iff, Option.isSome_iff_exists]
      simp only [Effect.state?_eq_some_iff]
    · rw [hstates]
      exact forall₂_filterMap fun p _ pair hpair => Effect.state?_eq_some_iff.mp hpair
  refine ⟨⟨found, hfound⟩, fun full => ⟨found, hfound.congr ?_⟩⟩
  intro p hp pair
  rw [Effect.declaresByPosition_iff]
  exact (and_iff_left fun pattern htakes => full p pattern hp htakes).symm

/-- Whether a pattern has a hole is seen by the lengths of its positions. -/
theorem withoutHoles_of_lengths {tree : Tree} (h : ∀ p ∈ scopeNodes tree,
    ∀ pattern ∈ p.node.child? .name, ∀ place ∈ pattern.positions, place.length = 1) :
    WithoutHoles tree := by
  intro p pattern hp htakes place hplace
  exact List.length_eq_one_iff.mp
    (h p (mem_scopeNodes_iff.mpr hp) pattern (Option.mem_def.mpr htakes.2.1) place hplace)

/-- A file with three declarators, of which the second has a comma too many and the third one element
only. -/
def statesSource : Tree := Grammar.treeOf .markup <| .ofGlyphs <| Glyph.ofText
  "var [a,b]=useState(),[c,d,]=R.useState(),[e]=useState()"

theorem states_of_statesSource : WithoutHoles statesSource ∧
    ∃ c, (Report.ofTree "A.tsx" statesSource).outcome = .ok c ∧
      c.states = [⟨"a", "b"⟩, ⟨"c", "d"⟩] ∧
      ∃ declarators, Declared statesSource Effect.DeclaresByPosition c.states declarators := by
  have hstates : (Report.ofTree "A.tsx" statesSource).outcome.toOption.map (·.states) =
      some [⟨"a", "b"⟩, ⟨"c", "d"⟩] := by decide +kernel
  have hfull : WithoutHoles statesSource := withoutHoles_of_lengths (by decide +kernel)
  obtain ⟨c, hc, hpairs⟩ := exists_of_toOption_map hstates
  exact ⟨hfull, c, hc, hpairs, (states_of_declarators hc).2 hfull⟩

/-- A file in which the names of a state stand at the first position and at the third. -/
def holeSource : Tree := Grammar.treeOf .markup <| .ofGlyphs <| Glyph.ofText "var [v,,s]=useState()"

/-- A pattern with three positions, of which one is a hole, is taken for the declaration of a state. -/
theorem states_of_holeSource : ∃ c, (Report.ofTree "A.tsx" holeSource).outcome = .ok c ∧
    c.states = [⟨"v", "s"⟩] ∧
    ¬ ∃ declarators, Declared holeSource Effect.DeclaresByPosition c.states declarators := by
  have hstates : (Report.ofTree "A.tsx" holeSource).outcome.toOption.map (·.states) =
      some [⟨"v", "s"⟩] := by decide +kernel
  have hpositions : ∀ p ∈ scopeNodes holeSource, ∀ pattern ∈ p.node.child? .name,
      pattern.positions.length ≠ 2 := by decide +kernel
  obtain ⟨c, hc, hpair⟩ := exists_of_toOption_map hstates
  refine ⟨c, hc, hpair, ?_⟩
  rintro ⟨declarators, declared⟩
  have hdeclares := declared.pairs
  rw [hpair] at hdeclares
  cases hdeclares with
  | @cons p _ _ _ hp _ =>
    have hscope : InScope holeSource p := ((declared.mem_iff p).mp List.mem_cons_self).1
    obtain ⟨pattern, htakes, value, setter, htwo, -⟩ := hp
    have hname : pattern ∈ p.node.child? .name := Option.mem_def.mpr htakes.2.1
    exact hpositions p (mem_scopeNodes_iff.mpr hscope) pattern hname (by rw [htwo]; rfl)

end Analysis

end SuiteDraft
