import SuiteDraft.Proofs.Suite.Lines

/-!
# The tests of a component

Which tests the file of a component has, and in which order: that it renders; that its elements are
present, for the first six of those that can be found; that an input can be typed into, and a button
adds what was typed; and that it loads its data. No two of them have one title.
-/

namespace SuiteDraft

/-! ## Titles -/

namespace TestCase

/-- The place of a test among all tests that a file may have. -/
def place : TestCase → Nat
  | smoke => 0
  | element number _ _ => number
  | typing _ => 7
  | adding _ _ => 8
  | fetching _ => 9
  | requesting _ _ => 9

/-- The tenth letter of a test's title. -/
def letter : TestCase → Char
  | smoke => 'i'
  | element _ _ _ => 'x'
  | typing _ => 'n'
  | adding _ _ => 'w'
  | fetching _ => 'a'
  | requesting _ _ => 'a'

theorem title_tenth (test : TestCase) : test.title.toList[9]? = some test.letter := by
  cases test with
  | smoke => decide
  | element number query text? =>
    show ("renders expected element #" ++ toString number).toList[9]? = some 'x'
    rw [String.toList_append, List.getElem?_append_left (by decide)]
    decide
  | typing input => exact (by decide : "updates input value on typing".toList[9]? = some 'n')
  | adding input button => exact (by decide : "adds a new item on button click".toList[9]? = some 'w')
  | fetching row => exact (by decide : "loads data from fetch on mount".toList[9]? = some 'a')
  | requesting method row => exact (by decide : "loads data from axios on mount".toList[9]? = some 'a')

/-- A title tells the place of its test. -/
theorem place_eq_of_title_eq {test test' : TestCase} (h : test.title = test'.title) :
    test.place = test'.place := by
  have letters : test.letter = test'.letter := by
    rw [← Option.some_inj, ← title_tenth, h, title_tenth]
  have value (n : Nat) : Nat.ofDigitChars 10 (toString n).toList 0 = n := by
    rw [Nat.toString_eq_repr, Nat.toList_repr, Nat.ofDigitChars_ten_toDigits]
  cases test <;> cases test' <;> try simp [letter] at letters
  case element.element number _ _ number' _ _ =>
    have digits : toString number = toString number' := (String.append_right_inj _).mp h
    show number = number'
    rw [← value number, digits, value]
  all_goals rfl

/-- The tests stand in the order of their places, which lie between two bounds. -/
structure Ranked (low high : Nat) (tests : List TestCase) : Prop where
  inOrder : tests.Pairwise fun test test' => test.place < test'.place
  within : ∀ test ∈ tests, low ≤ test.place ∧ test.place < high

theorem Ranked.append {low middle high : Nat} {tests tests' : List TestCase}
    (h : Ranked low middle tests) (h' : Ranked middle high tests') (lower : low ≤ middle)
    (upper : middle ≤ high) : Ranked low high (tests ++ tests') := by
  refine ⟨List.pairwise_append.mpr ⟨h.inOrder, h'.inOrder, fun test mem test' mem' => ?_⟩, ?_⟩
  · exact Nat.lt_of_lt_of_le (h.within test mem).2 (h'.within test' mem').1
  · rw [List.forall_mem_append]
    exact ⟨fun test mem => ⟨(h.within test mem).1, Nat.lt_of_lt_of_le (h.within test mem).2 upper⟩,
      fun test mem => ⟨Nat.le_trans lower (h'.within test mem).1, (h'.within test mem).2⟩⟩

/-- Tests that stand in the order of their places have titles of their own. -/
theorem Ranked.nodup_titles {low high : Nat} {tests : List TestCase} (h : Ranked low high tests) :
    (tests.map title).Nodup := by
  rw [List.Nodup, List.pairwise_map]
  exact h.inOrder.imp fun before same => Nat.ne_of_lt before (place_eq_of_title_eq same)

end TestCase

namespace Suite

open TestCase (Ranked)

variable {elements : List Element}

/-! ## Elements that are present -/

/-- The elements that are tested for their presence, if they are not too many: they have a query,
and are no item of many. -/
def tested (elements : List Element) : List Element :=
  elements.filter fun e => !isRepeatedId e.stableId && (Query.ofElement? e).isSome

/-- The tests for elements: one for each element that is tested, but six at most, numbered in the
order of the elements, with the query of its element and with its text. -/
structure Presence (elements : List Element) (tests : List TestCase) : Prop where
  length : tests.length = min 6 (tested elements).length
  numbered : ∀ i (h : i < tests.length), ∃ e query, (tested elements)[i]? = some e ∧
    Query.ofElement? e = some query ∧
    tests[i] = .element (i + 1) query (Query.present e.text)

theorem findable_eq (elements : List Element) :
    (findable elements).map (fun found => (found.1, some found.2)) =
      (tested elements).map fun e => (e, Query.ofElement? e) := by
  induction elements with
  | nil => rfl
  | cons e elements ih =>
    unfold findable tested at ih ⊢
    cases repeated : isRepeatedId e.stableId <;> cases query : Query.ofElement? e <;>
      simp [repeated, query, ih]

theorem presence_elementCases (elements : List Element) :
    Presence elements (elementCases elements) := by
  have length : (findable elements).length = (tested elements).length := by
    simpa using congrArg List.length (findable_eq elements)
  refine ⟨?_, fun i h => ?_⟩
  · rw [elementCases, List.length_mapIdx, List.length_take, length]
    rfl
  · have bound : i < (findable elements).length := by
      rw [elementCases, List.length_mapIdx, List.length_take] at h
      exact (Nat.lt_min.mp h).2
    have same := congrArg (·[i]?) (findable_eq elements)
    simp only [List.getElem?_map, List.getElem?_eq_getElem bound, Option.map_some] at same
    obtain ⟨e, element_eq, pair_eq⟩ := Option.map_eq_some_iff.mp same.symm
    refine ⟨e, (findable elements)[i].2, element_eq, (Prod.mk.inj pair_eq).2, ?_⟩
    simp only [elementCases, List.getElem_mapIdx, List.getElem_take, (Prod.mk.inj pair_eq).1]

theorem Presence.place_eq {tests : List TestCase} (h : Presence elements tests) {i : Nat}
    (hi : i < tests.length) : tests[i].place = i + 1 := by
  have ⟨_, _, _, _, test_eq⟩ := h.numbered i hi
  rw [test_eq]
  rfl

theorem Presence.ranked {tests : List TestCase} (h : Presence elements tests) : Ranked 1 7 tests where
  inOrder := by
    rw [List.pairwise_iff_getElem]
    intro i j hi hj before
    rw [h.place_eq hi, h.place_eq hj]
    exact Nat.succ_lt_succ before
  within := by
    intro test mem
    have ⟨i, hi, test_eq⟩ := List.mem_iff_getElem.mp mem
    have few : i < 6 := Nat.lt_of_lt_of_le hi (h.length ▸ Nat.min_le_left _ _)
    rw [← test_eq, h.place_eq hi]
    omega

/-! ## Tests that may be missing -/

/-- There is one such test if the condition holds, and no test if it does not. -/
def OneIf {α : Type} (condition : Prop) (such : α → Prop) (tests : List α) : Prop :=
  (condition ∧ ∃ test, such test ∧ tests = [test]) ∨ (¬ condition ∧ tests = [])

theorem OneIf.such {α : Type} {condition : Prop} {such : α → Prop} {tests : List α}
    (h : OneIf condition such tests) {test : α} (mem : test ∈ tests) : such test := by
  rcases h with ⟨_, only, isSuch, rfl⟩ | ⟨_, rfl⟩
  · exact List.mem_singleton.mp mem ▸ isSuch
  · cases mem

theorem OneIf.map {α β : Type} {condition : Prop} {such : α → Prop} {such' : β → Prop} {tests : List α}
    {f : α → β} (h : OneIf condition such tests) (imp : ∀ test, such test → such' (f test)) :
    OneIf condition such' (tests.map f) := by
  rcases h with ⟨holds, test, isSuch, rfl⟩ | ⟨fails, rfl⟩
  · exact .inl ⟨holds, f test, imp test isSuch, rfl⟩
  · exact .inr ⟨fails, rfl⟩

theorem OneIf.ranked {condition : Prop} {such : TestCase → Prop} {tests : List TestCase} {place : Nat}
    (h : OneIf condition such tests) (hplace : ∀ test, such test → test.place = place) :
    Ranked place (place + 1) tests := by
  rcases h with ⟨_, test, isSuch, rfl⟩ | ⟨_, rfl⟩
  · refine ⟨List.pairwise_singleton _ test, fun test' mem => ?_⟩
    rw [List.mem_singleton.mp mem, hplace test isSuch]
    exact ⟨Nat.le_refl _, Nat.lt_succ_self _⟩
  · exact ⟨.nil, fun _ mem => absurd mem List.not_mem_nil⟩

/-! ### Inputs and buttons -/

def Plays (role id : String) (e : Element) : Prop := e.roleHint = some role ∨ e.stableId = some id

/-- The element plays the role, has the test id, or has the tag in any case. -/
def Suits (role id tag : String) (e : Element) : Prop :=
  Plays role id e ∨ Text.lowerLatin e.tag = tag

def IsFirst (P : Element → Prop) (elements : List Element) (e : Element) : Prop :=
  ∃ before after, elements = before ++ e :: after ∧ P e ∧ ∀ other ∈ before, ¬ P other

/-- The element that is taken: the first that plays the role or has the test id; only if there is
none, the first with the tag. -/
inductive Taken (role id tag : String) (elements : List Element) (e : Element) : Prop
  | plays (first : IsFirst (Plays role id) elements e)
  | tagged (none : ∀ other ∈ elements, ¬ Plays role id other)
      (first : IsFirst (fun other => Text.lowerLatin other.tag = tag) elements e)

def IsInput : Element → Prop := Suits "textbox" "user-input" "input"

def IsButton : Element → Prop := Suits "button" "add-button" "button"

def TakenInput : List Element → Element → Prop := Taken "textbox" "user-input" "input"

def TakenButton : List Element → Element → Prop := Taken "button" "add-button" "button"

theorem IsFirst.mem {P : Element → Prop} {e : Element} (h : IsFirst P elements e) : e ∈ elements := by
  have ⟨before, after, split, _⟩ := h
  rw [split]
  exact List.mem_append_right before List.mem_cons_self

section Search

variable {role id tag : String} {e : Element}

theorem Taken.mem (h : Taken role id tag elements e) : e ∈ elements := by
  cases h with
  | plays first => exact first.mem
  | tagged none first => exact first.mem

theorem Taken.suits (h : Taken role id tag elements e) : Suits role id tag e := by
  cases h with
  | plays first =>
    have ⟨_, _, _, here, _⟩ := first
    exact .inl here
  | tagged none first =>
    have ⟨_, _, _, here, _⟩ := first
    exact .inr here

theorem elementFor?_eq_or : elementFor? role id tag elements =
    (elements.find? fun e => e.roleHint = some role || e.stableId = some id).or
      (elements.find? fun e => Text.lowerLatin e.tag = tag) := by
  unfold elementFor?
  cases elements.find? fun e => e.roleHint = some role || e.stableId = some id <;> rfl

theorem isFirst_of_find? {P : Element → Prop} {p : Element → Bool} (test : ∀ e, p e = true ↔ P e)
    (h : elements.find? p = some e) : IsFirst P elements e := by
  have ⟨here, before, after, split, others⟩ := List.find?_eq_some_iff_append.mp h
  refine ⟨before, after, split, (test e).mp here, fun other mem holds => ?_⟩
  have fails := others other mem
  rw [(test other).mpr holds] at fails
  cases fails

theorem plays_iff (role id : String) (e : Element) :
    (decide (e.roleHint = some role) || decide (e.stableId = some id)) = true ↔ Plays role id e := by
  rw [Bool.or_eq_true, decide_eq_true_iff, decide_eq_true_iff, Plays]

theorem elementFor?_eq_some (h : elementFor? role id tag elements = some e) :
    Taken role id tag elements e := by
  rw [elementFor?_eq_or, Option.or_eq_some_iff] at h
  rcases h with found | ⟨missing, found⟩
  · exact .plays (isFirst_of_find? (plays_iff role id) found)
  · refine .tagged (fun other mem holds => ?_) (isFirst_of_find? (fun _ => decide_eq_true_iff) found)
    exact List.find?_eq_none.mp missing other mem ((plays_iff role id other).mpr holds)

theorem elementFor?_eq_none (h : elementFor? role id tag elements = none) :
    ¬ ∃ e ∈ elements, Suits role id tag e := by
  rw [elementFor?_eq_or, Option.or_eq_none_iff, List.find?_eq_none, List.find?_eq_none] at h
  rintro ⟨e, mem, plays | tagged⟩
  · exact h.1 e mem ((plays_iff role id e).mpr plays)
  · exact h.2 e mem (decide_eq_true tagged)

end Search

def IsTyping (elements : List Element) (test : TestCase) : Prop :=
  ∃ input, TakenInput elements input ∧ test = .typing (Query.ofIdUnless "textbox" input)

/-- The test of a click is one of an input and of a button that adds what was typed there. -/
def IsAdding (elements : List Element) (test : TestCase) : Prop :=
  ∃ input button, TakenInput elements input ∧ TakenButton elements button ∧
    test = .adding (Query.ofIdUnless "textbox" input) (Query.ofIdUnless "button" button)

theorem exists_inputCases (elements : List Element) : ∃ typing adding,
    inputCases elements = typing ++ adding ∧
      OneIf (∃ e ∈ elements, IsInput e) (IsTyping elements) typing ∧
      OneIf ((∃ e ∈ elements, IsInput e) ∧ ∃ e ∈ elements, IsButton e) (IsAdding elements)
        adding := by
  unfold inputCases
  cases hinput : input? elements with
  | none =>
    have noInput : ¬ ∃ e ∈ elements, IsInput e := elementFor?_eq_none hinput
    exact ⟨[], [], rfl, .inr ⟨noInput, rfl⟩, .inr ⟨fun both => noInput both.1, rfl⟩⟩
  | some input =>
    have takenInput : TakenInput elements input := elementFor?_eq_some hinput
    have anInput : ∃ e ∈ elements, IsInput e := ⟨input, takenInput.mem, takenInput.suits⟩
    refine ⟨[_], _, rfl, .inl ⟨anInput, _, ⟨input, takenInput, rfl⟩, rfl⟩, ?_⟩
    cases hbutton : button? elements with
    | none => exact .inr ⟨fun both => elementFor?_eq_none hbutton both.2, rfl⟩
    | some button =>
      have takenButton : TakenButton elements button := elementFor?_eq_some hbutton
      have aButton : ∃ e ∈ elements, IsButton e := ⟨button, takenButton.mem, takenButton.suits⟩
      exact .inl ⟨⟨anInput, aButton⟩, _, ⟨input, button, takenInput, takenButton, rfl⟩, rfl⟩

/-! ### Loading -/

/-- The test that a network call is made and answered with this row. -/
def loadTest (row : Keyed Json) (api : NetworkCall) : TestCase :=
  match api.kind with
  | .fetch => .fetching row
  | .axios => .requesting ((Query.present api.method).getD "get") row

def IsLoading (c : Component) (test : TestCase) : Prop :=
  ∃ api, c.apis.head? = some api ∧ test = loadTest (Row.ofElements c.elements) api

theorem oneIf_loadCases (c : Component) :
    OneIf (c.hasEffects = true ∧ c.apis ≠ []) (IsLoading c) (loadCases c) := by
  unfold loadCases
  cases effects : c.hasEffects with
  | false => exact .inr ⟨fun both => Bool.false_ne_true both.1, rfl⟩
  | true =>
    cases apis : c.apis with
    | nil => exact .inr ⟨fun both => both.2 rfl, rfl⟩
    | cons api others =>
      refine .inl ⟨⟨rfl, List.cons_ne_nil _ _⟩, loadTest (Row.ofElements c.elements) api,
        ⟨api, by rw [apis]; rfl, rfl⟩, ?_⟩
      cases kind : api.kind <;> simp [loadTest, kind]

/-! ## All tests -/

/-- The tests of a component's file, kind by kind: the first one, which renders it; then those for
its elements; and at most one for an input, one for an input and a button, and one for its data. -/
structure Arranged (c : Component) (tests presence typing adding loading : List TestCase) : Prop where
  order : tests = .smoke :: (presence ++ typing ++ adding ++ loading)
  presence : Presence c.elements presence
  typing : OneIf (∃ e ∈ c.elements, IsInput e) (IsTyping c.elements) typing
  adding : OneIf ((∃ e ∈ c.elements, IsInput e) ∧ ∃ e ∈ c.elements, IsButton e)
    (IsAdding c.elements) adding
  loading : OneIf (c.hasEffects = true ∧ c.apis ≠ []) (IsLoading c) loading

theorem exists_arranged (subject : String) (c : Component) : ∃ presence typing adding loading,
    Arranged c (ofComponent subject c).cases presence typing adding loading := by
  have ⟨typing, adding, cases_eq, isTyping, isAdding⟩ := exists_inputCases c.elements
  refine ⟨elementCases c.elements, typing, adding, loadCases c, ?_, presence_elementCases _,
    isTyping, isAdding, oneIf_loadCases c⟩
  show .smoke :: elementCases c.elements ++ inputCases c.elements ++ loadCases c = _
  rw [cases_eq, List.cons_append, List.cons_append, ← List.append_assoc (elementCases _)]

namespace Arranged

variable {c : Component} {tests presence typing adding loading : List TestCase}

theorem ranked (h : Arranged c tests presence typing adding loading) : Ranked 0 10 tests := by
  have smoke : Ranked 0 1 [.smoke] := ⟨List.pairwise_singleton _ _, by decide⟩
  have typingRanked : Ranked 7 8 typing := by
    refine h.typing.ranked ?_
    rintro _ ⟨_, _, rfl⟩
    rfl
  have addingRanked : Ranked 8 9 adding := by
    refine h.adding.ranked ?_
    rintro _ ⟨_, _, _, _, rfl⟩
    rfl
  have loadingRanked : Ranked 9 10 loading := by
    refine h.loading.ranked ?_
    rintro _ ⟨api, _, rfl⟩
    unfold loadTest
    cases api.kind <;> rfl
  have clicks := h.presence.ranked.append typingRanked (by decide) (by decide)
  have loads := (clicks.append addingRanked (by decide) (by decide)).append loadingRanked
    (by decide) (by decide)
  rw [h.order]
  exact smoke.append loads (by decide) (by decide)

end Arranged

end Suite

end SuiteDraft
