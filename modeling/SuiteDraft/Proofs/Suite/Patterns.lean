import SuiteDraft.Analysis.Source
import SuiteDraft.Proofs.Source.Spells
import SuiteDraft.Suite.Basic

/-!
# The patterns of a test file

The texts by which a test finds or checks an element are written as patterns. The grammar reads such
a pattern to its end, whatever stands in the text, as long as the text is on one line: a line feed is
written as it is, and breaks the literal off.
-/

namespace SuiteDraft

/-! ## Reading a pattern -/

namespace Pattern

open Input (Spells)
open Grammar (patternRest)

variable {s : Input} {cs : List Char} {c : Char}

theorem lineFeed_not_special : '\n' ∉ specials := by decide

theorem plain_of_not_special (h : c ∉ specials) : c ≠ '\\' ∧ c ≠ '/' ∧ (c == '[') = false := by
  refine ⟨?_, ?_, beq_false_of_ne ?_⟩ <;> rintro rfl <;> exact h (by decide)

theorem escape_cons (c : Char) (text : List Char) : escape (c :: text) = escapeChar c ++ escape text :=
  List.flatMap_cons

/-- One character of the text, however it is escaped, is read alone, unless it is a line feed. -/
theorem patternRest_escapeChar (h : Spells s (escapeChar c ++ cs)) : patternRest false false s =
    if c = '\n' then none else patternRest false false (s.drop (escapeChar c).length) := by
  unfold escapeChar at h ⊢
  by_cases special : c ∈ specials
  · have hbreak : c ≠ '\n' := fun h => lineFeed_not_special (h ▸ special)
    rw [if_pos special] at h ⊢
    rw [if_neg hbreak]
    -- the backslash, and behind it the character itself
    rcases h with _ | ⟨char, sound, left, _ | ⟨char', sound', left', rest⟩⟩
    simp [patternRest, char, sound, char', sound', hbreak]
  · rw [if_neg special] at h ⊢
    rcases plain_of_not_special special with ⟨hbackslash, hslash, hbracket⟩
    rcases h with _ | ⟨char, sound, left, rest⟩
    simp [patternRest, char, sound, hbackslash, hslash, hbracket]

theorem patternRest_escape (text : List Char) (h : Spells s (escape text ++ cs)) :
    patternRest false false s =
      if '\n' ∈ text then none else patternRest false false (s.drop (escape text).length) := by
  induction text generalizing s with
  | nil => rfl
  | cons c text ih =>
    rw [escape_cons, List.append_assoc] at h
    have hrest : Spells (s.drop (escapeChar c).length) (escape text ++ cs) := by
      simpa using h.drop (escapeChar c).length
    rw [patternRest_escapeChar h, ih hrest, escape_cons, List.length_append, List.drop_drop]
    by_cases hbreak : c = '\n'
    · simp [hbreak]
    · simp [hbreak, Ne.symm hbreak]

theorem patternRest_slash (h : Spells s ('/' :: cs)) : patternRest false false s = some s := by
  rcases h with _ | ⟨char, sound, left, rest⟩
  simp [patternRest, char, sound]

theorem escape_eq_nil_iff {text : List Char} : escape text = [] ↔ text = [] := by
  cases text with
  | nil => simp [escape]
  | cons c text =>
    rw [escape_cons, escapeChar]
    split <;> simp

theorem toList_literal (text : String) :
    (literal text).toList = '/' :: (escape text.toList ++ ['/', 'i']) := by
  simp [literal, source]

/-- A letter that would count among the flags of a pattern that it follows. -/
def isFlag (c : Char) : Bool := 'a' ≤ c && c ≤ 'z'

/-- The grammar reads the pattern of a text to its end, if the text is not empty and on one line;
else it reads no pattern at all. -/
theorem pattern_literal {text : String} {after : List Char}
    (h : Spells s ((literal text).toList ++ after)) (stop : ∀ c ∈ after.head?, isFlag c = false) :
    Grammar.pattern s = if text.toList = [] ∨ '\n' ∈ text.toList then none
      else some (s.drop (literal text).toList.length) := by
  rw [toList_literal] at h ⊢
  have hslash := h.exactly_eq "/" ⟨_, rfl⟩
  rcases h with _ | @⟨m, body, -, -, -, -, -, hbody⟩
  replace hslash : Grammar.exactly "/" (m :: body) = some body := hslash
  replace hbody : Spells body (escape text.toList ++ '/' :: 'i' :: after) := by simpa using hbody
  let rest : Input := body.drop (escape text.toList).length
  have hrest : Spells rest ('/' :: 'i' :: after) := by
    simpa using hbody.drop (escape text.toList).length
  have hread : rest.left < body.left ↔ text.toList ≠ [] := by
    rw [hrest.left_eq, hbody.left_eq, List.length_append, Nat.lt_add_left_iff_pos,
      List.length_pos_iff, ne_eq, escape_eq_nil_iff]
  have hflags : Input.skipWhile isFlag (rest.drop 1) = body.drop ((escape text.toList).length + 2) := by
    rw [(hrest.drop 1).skipWhile_cons_eq rfl stop, List.drop_drop, List.drop_drop]
  rw [Grammar.pattern, hslash, Option.bind_some, patternRest_escape text.toList hbody,
    patternRest_slash hrest]
  by_cases hbreak : '\n' ∈ text.toList
  · rw [if_pos hbreak, if_pos (.inr hbreak), Option.bind_none]
  · rw [if_neg hbreak, Option.bind_some]
    by_cases hempty : text.toList = []
    · rw [if_neg (mt hread.mp (absurd hempty)), if_pos (Or.inl hempty)]
    · rw [if_pos (hread.mpr hempty), if_neg (not_or_intro hempty hbreak),
        hrest.exactly_eq "/" ⟨_, rfl⟩, Option.map_some]
      refine congrArg some (hflags.trans ?_)
      rw [List.length_cons, List.length_append, List.drop_succ_cons]
      rfl

/-- Wherever in a text the pattern of a text stands, it is read as if it stood alone. -/
theorem pattern_within {text before after : String} (stop : ∀ c ∈ after.toList.head?, isFlag c = false) :
    Grammar.pattern (List.drop before.length
        (Input.ofGlyphs (Glyph.ofText (before ++ literal text ++ after)))) =
      if text.toList = [] ∨ '\n' ∈ text.toList then none
      else some (List.drop (before ++ literal text).length
        (Input.ofGlyphs (Glyph.ofText (before ++ literal text ++ after)))) := by
  have h := (Spells.of_text (before ++ literal text ++ after)).drop before.length
  rw [String.toList_append, String.toList_append, List.append_assoc, ← String.length_toList,
    List.drop_left] at h
  rw [← String.length_toList, pattern_literal h stop, List.drop_drop, ← String.length_toList,
    String.toList_append, List.length_append]

end Pattern

/-! ## The patterns of a suite -/

namespace Query

/-- The text that a query matches by a pattern. -/
def matched? : Query → Option String
  | byRole _ name? => name?
  | byTestId _ => none
  | byText text => some text

theorem present_eq_some_iff {text? : Option String} {text : String} :
    present text? = some text ↔ text? = some text ∧ text.toList ≠ [] := by
  rw [present, Option.filter_eq_some_iff]
  simp

theorem matched?_ofIdUnless (role : String) (e : Element) : (ofIdUnless role e).matched? = none := by
  unfold ofIdUnless
  split
  · rfl
  · cases present e.stableId <;> rfl

theorem ofElement?_eq_or (e : Element) : ofElement? e =
    (ofRole? e).or (((present e.stableId).map byTestId).or ((present e.text).map byText)) := by
  unfold ofElement?
  cases ofRole? e with
  | some query => rfl
  | none => cases present e.stableId <;> rfl

/-- An element is found by its role, by its test id or by its text. -/
theorem ofElement?_cases {e : Element} {query : Query} (h : ofElement? e = some query) :
    (∃ role word, e.roleHint = some role ∧ screenRole role = some word ∧
      query = .byRole word (if isNamedByText role then present e.text else none)) ∨
    (∃ id, present e.stableId = some id ∧ query = .byTestId id) ∨
    ∃ text, present e.text = some text ∧ query = .byText text := by
  rw [ofElement?_eq_or] at h
  rcases Option.or_eq_some_iff.mp h with byRole | ⟨-, h⟩
  · have ⟨role, plays, hword⟩ := Option.bind_eq_some_iff.mp byRole
    have ⟨word, asked, query_eq⟩ := Option.bind_eq_some_iff.mp hword
    exact .inl ⟨role, word, plays, asked, (Option.some.inj query_eq).symm⟩
  · rcases Option.or_eq_some_iff.mp h with byId | ⟨-, byText⟩
    · have ⟨id, stable, query_eq⟩ := Option.map_eq_some_iff.mp byId
      exact .inr (.inl ⟨id, stable, query_eq.symm⟩)
    · have ⟨text, own, query_eq⟩ := Option.map_eq_some_iff.mp byText
      exact .inr (.inr ⟨text, own, query_eq.symm⟩)

/-- A query of an element matches nothing but the text of the element. -/
theorem matched?_ofElement? {e : Element} {query : Query} {text : String}
    (h : ofElement? e = some query) (matched : query.matched? = some text) :
    present e.text = some text := by
  rcases ofElement?_cases h with ⟨role, word, -, -, rfl⟩ | ⟨id, -, rfl⟩ | ⟨own, hown, rfl⟩
  · change (if isNamedByText role = true then present e.text else none) = some text at matched
    split at matched
    · exact matched
    · cases matched
  · cases matched
  · cases matched
    exact hown

end Query

namespace TestCase

/-- The texts that a test matches by patterns. -/
def matched : TestCase → List String
  | element _ query text? => query.matched?.toList ++ text?.toList
  | typing input => input.matched?.toList
  | adding input button => input.matched?.toList ++ button.matched?.toList
  | smoke | fetching _ | requesting _ _ => []

end TestCase

namespace Pattern

/-- The pattern of a text stands somewhere in a longer one, before a character that is no flag. -/
def StandsIn (text : String) (whole : List Char) : Prop :=
  ∃ c, isFlag c = false ∧ (literal text).toList ++ [c] <:+: whole

theorem StandsIn.mono {text : String} {part whole : List Char} (h : StandsIn text part)
    (within : part <:+: whole) : StandsIn text whole := by
  rcases h with ⟨c, hc, hstands⟩
  exact ⟨c, hc, hstands.trans within⟩

theorem standsIn_between (text before : String) {after : String} {c : Char} {cs : List Char}
    (stop : isFlag c = false) (h : after.toList = c :: cs) :
    StandsIn text (before ++ literal text ++ after).toList := by
  refine ⟨c, stop, before.toList, cs, ?_⟩
  rw [String.toList_append, String.toList_append, h, List.append_assoc, List.append_assoc,
    List.append_assoc]
  rfl

theorem standsIn_query {query : Query} {text : String} (h : query.matched? = some text) :
    StandsIn text query.render.toList := by
  cases query with
  | byRole role name? =>
    cases h
    exact standsIn_between text _ (c := ' ') rfl rfl
  | byTestId id => cases h
  | byText t =>
    cases h
    exact standsIn_between text _ (c := ')') rfl rfl

theorem infix_between (before line after : String) :
    line.toList <:+: (before ++ line ++ after).toList := by
  rw [String.toList_append, String.toList_append]
  exact List.infix_append _ _ _

/-- Each text that a test matches stands as a pattern in a line of its body. -/
theorem standsIn_body {test : TestCase} {text : String} (h : text ∈ test.matched)
    (renderCall : String) : ∃ line ∈ test.body renderCall, StandsIn text line.toList := by
  have hquery : ∀ {query : Query} (name : String), text ∈ query.matched?.toList →
      StandsIn text ("const " ++ name ++ " = " ++ query.render ++ ";").toList :=
    fun name h => (standsIn_query (Option.mem_toList.mp h)).mono (infix_between _ _ _)
  cases test with
  | element number query text? =>
    rcases List.mem_append.mp h with h | h
    · exact ⟨_, by simp [TestCase.body], hquery "el" h⟩
    · cases Option.mem_toList.mp h
      have hcheck : StandsIn text
          ("expect(el).toHaveTextContent(" ++ literal text ++ ");").toList :=
        standsIn_between text _ (c := ')') rfl rfl
      exact ⟨_, by simp [TestCase.body], hcheck⟩
  | typing input => exact ⟨_, by simp [TestCase.body], hquery "input" h⟩
  | adding input button =>
    rcases List.mem_append.mp h with h | h
    · exact ⟨_, by simp [TestCase.body], hquery "input" h⟩
    · exact ⟨_, by simp [TestCase.body], hquery "button" h⟩
  | smoke | fetching row | requesting method row => cases h

end Pattern

namespace Suite

open Pattern (StandsIn)

theorem infix_of_mem_intercalate {α : Type} {separator part : List α} {parts : List (List α)}
    (h : part ∈ parts) : part <:+: separator.intercalate parts := by
  induction parts with
  | nil => cases h
  | cons first parts ih =>
    cases parts with
    | nil =>
      have heq : part = separator.intercalate [first] := by
        rw [List.mem_singleton.mp h, List.intercalate_singleton]
      exact heq ▸ List.infix_rfl
    | cons second parts =>
      rw [List.intercalate_cons_cons]
      rcases List.mem_cons.mp h with rfl | h
      · exact ((List.prefix_append _ _).trans (List.prefix_append _ _)).isInfix
      · exact (ih h).trans (List.suffix_append _ _).isInfix

/-- A line of a test's body stands in the file. -/
theorem infix_render {s : Suite} {test : TestCase} {line : String} (htest : test ∈ s.cases)
    (hline : line ∈ test.body s.renderCall) : line.toList <:+: s.render.toList := by
  have hmem : "    " ++ line ∈ s.lines := by
    have hlines : "    " ++ line ∈ test.lines s.renderCall := by
      simp only [TestCase.lines, List.mem_append, List.mem_map]
      exact .inl (.inr ⟨line, hline, rfl⟩)
    simp only [lines, List.mem_append, List.mem_flatMap]
    exact .inl (.inr ⟨test, htest, hlines⟩)
  refine List.IsInfix.trans ?_ (?_ : ("    " ++ line).toList <:+: s.render.toList)
  · rw [String.toList_append]
    exact (List.suffix_append _ _).isInfix
  · rw [render, String.toList_intercalate]
    exact infix_of_mem_intercalate (List.mem_map_of_mem hmem)

/-- Each text that a test of a suite matches stands as a pattern in the file. -/
theorem standsIn_render {s : Suite} {test : TestCase} {text : String} (htest : test ∈ s.cases)
    (h : text ∈ test.matched) : StandsIn text s.render.toList := by
  rcases Pattern.standsIn_body h s.renderCall with ⟨line, hline, hstands⟩
  exact hstands.mono (infix_render htest hline)

/-- The file of a suite, as the grammar reads it. -/
def source (s : Suite) : Input := .ofGlyphs (Glyph.ofText s.render)

theorem mem_elementCases {elements : List Element} {test : TestCase}
    (h : test ∈ elementCases elements) : ∃ number e query, e ∈ elements ∧
      Query.ofElement? e = some query ∧ test = .element number query (Query.present e.text) := by
  rcases List.mem_mapIdx.mp h with ⟨i, hi, rfl⟩
  have hmem := List.mem_of_mem_take (List.getElem_mem hi)
  rcases List.mem_filterMap.mp hmem with ⟨e, he, hquery⟩
  rcases Option.map_eq_some_iff.mp hquery with ⟨query, hquery, hpair⟩
  exact ⟨i + 1, e, query, (List.mem_filter.mp he).1, hquery, by rw [← hpair]⟩

theorem matched_of_mem_inputCases {elements : List Element} {test : TestCase}
    (h : test ∈ inputCases elements) : test.matched = [] := by
  unfold inputCases at h
  cases hinput : input? elements with
  | none =>
    rw [hinput] at h
    cases h
  | some input =>
    rw [hinput] at h
    rcases List.mem_cons.mp h with rfl | h
    · rw [TestCase.matched, Query.matched?_ofIdUnless, Option.toList_none]
    · cases hbutton : button? elements with
      | none =>
        rw [hbutton] at h
        cases h
      | some button =>
        rw [hbutton] at h
        rw [List.mem_singleton.mp h, TestCase.matched, Query.matched?_ofIdUnless,
          Query.matched?_ofIdUnless, Option.toList_none, List.append_nil]

theorem matched_of_mem_loadCases {c : Component} {test : TestCase} (h : test ∈ loadCases c) :
    test.matched = [] := by
  unfold loadCases at h
  split at h
  · split at h
    · cases h
    · dsimp only at h
      split at h <;> rw [List.mem_singleton.mp h] <;> rfl
  · cases h

/-- The tests of a component match texts of its elements, and no empty ones. -/
theorem text_of_matched {subject : String} {c : Component} {test : TestCase} {text : String}
    (htest : test ∈ (ofComponent subject c).cases) (h : text ∈ test.matched) :
    text.toList ≠ [] ∧ ∃ e ∈ c.elements, e.text = some text := by
  have hpresent : ∀ e ∈ c.elements, Query.present e.text = some text →
      text.toList ≠ [] ∧ ∃ e ∈ c.elements, e.text = some text := by
    intro e he htext
    rcases Query.present_eq_some_iff.mp htext with ⟨htext, hne⟩
    exact ⟨hne, e, he, htext⟩
  rcases List.mem_append.mp htest with htest | hload
  · rcases List.mem_append.mp htest with htest | hinput
    · rcases List.mem_cons.mp htest with rfl | helement
      · cases h
      · rcases mem_elementCases helement with ⟨number, e, query, he, hquery, rfl⟩
        rcases List.mem_append.mp h with h | h
        · exact hpresent e he (Query.matched?_ofElement? hquery (Option.mem_toList.mp h))
        · exact hpresent e he (Option.mem_toList.mp h)
    · rw [matched_of_mem_inputCases hinput] at h
      cases h
  · rw [matched_of_mem_loadCases hload] at h
    cases h

/-- The grammar reads each pattern in the test file of a component to its end, if the text that it
matches is on one line; else it reads no pattern there at all. -/
theorem pattern_of_ofComponent {subject : String} {c : Component} {test : TestCase} {text : String}
    (htest : test ∈ (ofComponent subject c).cases) (h : text ∈ test.matched) :
    ∃ before after, (ofComponent subject c).render = before ++ Pattern.literal text ++ after ∧
      Grammar.pattern ((ofComponent subject c).source.drop before.length) =
        if '\n' ∈ text.toList then none
        else some ((ofComponent subject c).source.drop (before ++ Pattern.literal text).length) := by
  rcases standsIn_render htest h with ⟨next, stop, before, after, hrender⟩
  have hsplit : (ofComponent subject c).render =
      String.ofList before ++ Pattern.literal text ++ String.ofList (next :: after) := by
    rw [← String.toList_inj, ← hrender]
    simp
  refine ⟨String.ofList before, String.ofList (next :: after), hsplit, ?_⟩
  rw [source, hsplit, Pattern.pattern_within (by simpa using stop)]
  simp only [(text_of_matched htest h).1, false_or]

end Suite

end SuiteDraft
