import SuiteDraft.Proofs.Analysis.Failure

/-!
# What a component takes from its caller

The props of a component are the names in its first parameter by which the caller gives something:
the name of the parameter itself, or the fields that an object pattern takes. What the function makes
of a field, what stands in for one that is not given, the types, and whatever comes after the first
parameter are its own affair.
-/

namespace SuiteDraft

namespace Props

/-- A parameter in a list, which may have a mark, a type and a default. -/
def IsParameter (t : Tree) : Prop := t.kind = .requiredParameter ∨ t.kind = .optionalParameter

instance : DecidablePred IsParameter := fun _ => inferInstanceAs (Decidable (_ ∨ _))

/-- The pattern that comes first among what a function takes: the bare parameter of an arrow, or the
first in a list, which a parameter there holds. -/
inductive FirstPattern (fn : Tree) : Tree → Prop
  | bare {pattern : Tree} (single : fn.child? .parameter = some pattern) : FirstPattern fn pattern
  | listed {list pattern : Tree} (notSingle : fn.child? .parameter = none)
      (parameters : fn.child? .parameters = some list) (first : list.meaningful.head? = some pattern)
      (plain : ¬ IsParameter pattern) : FirstPattern fn pattern
  | held {list parameter pattern : Tree} (notSingle : fn.child? .parameter = none)
      (parameters : fn.child? .parameters = some list)
      (first : list.meaningful.head? = some parameter) (holds : IsParameter parameter)
      (held : parameter.child? .pattern = some pattern) : FirstPattern fn pattern

/-- A pattern comes to a binding when the defaults are taken from it, however many there are. -/
inductive ComesTo : Tree → Tree → Prop
  | plain {pattern : Tree} (kind : pattern.kind ≠ .assignmentPattern) : ComesTo pattern pattern
  | default {pattern left binding : Tree} (kind : pattern.kind = .assignmentPattern)
      (target : pattern.child? .left = some left) (comesTo : ComesTo left binding) :
      ComesTo pattern binding

/-- An entry of an object pattern takes the field `name`: a shorthand field, the key of a field that
goes to another target, which is decoded when it is a string, a shorthand field with a default, or
what is left of the fields. -/
inductive Takes : Tree → String → Prop
  | shorthand {entry : Tree} (kind : entry.kind = .shorthandPattern) : Takes entry entry.text
  | name {entry key : Tree} (kind : entry.kind = .pairPattern) (key_eq : entry.child? .key = some key)
      (keyKind : key.kind = .propertyIdentifier) : Takes entry key.text
  | string {entry key : Tree} {name : String} (kind : entry.kind = .pairPattern)
      (key_eq : entry.child? .key = some key) (keyKind : key.kind = .string)
      (value : Literal.value? key = .ok (some name)) : Takes entry name
  | default {entry left : Tree} (kind : entry.kind = .objectAssignmentPattern)
      (left_eq : entry.child? .left = some left)
      (leftKind : left.kind = .shorthandPattern ∨ left.kind = .identifier) : Takes entry left.text
  | rest {entry name : Tree} (kind : entry.kind = .restPattern)
      (name_eq : entry.meaningful.find? (·.kind == .identifier) = some name) : Takes entry name.text

/-- The fields that entries take, in their order. -/
inductive Taken : List Tree → List String → Prop
  | nil : Taken [] []
  | take {entry : Tree} {entries : List Tree} {name : String} {names : List String}
      (takes : Takes entry name) (taken : Taken entries names) : Taken (entry :: entries) (name :: names)
  | pass {entry : Tree} {entries : List Tree} {names : List String}
      (takesNone : ∀ name, ¬ Takes entry name) (taken : Taken entries names) :
      Taken (entry :: entries) names

/-- The caller of a function gives something by `names`: by the name that the first parameter comes
to, by the fields that an object pattern takes, and otherwise by no name. -/
inductive Gives (fn : Tree) : List String → Prop
  | name {pattern binding : Tree} (first : FirstPattern fn pattern)
      (comesTo : ComesTo pattern binding) (kind : binding.kind = .identifier) :
      Gives fn [binding.text]
  | fields {pattern binding : Tree} {names : List String} (first : FirstPattern fn pattern)
      (comesTo : ComesTo pattern binding) (kind : binding.kind = .objectPattern)
      (taken : Taken binding.meaningful names) : Gives fn names
  | other {pattern binding : Tree} (first : FirstPattern fn pattern)
      (comesTo : ComesTo pattern binding) (notName : binding.kind ≠ .identifier)
      (notFields : binding.kind ≠ .objectPattern) : Gives fn []
  | nothing (none : ∀ pattern binding, FirstPattern fn pattern → ¬ ComesTo pattern binding) :
      Gives fn []

/-- Every key that a function takes a field by is a name or a string that can be decoded. -/
def KeysReadable (fn : Tree) : Prop := ∀ key, Reads fn key → ¬ Literal.Oversized key

/-- Entries that take the same field, whatever they do with it: the target of a field may be another
one, and so may a default. -/
inductive SameEntry : Tree → Tree → Prop
  | alike {entry entry' : Tree} (alike : entry.Alike (· == .comment) entry') : SameEntry entry entry'
  | target {entry entry' key key' : Tree} (kind : entry.kind = .pairPattern)
      (kind' : entry'.kind = .pairPattern) (key_eq : entry.child? .key = some key)
      (key_eq' : entry'.child? .key = some key') (alike : key.Alike (· == .comment) key') :
      SameEntry entry entry'
  | default {entry entry' left left' : Tree} (kind : entry.kind = .objectAssignmentPattern)
      (kind' : entry'.kind = .objectAssignmentPattern) (left_eq : entry.child? .left = some left)
      (left_eq' : entry'.child? .left = some left') (alike : left.Alike (· == .comment) left') :
      SameEntry entry entry'

/-- Bindings that take the same from the caller. -/
inductive SameBinding : Tree → Tree → Prop
  | alike {binding binding' : Tree} (alike : binding.Alike (· == .comment) binding') :
      SameBinding binding binding'
  | fields {binding binding' : Tree} (kind : binding.kind = .objectPattern)
      (kind' : binding'.kind = .objectPattern)
      (entries : List.Forall₂ SameEntry binding.meaningful binding'.meaningful) :
      SameBinding binding binding'

/-- Functions whose first parameters take the same from the caller. Defaults, types, the targets of
fields and the parameters after the first may be others. -/
inductive SameToCaller (fn fn' : Tree) : Prop
  | intro {pattern pattern' binding binding' : Tree} (first : FirstPattern fn pattern)
      (first' : FirstPattern fn' pattern') (comesTo : ComesTo pattern binding)
      (comesTo' : ComesTo pattern' binding') (same : SameBinding binding binding') :
      SameToCaller fn fn'

/-! ## The first parameter -/

theorem parameterPattern?_of_isParameter {t : Tree} (h : IsParameter t) :
    parameterPattern? t = t.child? .pattern :=
  if_pos (by simpa [IsParameter] using h)

theorem parameterPattern?_of_plain {t : Tree} (h : ¬ IsParameter t) : parameterPattern? t = some t :=
  if_neg (by simpa [IsParameter] using h)

theorem firstPattern?_eq_some_iff {fn pattern : Tree} :
    firstPattern? fn = some pattern ↔ FirstPattern fn pattern := by
  constructor
  · intro found
    unfold firstPattern? at found
    split at found
    · rename_i single single_eq
      cases found
      exact .bare single_eq
    · rename_i notSingle
      split at found
      · rename_i list list_eq
        obtain ⟨first, first_eq, held⟩ := Option.bind_eq_some_iff.mp found
        by_cases holds : IsParameter first
        · rw [parameterPattern?_of_isParameter holds] at held
          exact .held notSingle list_eq first_eq holds held
        · rw [parameterPattern?_of_plain holds] at held
          cases held
          exact .listed notSingle list_eq first_eq holds
      · cases found
  · intro first
    cases first with
    | bare single => rw [firstPattern?, single]
    | listed notSingle parameters first plain =>
      rw [firstPattern?, notSingle, parameters]
      simp only [first, Option.bind_some, parameterPattern?_of_plain plain]
    | held notSingle parameters first holds held =>
      rw [firstPattern?, notSingle, parameters]
      simp only [first, Option.bind_some, parameterPattern?_of_isParameter holds, held]

theorem ofFunction_of_firstPattern {fn pattern : Tree} (first : FirstPattern fn pattern) :
    ofFunction fn = ofPattern pattern := by
  rw [ofFunction, firstPattern?_eq_some_iff.mpr first]

theorem ofPattern_of_comesTo {pattern binding : Tree} (comesTo : ComesTo pattern binding) :
    ofPattern pattern = ofPattern binding := by
  induction comesTo with
  | plain _ => rfl
  | default kind target _ ih => rw [ofPattern_of_assignment kind, target, ← ih]

mutual

/-- A pattern that comes to no binding has a default for nothing. -/
theorem ofPattern_of_not_comesTo : ∀ pattern : Tree, (∀ binding, ¬ ComesTo pattern binding) →
    ofPattern pattern = .ok []
  | .node l cs, unbound => by
    by_cases kind : l.kind = .assignmentPattern
    · rw [ofPattern, kind]
      exact ofLeft_of_not_comesTo cs fun left left_eq binding comesTo =>
        unbound binding (.default kind left_eq comesTo)
    · exact absurd (.plain kind) (unbound _)

theorem ofLeft_of_not_comesTo : ∀ cs : List Tree,
    (∀ left, (cs.find? fun c => c.label.field == some .left) = some left →
      ∀ binding, ¬ ComesTo left binding) → ofLeft cs = .ok []
  | [], _ => rfl
  | c :: cs, unbound => by
    rw [ofLeft]
    cases field : c.label.field == some .left with
    | true => exact ofPattern_of_not_comesTo c (unbound c (List.find?_cons_of_pos field))
    | false =>
      refine ofLeft_of_not_comesTo cs fun left left_eq => unbound left ?_
      rw [List.find?_cons_of_neg (by rw [field]; exact Bool.false_ne_true), left_eq]

end

theorem ComesTo.kind_ne {pattern binding : Tree} (comesTo : ComesTo pattern binding) :
    binding.kind ≠ .assignmentPattern := by
  induction comesTo with
  | plain kind => exact kind
  | default _ _ _ ih => exact ih

theorem ofFunction_of_unbound {fn : Tree}
    (unbound : ∀ pattern binding, FirstPattern fn pattern → ¬ ComesTo pattern binding) :
    ofFunction fn = .ok [] := by
  unfold ofFunction
  split
  · rename_i pattern first
    exact ofPattern_of_not_comesTo pattern fun binding =>
      unbound pattern binding (firstPattern?_eq_some_iff.mp first)
  · rfl

/-! ## The entries of an object pattern -/

theorem entryName?_eq_some_iff {entry : Tree} {name : String} :
    entryName? entry = .ok (some name) ↔ Takes entry name := by
  constructor
  · intro found
    unfold entryName? at found
    split at found <;> rename_i kind
    · cases found
      exact .shorthand kind
    · split at found
      · rename_i key key_eq
        split at found <;> rename_i keyKind
        · cases found
          exact .name kind key_eq keyKind
        · exact .string kind key_eq keyKind found
        · cases found
      · cases found
    · split at found
      · rename_i left left_eq
        split at found
        · rename_i leftKind
          rw [Bool.or_eq_true, decide_eq_true_iff, decide_eq_true_iff] at leftKind
          cases found
          exact .default kind left_eq leftKind
        · cases found
      · cases found
    · obtain ⟨rest, rest_eq, rfl⟩ := Option.map_eq_some_iff.mp (Except.ok.inj found)
      exact .rest kind rest_eq
    · cases found
  · intro takes
    cases takes with
    | shorthand kind => rw [entryName?, kind]
    | name kind key_eq keyKind => simp only [entryName?, kind, key_eq, keyKind]
    | string kind key_eq keyKind value => simp only [entryName?, kind, key_eq, keyKind, value]
    | default kind left_eq leftKind =>
      simp only [entryName?, kind, left_eq]
      exact if_pos (by simpa using leftKind)
    | rest kind name_eq => simp only [entryName?, kind, name_eq, Option.map_some]

theorem Takes.unique {entry : Tree} {name name' : String} (takes : Takes entry name)
    (takes' : Takes entry name') : name = name' := by
  have found := entryName?_eq_some_iff.mpr takes
  rw [entryName?_eq_some_iff.mpr takes'] at found
  cases found
  rfl

theorem Taken.unique {entries : List Tree} {names names' : List String}
    (taken : Taken entries names) (taken' : Taken entries names') : names = names' := by
  induction taken generalizing names' with
  | nil =>
    cases taken'
    rfl
  | take takes _ ih =>
    cases taken' with
    | take takes' taken' => rw [takes.unique takes', ih taken']
    | pass takesNone _ => exact absurd takes (takesNone _)
  | pass takesNone _ ih =>
    cases taken' with
    | take takes' _ => exact absurd takes' (takesNone _)
    | pass _ taken' => exact ih taken'

/-- What is found entry by entry are the fields that the entries take. -/
theorem taken_of_found {entries : List Tree} {found : List (Option String)}
    (h : List.Forall₂ (fun entry name? => entryName? entry = .ok name?) entries found) :
    Taken entries (found.filterMap id) := by
  induction h with
  | nil => exact .nil
  | @cons entry name? entries found here _ ih =>
    cases name? with
    | none =>
      refine .pass (fun name takes => ?_) ih
      rw [entryName?_eq_some_iff.mpr takes] at here
      cases here
    | some name => exact .take (entryName?_eq_some_iff.mp here) ih

theorem taken_of_ofPattern {binding : Tree} {names : List String} (kind : binding.kind = .objectPattern)
    (found : ofPattern binding = .ok names) : Taken binding.meaningful names := by
  rw [ofPattern_of_object kind] at found
  cases each : binding.meaningful.mapM entryName? with
  | error e =>
    rw [each] at found
    cases found
  | ok found? =>
    rw [each] at found
    cases found
    exact taken_of_found (mapM_eq_ok_iff.mp each)

/-! ## The names -/

theorem gives_of_ofFunction {fn : Tree} {names : List String} (found : ofFunction fn = .ok names) :
    Gives fn names := by
  by_cases bound : ∃ pattern binding, FirstPattern fn pattern ∧ ComesTo pattern binding
  · obtain ⟨pattern, binding, first, comesTo⟩ := bound
    rw [ofFunction_of_firstPattern first, ofPattern_of_comesTo comesTo] at found
    by_cases fields : binding.kind = .objectPattern
    · exact .fields first comesTo fields (taken_of_ofPattern fields found)
    · rw [ofPattern_of_other comesTo.kind_ne fields] at found
      cases found
      split
      · exact .name first comesTo ‹_›
      · exact .other first comesTo ‹_› fields
  · have unbound : ∀ pattern binding, FirstPattern fn pattern → ¬ ComesTo pattern binding :=
      fun pattern binding first comesTo => bound ⟨pattern, binding, first, comesTo⟩
    rw [ofFunction_of_unbound unbound] at found
    cases found
    exact .nothing unbound

theorem ofFunction_of_gives {fn : Tree} {names : List String} (gives : Gives fn names)
    (readable : KeysReadable fn) : ofFunction fn = .ok names := by
  cases gives with
  | name first comesTo kind =>
    rw [ofFunction_of_firstPattern first, ofPattern_of_comesTo comesTo,
      ofPattern_of_other comesTo.kind_ne (by rw [kind]; nofun), if_pos kind]
  | fields first comesTo kind taken =>
    -- Only an oversized key keeps names from being found, and those found are the ones taken.
    cases found : ofFunction fn with
    | error e =>
      obtain ⟨key, reads, oversized⟩ := fails_ofFunction_iff.mp ⟨e, found⟩
      exact absurd oversized (readable key reads)
    | ok names' =>
      rw [ofFunction_of_firstPattern first, ofPattern_of_comesTo comesTo] at found
      rw [(taken_of_ofPattern kind found).unique taken]
  | other first comesTo notName notFields =>
    rw [ofFunction_of_firstPattern first, ofPattern_of_comesTo comesTo,
      ofPattern_of_other comesTo.kind_ne notFields, if_neg notName]
  | nothing unbound => exact ofFunction_of_unbound unbound

/-! ## What is the function's own affair -/

theorem entryName?_of_same {entry entry' : Tree} (same : SameEntry entry entry') :
    entryName? entry = entryName? entry' := by
  cases same with
  | alike alike => exact entryName?_eq alike
  | target kind kind' key_eq key_eq' alike =>
    simp only [entryName?, kind, kind', key_eq, key_eq']
    rw [← alike.kind, Literal.value?_eq alike]
    split
    · rename_i keyKind
      rw [alike.text (by rw [keyKind]; rfl)]
    · rfl
    · rfl
  | default kind kind' left_eq left_eq' alike =>
    simp only [entryName?, kind, kind', left_eq, left_eq']
    rw [← alike.kind]
    split
    · rename_i leftKind
      rw [Bool.or_eq_true, decide_eq_true_iff, decide_eq_true_iff] at leftKind
      rw [alike.text (by rcases leftKind with kind | kind <;> rw [kind] <;> rfl)]
    · rfl

theorem ofPattern_of_same {binding binding' : Tree} (same : SameBinding binding binding') :
    ofPattern binding = ofPattern binding' := by
  cases same with
  | alike alike => exact ofPattern_eq alike
  | fields kind kind' entries =>
    rw [ofPattern_of_object kind, ofPattern_of_object kind',
      mapM_eq_of_forall₂ (fun _ _ same => entryName?_of_same same) entries]

/-- The props of a component are the names by which the caller of its function gives something,
whichever way the first parameter is written; there are some unless the key of a field cannot be
decoded. They stay the same with other targets, defaults and types, and with other parameters after
the first. -/
theorem names_of_parameter (fn : Tree) :
    (∀ names, ofFunction fn = .ok names ↔ Gives fn names ∧ KeysReadable fn) ∧
    ((∃ names, ofFunction fn = .ok names) ↔ KeysReadable fn) ∧
    (∀ fn', SameToCaller fn fn' → ofFunction fn = ofFunction fn') := by
  have readable_iff : (∃ names, ofFunction fn = .ok names) ↔ KeysReadable fn := by
    have fails_iff : Fails (ofFunction fn) ↔ ¬ KeysReadable fn := by
      rw [fails_ofFunction_iff, KeysReadable]
      push Not
      rfl
    rw [← not_iff_not, ← fails_iff]
    cases ofFunction fn with
    | ok names => simp
    | error e => exact ⟨fun _ => ⟨e, rfl⟩, fun _ => nofun⟩
  refine ⟨fun names => ⟨fun found => ?_, fun h => ofFunction_of_gives h.1 h.2⟩, readable_iff, ?_⟩
  · exact ⟨gives_of_ofFunction found, readable_iff.mp ⟨names, found⟩⟩
  · rintro fn' ⟨first, first', comesTo, comesTo', same⟩
    rw [ofFunction_of_firstPattern first, ofFunction_of_firstPattern first',
      ofPattern_of_comesTo comesTo, ofPattern_of_comesTo comesTo', ofPattern_of_same same]

instance : DecidableRel SameEntry := fun entry entry' =>
  decidable_of_iff (entry.Alike (· == .comment) entry' ∨
      (entry.kind = .pairPattern ∧ entry'.kind = .pairPattern ∧
        ∃ key ∈ entry.child? .key, ∃ key' ∈ entry'.child? .key, key.Alike (· == .comment) key') ∨
      entry.kind = .objectAssignmentPattern ∧ entry'.kind = .objectAssignmentPattern ∧
        ∃ left ∈ entry.child? .left, ∃ left' ∈ entry'.child? .left,
          left.Alike (· == .comment) left') <| by
    constructor
    · rintro (alike | ⟨kind, kind', key, key_eq, key', key_eq', alike⟩ |
        ⟨kind, kind', left, left_eq, left', left_eq', alike⟩)
      · exact .alike alike
      · exact .target kind kind' key_eq key_eq' alike
      · exact .default kind kind' left_eq left_eq' alike
    · rintro (alike | ⟨kind, kind', key_eq, key_eq', alike⟩ | ⟨kind, kind', left_eq, left_eq', alike⟩)
      · exact .inl alike
      · exact .inr (.inl ⟨kind, kind', _, key_eq, _, key_eq', alike⟩)
      · exact .inr (.inr ⟨kind, kind', _, left_eq, _, left_eq', alike⟩)

/-- The function that is the component of a source. -/
def functionOf (source : String) : Tree :=
  let tree := Grammar.treeOf .markup (.ofGlyphs (Glyph.ofText source))
  ((Location.ofRoot ⟨tree, []⟩).roots.head?.map (·.node)).getD default

/-- A component whose parameter has a type and a default. -/
def typedFunction : Tree := functionOf
  "export default function A(\x7ba, b: c, 'd': \x7be\x7d, f = 1, 2: g, ...h\x7d: P = \x7b\x7d)\x7b\x7d"

/-- A component that takes the same in another way, and has another parameter. -/
def untypedFunction : Tree := functionOf
  "export default (\x7ba, b: [i] = j, 'd': k, f = l(m), 2: n, ...h\x7d, o) => 0"

theorem names_of_typedFunction : SameToCaller typedFunction untypedFunction ∧
    Gives typedFunction ["a", "b", "d", "f", "h"] ∧
    ofFunction untypedFunction = .ok ["a", "b", "d", "f", "h"] := by
  have patterns : ∃ pattern ∈ firstPattern? typedFunction, ∃ pattern' ∈ firstPattern? untypedFunction,
      pattern.kind = .objectPattern ∧ pattern'.kind = .objectPattern ∧
        List.Forall₂ SameEntry pattern.meaningful pattern'.meaningful := by decide +kernel
  have found : ofFunction typedFunction = .ok ["a", "b", "d", "f", "h"] :=
    eq_ok_of_toOption (by decide +kernel)
  obtain ⟨pattern, first, pattern', first', kind, kind', entries⟩ := patterns
  have same : SameToCaller typedFunction untypedFunction :=
    .intro (firstPattern?_eq_some_iff.mp first) (firstPattern?_eq_some_iff.mp first')
      (.plain (by rw [kind]; nofun)) (.plain (by rw [kind']; nofun)) (.fields kind kind' entries)
  obtain ⟨names_iff, -, unchanged⟩ := names_of_parameter typedFunction
  exact ⟨same, ((names_iff _).mp found).1, (unchanged _ same).symm.trans found⟩

/-- A component that takes one field, by a key with an escape beyond a machine word. -/
def oversizedKeySource : String :=
  "export default function A(\x7b'\\u\x7b80000000\x7d': a\x7d)\x7breturn <p/>\x7d"

/-- No names are found for it, and its file is not analysed. -/
theorem names_of_oversizedKey :
    (∃ pattern, FirstPattern (functionOf oversizedKeySource) pattern ∧
      pattern.kind = .objectPattern ∧ pattern.meaningful.map (·.kind) = [.pairPattern]) ∧
    (∀ names, ofFunction (functionOf oversizedKeySource) ≠ .ok names) ∧
    (Report.ofText "A.tsx" oversizedKeySource).outcome = .error (.literal .escapeTooLarge) := by
  have found : ofFunction (functionOf oversizedKeySource) = .error .escapeTooLarge := by
    decide +kernel
  have pattern : ∃ pattern ∈ firstPattern? (functionOf oversizedKeySource),
      pattern.kind = .objectPattern ∧ pattern.meaningful.map (·.kind) = [.pairPattern] := by
    decide +kernel
  obtain ⟨pattern, first, shape⟩ := pattern
  refine ⟨⟨pattern, firstPattern?_eq_some_iff.mp first, shape⟩, ?_, by decide +kernel⟩
  intro names ok
  rw [found] at ok
  cases ok

end Props

end SuiteDraft
