import SuiteDraft.Analysis.Source
import SuiteDraft.Proofs.Analysis.Elements
import SuiteDraft.Proofs.Analysis.Network
import SuiteDraft.Proofs.Analysis.Readings

/-!
# How an analysis fails

A file is analysed or rejected, unless a literal that the analysis reads holds a numbered escape
beyond a machine word. Nothing else can go wrong in a tree: not the walk, not the search for the
component, and not the reading of a tree from which fields are missing.
-/

namespace SuiteDraft

/-- A computation comes to no value. -/
def Fails {ε α : Type} (x : Except ε α) : Prop := ∃ e, x = .error e

section

/-! ## Computations that fail -/

variable {ε α β σ : Type}

@[simp] theorem not_fails_ok (a : α) : ¬ Fails (.ok a : Except ε α) := nofun

theorem fails_bind_pure {x : Except ε α} {f : α → β} : Fails (x >>= fun a => pure (f a)) ↔ Fails x := by
  cases x with
  | ok a => exact ⟨nofun, nofun⟩
  | error e => exact ⟨fun _ => ⟨e, rfl⟩, fun _ => ⟨e, rfl⟩⟩

@[simp] theorem fails_fmap {x : Except ε α} {f : α → β} : Fails (f <$> x) ↔ Fails x := fails_bind_pure

theorem fails_map {x : Except ε α} {f : α → β} : Fails (x.map f) ↔ Fails x := fails_bind_pure

theorem fails_bind_iff {x : Except ε α} {f : α → Except ε β} :
    Fails (x >>= f) ↔ Fails x ∨ ∃ a, x = .ok a ∧ Fails (f a) := by
  cases x with
  | ok a => simp [ok_bind]
  | error e => exact ⟨fun _ => .inl ⟨e, rfl⟩, fun _ => ⟨e, rfl⟩⟩

/-- A run fails when it comes to something at which a step fails, whatever was collected before. -/
theorem fails_foldlM_iff (f : σ → α → Except ε σ) {P : α → Prop} {l : List α}
    (step : ∀ s a, Fails (f s a) ↔ P a) (s : σ) : Fails (l.foldlM f s) ↔ ∃ a ∈ l, P a := by
  induction l generalizing s with
  | nil => simp [pure, Except.pure]
  | cons a l ih =>
    rw [List.foldlM_cons, List.exists_mem_cons_iff, ← step s a]
    cases hstep : f s a with
    | ok s' => simpa [ok_bind] using ih s'
    | error e => exact ⟨fun _ => .inl ⟨e, rfl⟩, fun _ => ⟨e, rfl⟩⟩

theorem fails_mapM_iff {f : α → Except ε β} {l : List α} :
    Fails (l.mapM f) ↔ ∃ a ∈ l, Fails (f a) := by
  induction l with
  | nil => simp [pure, Except.pure]
  | cons a l ih =>
    rw [List.mapM_cons, List.exists_mem_cons_iff]
    cases hf : f a with
    | ok b =>
      rw [ok_bind, fails_bind_pure, ih]
      simp
    | error e => exact ⟨fun _ => .inl ⟨e, rfl⟩, fun _ => ⟨e, rfl⟩⟩

end

/-! ## Escapes and literals -/

namespace Escape

/-- A numbered escape whose number is beyond a signed word of thirty-two bits. -/
def Oversized (sequence : List Char) : Prop :=
  ∃ head digits n, sequence.drop 1 = head :: digits ∧ (head = 'x' ∨ head = 'u') ∧
    Text.readInteger? 16 (unbraced digits) = some n ∧ (2147483647 < n ∨ n < -2147483648)

theorem fails_numbered_iff {body digits : List Char} : Fails (numbered body digits) ↔
    ∃ n, Text.readInteger? 16 (unbraced digits) = some n ∧ (2147483647 < n ∨ n < -2147483648) := by
  unfold numbered
  cases Text.readInteger? 16 (unbraced digits) with
  | none => simp
  | some n =>
    dsimp only
    by_cases hn : 2147483647 < n ∨ n < -2147483648
    · rw [if_pos (by simpa using hn)]
      exact ⟨fun _ => ⟨n, rfl, hn⟩, fun _ => ⟨_, rfl⟩⟩
    · rw [if_neg (by simpa using hn)]
      refine ⟨fun h => ?_, ?_⟩
      · split at h <;> exact absurd h (not_fails_ok _)
      · rintro ⟨m, hm, hbounds⟩
        cases hm
        exact absurd hbounds hn

theorem fails_decode_iff {sequence : List Char} : Fails (decode sequence) ↔ Oversized sequence := by
  unfold decode Oversized
  cases sequence.drop 1 with
  | nil => simp [decodeBody]
  | cons head digits =>
    by_cases hnumbered : head = 'x' ∨ head = 'u'
    · have hbody : decodeBody (head :: digits) = numbered (head :: digits) digits := by
        rcases hnumbered with rfl | rfl <;> cases digits <;> rfl
      rw [hbody, fails_numbered_iff]
      constructor
      · rintro ⟨n, h⟩
        exact ⟨head, digits, n, rfl, hnumbered, h⟩
      · rintro ⟨_, _, n, ⟨⟩, -, h⟩
        exact ⟨n, h⟩
    · have hok : ¬ Fails (decodeBody (head :: digits)) := by
        unfold decodeBody
        dsimp only
        split
        · exact not_fails_ok _
        · split
          · exact not_fails_ok _
          · rw [if_neg (by simpa using hnumbered)]
            exact not_fails_ok _
      refine ⟨fun h => absurd h hok, ?_⟩
      rintro ⟨_, _, n, ⟨⟩, h, -⟩
      exact absurd h hnumbered

end Escape

namespace Literal

/-- A string or template in which an oversized escape stands, before any substitution. -/
def Oversized (t : Tree) : Prop :=
  isLiteral t = true ∧ ∃ piece ∈ t.children.takeWhile (·.kind != .templateSubstitution),
    piece.kind = .escapeSequence ∧ Escape.Oversized piece.text.toList

theorem fails_piece_iff {t : Tree} :
    Fails (piece t) ↔ t.kind = .escapeSequence ∧ Escape.Oversized t.text.toList := by
  unfold piece
  split <;> rename_i hkind
  · simp [hkind]
  · rw [Escape.fails_decode_iff, and_iff_right hkind]
  · simp [hkind]
  · exact ⟨fun h => absurd h (not_fails_ok _), fun h => absurd h.1 ‹_›⟩

theorem fails_pieces_iff {cs : List Tree} : Fails (pieces cs) ↔
    ∃ piece ∈ cs.takeWhile (·.kind != .templateSubstitution),
      piece.kind = .escapeSequence ∧ Escape.Oversized piece.text.toList := by
  induction cs with
  | nil => simp [pieces]
  | cons c cs ih =>
    rw [pieces, List.takeWhile_cons]
    by_cases hkind : c.kind = .templateSubstitution
    · simp [hkind]
    · rw [if_neg hkind, if_pos (by simpa using hkind), List.exists_mem_cons_iff, ← fails_piece_iff,
        ← ih]
      cases hpiece : piece c with
      | error e => exact ⟨fun _ => .inl ⟨e, rfl⟩, fun _ => ⟨e, rfl⟩⟩
      | ok head =>
        rw [ok_bind, fails_bind_pure, or_iff_right (not_fails_ok head)]

theorem fails_value?_iff {t : Tree} : Fails (value? t) ↔ Oversized t := by
  unfold value? Oversized
  by_cases hliteral : isLiteral t = true
  · rw [if_pos hliteral, fails_bind_pure, fails_pieces_iff, and_iff_right hliteral]
  · rw [if_neg hliteral]
    exact ⟨fun h => absurd h (not_fails_ok _), fun h => absurd h.1 hliteral⟩

end Literal

/-! ## Markup -/

namespace Markup

/-- A string that gives an attribute its value, with or without braces. -/
def ReadsValue (value literal : Tree) : Prop :=
  literal.kind = .string ∧
    (literal = value ∨ value.kind = .jsxExpression ∧ value.meaningful.head? = some literal)

/-- An attribute without a namespace reads a string for its value. -/
def AttributeReads (t literal : Tree) : Prop :=
  t.kind = .jsxAttribute ∧ ∃ name value rest, t.meaningful = name :: value :: rest ∧
    name.kind ≠ .jsxNamespaceName ∧ ReadsValue value literal

/-- A tagged element reads a string for one of its attributes. -/
def Reads (t literal : Tree) : Prop :=
  IsTagged t ∧ ∃ opening child, openingTag? t = some opening ∧ child ∈ opening.namedChildren ∧
    AttributeReads child literal

theorem fails_expressionValue_iff {inner : List Tree} : Fails (expressionValue inner) ↔
    ∃ literal, inner.head? = some literal ∧ literal.kind = .string ∧ Literal.Oversized literal := by
  cases inner with
  | nil => simp [expressionValue]
  | cons expr rest =>
    unfold expressionValue
    dsimp only [List.head?_cons]
    simp only [Option.some.injEq, exists_eq_left']
    split <;> simp_all [Literal.fails_value?_iff]

theorem fails_attributeValue_iff {value : Option Tree} : Fails (attributeValue value) ↔
    ∃ v literal, value = some v ∧ ReadsValue v literal ∧ Literal.Oversized literal := by
  unfold ReadsValue
  cases value with
  | none => simp [attributeValue]
  | some v =>
    unfold attributeValue
    dsimp only
    split <;> rename_i hkind
    · rw [fails_bind_pure, Literal.fails_value?_iff]
      refine ⟨fun h => ⟨v, v, rfl, ⟨hkind, .inl rfl⟩, h⟩, ?_⟩
      rintro ⟨_, literal, ⟨⟩, ⟨-, rfl | ⟨hv, -⟩⟩, h⟩
      · exact h
      · rw [hkind] at hv
        cases hv
    · rw [fails_expressionValue_iff]
      constructor
      · rintro ⟨literal, hhead, hstring, h⟩
        exact ⟨v, literal, rfl, ⟨hstring, .inr ⟨hkind, hhead⟩⟩, h⟩
      · rintro ⟨_, literal, ⟨⟩, ⟨hstring, rfl | ⟨-, hhead⟩⟩, h⟩
        · rw [hkind] at hstring
          cases hstring
        · exact ⟨literal, hhead, hstring, h⟩
    · refine ⟨fun h => absurd h (not_fails_ok _), ?_⟩
      rintro ⟨_, literal, ⟨⟩, ⟨hstring, rfl | ⟨hv, -⟩⟩, -⟩
      · exact absurd hstring ‹_›
      · exact absurd hv hkind

/-- What is read for a test id is read for the value of the attribute as well. -/
theorem fails_attributeValue_of_literalText? {value : Option Tree} (h : Fails (literalText? value)) :
    Fails (attributeValue value) := by
  rw [fails_attributeValue_iff]
  cases value with
  | none => exact absurd h (not_fails_ok _)
  | some v =>
    unfold literalText? at h
    dsimp only at h
    split at h <;> rename_i hkind
    · exact ⟨v, v, rfl, ⟨hkind, .inl rfl⟩, Literal.fails_value?_iff.mp h⟩
    · split at h <;> rename_i hmeaningful
      · split at h <;> rename_i hstring
        · exact ⟨v, _, rfl, ⟨hstring, .inr ⟨hkind, by rw [hmeaningful]; rfl⟩⟩,
            Literal.fails_value?_iff.mp h⟩
        · exact absurd h (not_fails_ok _)
      · exact absurd h (not_fails_ok _)
    · exact absurd h (not_fails_ok _)

theorem fails_add_iff {a : Attributes} {name : String} {value : Option Tree} :
    Fails (a.add name value) ↔ Fails (attributeValue value) := by
  rw [Attributes.add, fails_bind_iff, or_iff_left_iff_imp]
  rintro ⟨property, hproperty, h⟩
  refine fails_attributeValue_of_literalText? ?_
  by_cases htest : name = "data-testid"
  · split at h <;> simpa [htest] using h
  · split at h <;> simp [htest] at h

theorem fails_addChild_iff {a : Attributes} {t : Tree} :
    Fails (a.addChild t) ↔ ∃ literal, AttributeReads t literal ∧ Literal.Oversized literal := by
  unfold Attributes.addChild AttributeReads
  by_cases hkind : t.kind = .jsxAttribute
  · cases hmeaningful : t.meaningful with
    | nil => simp
    | cons name rest =>
      by_cases hname : name.kind = .jsxNamespaceName
      · simp [hkind, hname]
      · cases rest with
        | nil => simp [hkind, hname, fails_add_iff, fails_attributeValue_iff]
        | cons value rest => simp [hkind, hname, fails_add_iff, fails_attributeValue_iff]
  · simp [hkind]

theorem fails_element?_iff {t : Tree} :
    Fails (element? t) ↔ ∃ literal, Reads t literal ∧ Literal.Oversized literal := by
  by_cases htagged : IsTagged t
  · rcases Option.isSome_iff_exists.mp htagged.2 with ⟨name, hname⟩
    rcases Option.bind_eq_some_iff.mp hname with ⟨opening, hopening, -⟩
    rw [element?, if_pos (isElement_iff.mpr htagged.1), hname]
    have hattributes : Fails (attributes opening) ↔ ∃ child ∈ opening.namedChildren, ∃ literal,
        AttributeReads child literal ∧ Literal.Oversized literal :=
      fails_foldlM_iff Attributes.addChild (fun _ _ => fails_addChild_iff) _
    dsimp only
    rw [fails_bind_pure, record, hopening, Option.getD_some, fails_bind_pure, hattributes]
    constructor
    · rintro ⟨child, hchild, literal, hreads, h⟩
      exact ⟨literal, ⟨htagged, opening, child, hopening, hchild, hreads⟩, h⟩
    · rintro ⟨literal, ⟨-, opening', child, hopening', hchild, hreads⟩, h⟩
      rw [hopening] at hopening'
      cases hopening'
      exact ⟨child, hchild, literal, hreads, h⟩
  · rw [element?_of_not_isTagged htagged]
    simp [Reads, htagged]

end Markup

/-! ## Network calls -/

namespace Effect

/-- A network call reads its first argument. -/
def Reads (t literal : Tree) : Prop :=
  (t.CallsBare "fetch" ∨ ∃ method, t.CallsMember "axios" method) ∧
    t.callArguments.head? = some literal

theorem fails_url_iff {t : Tree} : Fails (url t) ↔
    ∃ literal, t.callArguments.head? = some literal ∧ Literal.Oversized literal := by
  unfold url
  cases t.callArguments with
  | nil => simp
  | cons first rest => simp [Literal.fails_value?_iff]

theorem fails_networkCall?_iff {t : Tree} : Fails (networkCall? t) ↔
    ∃ literal, Reads t literal ∧ Literal.Oversized literal := by
  have hreads : (∃ literal, Reads t literal ∧ Literal.Oversized literal) ↔
      (t.CallsBare "fetch" ∨ ∃ method, t.CallsMember "axios" method) ∧ Fails (url t) := by
    simp only [Reads, fails_url_iff, and_assoc, exists_and_left]
  rw [hreads]
  by_cases hfetch : t.CallsBare "fetch"
  · rw [networkCall?_of_callsBare hfetch, fails_bind_pure]
    simp [hfetch]
  · by_cases haxios : ∃ method, t.CallsMember "axios" method
    · rcases haxios with ⟨method, hmethod⟩
      rw [networkCall?_of_callsMember hmethod, fails_bind_pure,
        and_iff_right (Or.inr ⟨method, hmethod⟩)]
    · rw [networkCall?_of_neither hfetch haxios]
      simp [hfetch, haxios]

end Effect

theorem Network.fails_visit_iff {n : Network} {p : Place} :
    Fails (n.visit p) ↔ Fails (Effect.networkCall? p.node) := by
  rw [visit, fails_bind_iff, or_iff_left]
  rintro ⟨_ | call, -, h⟩ <;> exact absurd h (not_fails_ok _)

/-! ## Props -/

namespace Props

/-- A pattern reads the key of an entry, at the end of a chain of defaults. -/
inductive PatternReads : Tree → Tree → Prop
  | target {pattern left literal : Tree} (kind : pattern.kind = .assignmentPattern)
      (target : pattern.child? .left = some left) (reads : PatternReads left literal) :
      PatternReads pattern literal
  | key {pattern entry literal : Tree} (kind : pattern.kind = .objectPattern)
      (mem : entry ∈ pattern.meaningful) (entryKind : entry.kind = .pairPattern)
      (key : entry.child? .key = some literal) (literalKind : literal.kind = .string) :
      PatternReads pattern literal

/-- A function reads a key in the pattern of its first parameter. -/
def Reads (fn literal : Tree) : Prop :=
  ∃ pattern, firstPattern? fn = some pattern ∧ PatternReads pattern literal

theorem fails_entryName?_iff {entry : Tree} : Fails (entryName? entry) ↔ entry.kind = .pairPattern ∧
    ∃ literal, entry.child? .key = some literal ∧ literal.kind = .string ∧
      Literal.Oversized literal := by
  unfold entryName?
  split <;> rename_i hkind
  · simp [hkind]
  · cases entry.child? .key with
    | none => simp
    | some key =>
      dsimp only
      split <;> simp_all [Literal.fails_value?_iff]
  · cases entry.child? .left with
    | none => simp [hkind]
    | some left =>
      dsimp only
      split <;> simp [hkind]
  · simp [hkind]
  · simp_all

theorem fails_ofPattern_of_reads {pattern literal : Tree} (h : PatternReads pattern literal)
    (oversized : Literal.Oversized literal) : Fails (ofPattern pattern) := by
  induction h with
  | target kind target _ ih =>
    rw [ofPattern_of_assignment kind, target]
    exact ih oversized
  | key kind mem entryKind key literalKind =>
    rw [ofPattern_of_object kind, fails_map, fails_mapM_iff]
    exact ⟨_, mem, fails_entryName?_iff.mpr ⟨entryKind, _, key, literalKind, oversized⟩⟩

mutual

theorem reads_of_fails_ofPattern : ∀ pattern : Tree, Fails (ofPattern pattern) →
    ∃ literal, PatternReads pattern literal ∧ Literal.Oversized literal
  | .node l cs, h => by
    by_cases hassignment : l.kind = .assignmentPattern
    · rw [ofPattern, hassignment] at h
      rcases reads_of_fails_ofLeft cs h with ⟨left, hleft, literal, hreads, oversized⟩
      exact ⟨literal, .target hassignment hleft hreads, oversized⟩
    · by_cases hobject : l.kind = .objectPattern
      · rw [ofPattern_of_object (t := .node l cs) hobject, fails_map, fails_mapM_iff] at h
        rcases h with ⟨entry, mem, h⟩
        rcases fails_entryName?_iff.mp h with ⟨entryKind, literal, key, literalKind, oversized⟩
        exact ⟨literal, .key hobject mem entryKind key literalKind, oversized⟩
      · rw [ofPattern_of_other (t := .node l cs) hassignment hobject] at h
        exact absurd h (not_fails_ok _)

theorem reads_of_fails_ofLeft : ∀ cs : List Tree, Fails (ofLeft cs) →
    ∃ left, (cs.find? fun c => c.label.field == some .left) = some left ∧
      ∃ literal, PatternReads left literal ∧ Literal.Oversized literal
  | [], h => absurd h (not_fails_ok _)
  | c :: cs, h => by
    rw [ofLeft] at h
    rw [List.find?_cons]
    cases hfield : c.label.field == some .left with
    | true =>
      rw [hfield] at h
      exact ⟨c, rfl, reads_of_fails_ofPattern c h⟩
    | false =>
      rw [hfield] at h
      exact reads_of_fails_ofLeft cs h

end

theorem fails_ofPattern_iff {pattern : Tree} : Fails (ofPattern pattern) ↔
    ∃ literal, PatternReads pattern literal ∧ Literal.Oversized literal :=
  ⟨reads_of_fails_ofPattern pattern, fun ⟨_, h, oversized⟩ => fails_ofPattern_of_reads h oversized⟩

theorem fails_ofFunction_iff {fn : Tree} : Fails (ofFunction fn) ↔
    ∃ literal, Reads fn literal ∧ Literal.Oversized literal := by
  unfold ofFunction Reads
  cases firstPattern? fn with
  | none => simp
  | some pattern => simp [fails_ofPattern_iff]

end Props

/-! ## The walk and the report -/

/-- A visit fails at an element whose record cannot be made, and at an effect with a network call
that cannot. -/
theorem Facts.fails_visit_iff {facts : Facts} {p : Place} : Fails (facts.visit p) ↔
    Fails (Markup.element? p.node) ∨
      ∃ q ∈ (effectsIn [p]).flatMap Effect.callbackNodes, Fails (Effect.networkCall? q.node) := by
  rw [visit_eq_visitAny, visitAny, fails_bind_iff]
  have hnetwork : ∀ n : Network,
      Fails (((effectsIn [p]).flatMap Effect.callbackNodes).foldlM Network.visit n) ↔
        ∃ q ∈ (effectsIn [p]).flatMap Effect.callbackNodes, Fails (Effect.networkCall? q.node) :=
    fails_foldlM_iff Network.visit fun _ _ => Network.fails_visit_iff
  simp only [fails_bind_pure, hnetwork]
  cases Markup.element? p.node with
  | ok element => simp
  | error e => exact ⟨fun h => .inl (h.elim id fun ⟨_, ha, _⟩ => nomatch ha), fun _ => .inl ⟨e, rfl⟩⟩

namespace Analysis

/-- The analysis of a file reads a literal: for an attribute of an element in the scope, for the
address of a network call in the callback of an effect, or for the name of a prop. -/
inductive Reads (tree literal : Tree) : Prop
  | value {p : Place} (inScope : InScope tree p) (reads : Markup.Reads p.node literal)
  | address {p : Place} (inCallback : InCallback tree p) (reads : Effect.Reads p.node literal)
  | key {fn : Place} (first : (Location.ofRoot ⟨tree, []⟩).roots.head? = some fn)
      (reads : Props.Reads fn.node literal)

theorem fails_props_iff {location : Location} : Fails (props location) ↔
    ∃ fn literal, location.roots.head? = some fn ∧ Props.Reads fn.node literal ∧
      Literal.Oversized literal := by
  unfold props
  cases location.roots with
  | nil => simp
  | cons fn fns => simp [Props.fails_ofFunction_iff]

/-- A walk over the scope fails where a visit does, at an element or at a network call. -/
theorem fails_walkAll_iff {tree : Tree} :
    Fails (Place.walkAll Facts.visit {} ((Location.ofRoot ⟨tree, []⟩).starts ⟨tree, []⟩)) ↔
      (∃ p, InScope tree p ∧ Fails (Markup.element? p.node)) ∨
        ∃ p, InCallback tree p ∧ Fails (Effect.networkCall? p.node) := by
  rw [Place.walkAll_eq_foldlM, fails_foldlM_iff Facts.visit fun _ _ => Facts.fails_visit_iff]
  change (∃ p ∈ scopeNodes tree, _) ↔ _
  simp only [mem_scopeNodes_iff, ← mem_effectNodes_iff, Facts.effectsIn, List.mem_flatMap,
    List.mem_filter, List.mem_singleton]
  constructor
  · rintro ⟨p, hp, h | ⟨q, ⟨_, ⟨rfl, heffect⟩, hq⟩, h⟩⟩
    · exact .inl ⟨p, hp, h⟩
    · exact .inr ⟨q, ⟨_, ⟨hp, heffect⟩, hq⟩, h⟩
  · rintro (⟨p, hp, h⟩ | ⟨q, ⟨p, ⟨hp, heffect⟩, hq⟩, h⟩)
    · exact ⟨p, hp, .inl h⟩
    · exact ⟨p, hp, .inr ⟨q, ⟨p, ⟨rfl, heffect⟩, hq⟩, h⟩⟩

/-- The component of a file comes to nothing just when a literal that is read is oversized. -/
theorem fails_component_iff {tree : Tree} :
    Fails (component (Location.ofRoot ⟨tree, []⟩) ((Location.ofRoot ⟨tree, []⟩).starts ⟨tree, []⟩)) ↔
      ∃ literal, Reads tree literal ∧ Literal.Oversized literal := by
  have hcomponent : Fails (component (Location.ofRoot ⟨tree, []⟩)
      ((Location.ofRoot ⟨tree, []⟩).starts ⟨tree, []⟩)) ↔
      Fails (Place.walkAll Facts.visit {} ((Location.ofRoot ⟨tree, []⟩).starts ⟨tree, []⟩)) ∨
        Fails (props (Location.ofRoot ⟨tree, []⟩)) := by
    rw [component, fails_bind_iff]
    simp only [fails_bind_pure]
    cases Place.walkAll Facts.visit {} ((Location.ofRoot ⟨tree, []⟩).starts ⟨tree, []⟩) with
    | ok facts => simp
    | error e => exact ⟨fun _ => .inl ⟨e, rfl⟩, fun _ => .inl ⟨e, rfl⟩⟩
  rw [hcomponent, fails_walkAll_iff, fails_props_iff]
  simp only [Markup.fails_element?_iff, Effect.fails_networkCall?_iff]
  constructor
  · rintro ((⟨p, hp, literal, reads, h⟩ | ⟨p, hp, literal, reads, h⟩) | ⟨fn, literal, hfn, reads, h⟩)
    · exact ⟨literal, .value hp reads, h⟩
    · exact ⟨literal, .address hp reads, h⟩
    · exact ⟨literal, .key hfn reads, h⟩
  · rintro ⟨literal, ⟨inScope, reads⟩ | ⟨inCallback, reads⟩ | ⟨first, reads⟩, h⟩
    · exact .inl (.inl ⟨_, inScope, literal, reads, h⟩)
    · exact .inl (.inr ⟨_, inCallback, literal, reads, h⟩)
    · exact .inr ⟨_, literal, first, reads, h⟩

theorem outcome_ofTree_iff (path : String) (tree : Tree) :
    ((∃ c, (Report.ofTree path tree).outcome = .ok c) ∨
      ∃ r, (Report.ofTree path tree).outcome = .error (.rejected r)) ↔
    ¬ (tree.hasFault = false ∧ ∃ literal, Reads tree literal ∧ Literal.Oversized literal) := by
  rw [← fails_component_iff]
  cases hfault : tree.hasFault with
  | true =>
    rw [Report.ofTree, Tree.faultPosition?, hfault]
    exact ⟨fun _ h => absurd h.1.symm Bool.false_ne_true, fun _ => .inr ⟨_, rfl⟩⟩
  | false =>
    rw [Report.ofTree_of_sound path hfault]
    cases component (Location.ofRoot ⟨tree, []⟩) ((Location.ofRoot ⟨tree, []⟩).starts ⟨tree, []⟩) with
    | ok c => exact ⟨fun _ h => absurd h.2 (not_fails_ok c), fun _ => .inl ⟨c, rfl⟩⟩
    | error e =>
      refine ⟨?_, fun h => absurd ⟨rfl, e, rfl⟩ h⟩
      rintro (⟨c, hc⟩ | ⟨r, hr⟩)
      · cases hc
      · cases hr

/-- The bytes of a file come to a component or a rejection unless the analysis of their tree reads a
literal with an oversized escape. -/
theorem analysed_or_rejected_iff (path : String) (bytes : List UInt8) :
    ((∃ c, (Report.ofBytes path bytes).outcome = .ok c) ∨
      ∃ r, (Report.ofBytes path bytes).outcome = .error (.rejected r)) ↔
    ¬ ∃ tree, tree = Grammar.treeOf (Grammar.Dialect.ofPath path) (.ofGlyphs (Glyph.ofBytes bytes)) ∧
      tree.hasFault = false ∧ ∃ literal, Reads tree literal ∧ Literal.Oversized literal := by
  rw [exists_eq_left]
  exact outcome_ofTree_iff path _

/-- A file in which an attribute holds an escape with the number two to the power of thirty-one. -/
def oversizedSource : List UInt8 := String.toUTF8
  "export default function A()\x7breturn <p title=\x7b\"\\u\x7b80000000\x7d\"\x7d/>\x7d" |>.toList

/-- Such a file is neither analysed nor rejected. -/
theorem oversizedSource_neither :
    ¬ ((∃ c, (Report.ofBytes "A.tsx" oversizedSource).outcome = .ok c) ∨
      ∃ r, (Report.ofBytes "A.tsx" oversizedSource).outcome = .error (.rejected r)) := by
  have houtcome : (Report.ofBytes "A.tsx" oversizedSource).outcome =
      .error (.literal .escapeTooLarge) := by decide +kernel
  rw [houtcome]
  rintro (⟨c, ⟨⟩⟩ | ⟨r, ⟨⟩⟩)

end Analysis

end SuiteDraft
