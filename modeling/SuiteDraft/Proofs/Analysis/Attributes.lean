import SuiteDraft.Grammar.Program
import SuiteDraft.Proofs.Analysis.Facts

/-!
# The attributes of an element

An attribute may be given several times in one tag. Its property is that of the last time, its
handler that of the last time at which it was bound to a name, and the test id that of the last time
at which it was literal. The three tell the same as long as an event that was bound, or a test id that
was literal, is so the last time too.
-/

namespace SuiteDraft

namespace Markup

/-! ## Attributes as they are given -/

/-- An attribute as it is given in a tag: its name, and the node of its value if it has one. -/
structure Given where
  name : String
  value : Option Tree

namespace Given

/-- The property that an attribute has. -/
def property? (g : Given) : Option PropertyValue := (attributeValue g.value).toOption

/-- The handler to which an event is bound; the name of an event begins with `on`. -/
def handler? (g : Given) : Option String :=
  if g.name.startsWith "on" then boundName? g.value else none

/-- The text of an attribute that is literal. -/
def literal? (g : Given) : Option String := (literalText? g.value).toOption.join

end Given

/-- What a child of an opening tag gives: spreads and names in a namespace give nothing. -/
def given? (child : Tree) : Option Given :=
  if child.kind = .jsxAttribute then
    match child.meaningful with
    | name :: rest => if name.kind = .jsxNamespaceName then none else some ⟨name.text, rest.head?⟩
    | [] => none
  else none

/-- The attributes of an opening tag, as they are given one after the other. -/
def givenIn (opening : Tree) : List Given := opening.namedChildren.filterMap given?

theorem addChild_eq (a : Attributes) (child : Tree) :
    a.addChild child = match given? child with
      | some g => a.add g.name g.value
      | none => .ok a := by
  unfold Attributes.addChild given?
  split
  · cases child.meaningful with
    | nil => rfl
    | cons name rest =>
      dsimp only
      split <;> rfl
  · rfl

/-- Adds attributes to others, one after the other. -/
def Attributes.addAll (a : Attributes) (given : List Given) : Except LiteralError Attributes :=
  given.foldlM (fun a g => a.add g.name g.value) a

theorem attributes_eq_addAll (opening : Tree) :
    attributes opening = Attributes.addAll {} (givenIn opening) := by
  rw [attributes, givenIn, Attributes.addAll, List.foldlM_filterMap]
  refine congrArg (fun f => List.foldlM f ({} : Attributes) opening.namedChildren) ?_
  funext a child
  rw [addChild_eq]
  cases given? child <;> rfl

/-- What `f` tells of the attribute `name`, as it is given the last time that `f` tells something. -/
def lastUnder {β : Type} (name : String) (f : Given → Option β) (given : List Given) : Option β :=
  given.reverse.findSome? fun g => if g.name = name then f g else none

section

variable {β : Type} {name : String} {f : Given → Option β} {given : List Given} {b : β}

theorem lastUnder_concat (g : Given) : lastUnder name f (given ++ [g]) =
    if g.name = name then (f g).or (lastUnder name f given) else lastUnder name f given := by
  rw [lastUnder, lastUnder, List.reverse_concat, List.findSome?_cons]
  by_cases h : g.name = name
  · rw [if_pos h, if_pos h]
    cases f g <;> rfl
  · rw [if_neg h, if_neg h]

theorem lastUnder_eq_some_iff : lastUnder name f given = some b ↔
    ∃ before g after, given = before ++ g :: after ∧ (g.name = name ∧ f g = some b) ∧
      ∀ g' ∈ after, g'.name = name → f g' = none := by
  have htells : ∀ g b, (if g.name = name then f g else none) = some b ↔
      g.name = name ∧ f g = some b := by
    intro g b
    split <;> simp [*]
  have hsilent : ∀ g, (if g.name = name then f g else none) = none ↔
      (g.name = name → f g = none) := by
    intro g
    split <;> simp [*]
  rw [lastUnder, List.findSome?_eq_some_iff]
  simp only [htells, hsilent]
  constructor
  · rintro ⟨after, g, before, heq, hg, hafter⟩
    have hafter' : ∀ g' ∈ after.reverse, g'.name = name → f g' = none := fun g' hg' =>
      hafter g' (List.mem_reverse.mp hg')
    refine ⟨before.reverse, g, after.reverse, ?_, hg, hafter'⟩
    rw [← List.reverse_reverse given, heq]
    simp
  · rintro ⟨before, g, after, rfl, hg, hafter⟩
    have hafter' : ∀ g' ∈ after.reverse, g'.name = name → f g' = none := fun g' hg' =>
      hafter g' (List.mem_reverse.mp hg')
    refine ⟨after.reverse, g, before.reverse, ?_, hg, hafter'⟩
    simp

end

/-! ## What they come to -/

/-- The three maps of a tag, by the attributes that it is given. -/
structure Describes (given : List Given) (a : Attributes) : Prop where
  property : ∀ name, a.properties.get? name = lastUnder name Given.property? given
  event : ∀ name, a.events.get? name = lastUnder name Given.handler? given
  stableId : a.stableId = lastUnder "data-testid" Given.literal? given

theorem describes_nil : Describes [] {} := ⟨fun _ => rfl, fun _ => rfl, rfl⟩

/-- Adding an attribute puts its property under its name, and its handler and its test id where it
has one. -/
theorem add_eq_ok {a a' : Attributes} {g : Given} (h : a.add g.name g.value = .ok a') :
    (∃ value, g.property? = some value ∧ a'.properties = a.properties.put g.name value) ∧
    (∀ name, a'.events.get? name =
      if g.name = name then g.handler?.or (a.events.get? name) else a.events.get? name) ∧
    a'.stableId = if g.name = "data-testid" then g.literal?.or a.stableId else a.stableId := by
  have hparts : ∃ value literal, attributeValue g.value = .ok value ∧
      (if g.name = "data-testid" then literalText? g.value else .ok none) = .ok literal ∧
      a' = ⟨a.properties.put g.name value, g.handler?.elim a.events (a.events.put g.name),
        literal.or a.stableId⟩ := by
    unfold Given.handler?
    obtain ⟨value, hvalue, h⟩ := bind_eq_ok_iff.mp h
    generalize boundName? g.value = bound at h ⊢
    by_cases hname : g.name = "data-testid"
    · simp only [hname, if_true] at h ⊢
      obtain ⟨literal, hliteral, h⟩ := bind_eq_ok_iff.mp h
      cases h
      refine ⟨value, literal, hvalue, hliteral, ?_⟩
      cases bound with
      | none => rw [ite_self]; rfl
      | some handler => dsimp only; split <;> rfl
    · simp only [hname, if_false] at h ⊢
      cases h
      refine ⟨value, none, hvalue, rfl, ?_⟩
      cases bound with
      | none => rw [ite_self]; rfl
      | some handler => dsimp only; split <;> rfl
  obtain ⟨value, literal, hvalue, hliteral, rfl⟩ := hparts
  refine ⟨⟨value, by rw [Given.property?, hvalue]; rfl, rfl⟩, fun name => ?_, ?_⟩
  · cases g.handler? with
    | none => rw [Option.none_or, ite_self]; rfl
    | some handler => exact Keyed.get?_put _ _ _ _
  · dsimp only
    split at hliteral
    · rename_i hname
      rw [if_pos hname, Given.literal?, hliteral]
      rfl
    · rename_i hname
      cases hliteral
      rw [if_neg hname, Option.none_or]

/-- One more attribute changes what is described as it changes the maps. -/
theorem Describes.concat {given : List Given} {a a' : Attributes} {g : Given}
    (h : Describes given a) (hadd : a.add g.name g.value = .ok a') :
    Describes (given ++ [g]) a' := by
  obtain ⟨⟨value, hvalue, hproperties⟩, hevents, hid⟩ := add_eq_ok hadd
  refine ⟨fun name => ?_, fun name => ?_, ?_⟩
  · rw [hproperties, Keyed.get?_put, lastUnder_concat, hvalue, Option.some_or, h.property]
  · rw [hevents, lastUnder_concat, h.event]
  · rw [hid, lastUnder_concat, h.stableId]

theorem describes_of_addAll {given : List Given} {a : Attributes}
    (h : Attributes.addAll {} given = .ok a) : Describes given a := by
  induction given using List.reverseRecOn generalizing a with
  | nil =>
    cases h
    exact describes_nil
  | append_singleton given g ih =>
    rw [Attributes.addAll, List.foldlM_append] at h
    obtain ⟨before, hbefore, h⟩ := bind_eq_ok_iff.mp h
    rw [List.foldlM_cons] at h
    obtain ⟨after, hafter, h⟩ := bind_eq_ok_iff.mp h
    cases h
    exact (ih hbefore).concat hafter

/-! ## Where they agree -/

/-- The three maps of an element tell the same: a handler is the name to which the property of its
event is bound, and the test id is the text of its property. -/
structure Agree (e : Element) : Prop where
  event : ∀ name handler, e.events.get? name = some handler →
    name.startsWith "on" = true ∧ e.properties.get? name = some (.text ("expr:" ++ handler))
  stableId : ∀ text, e.stableId = some text → e.properties.get? "data-testid" = some (.text text)

/-- An attribute as it is given the last time. -/
def lastOf (name : String) (given : List Given) : Option Given := lastUnder name some given

/-- What an attribute was once it still is the last time that it is given: an event is bound to a
name, a test id is literal. -/
def Steady (given : List Given) : Prop := ∀ g ∈ given, ∀ last ∈ lastOf g.name given,
  (g.handler?.isSome = true → last.handler?.isSome = true) ∧
    (g.name = "data-testid" → g.literal?.isSome = true → last.literal?.isSome = true)

theorem attributeValue_of_boundName? {node : Option Tree} {name : String}
    (h : boundName? node = some name) : attributeValue node = .ok (.text ("expr:" ++ name)) := by
  unfold boundName? at h
  split at h
  · split at h
    · rename_i v hkind
      split at h
      · rename_i expr rest hinner
        split at h
        · rename_i hexpr
          cases h
          simp only [attributeValue, hkind, hinner, expressionValue, hexpr]
        · cases h
      · cases h
    · cases h
  · cases h

theorem attributeValue_of_literalText? {node : Option Tree} {text : String}
    (h : literalText? node = .ok (some text)) : attributeValue node = .ok (.text text) := by
  unfold literalText? at h
  split at h
  · rename_i v
    split at h
    · rename_i hkind
      simp only [attributeValue, hkind, h]
      rfl
    · rename_i hkind
      split at h
      · rename_i expr hinner
        split at h
        · rename_i hexpr
          simp only [attributeValue, hkind, hinner, expressionValue, hexpr, h]
          rfl
        · cases h
      · cases h
    · cases h
  · cases h

theorem exists_lastOf {name : String} {given : List Given} {g : Given} (hg : g ∈ given)
    (hname : g.name = name) : ∃ last, lastOf name given = some last := by
  cases hlast : lastOf name given with
  | some last => exact ⟨last, rfl⟩
  | none =>
    have hsilent := List.findSome?_eq_none_iff.mp hlast g (List.mem_reverse.mpr hg)
    rw [if_pos hname] at hsilent
    cases hsilent

/-- What is told of an attribute the last time that it tells something is told of how it is given
last, when that tells something too. -/
theorem lastUnder_of_last {β γ : Type} {name : String} {f : Given → Option β}
    {f' : Given → Option γ} {given : List Given} {b : β} {c : γ}
    (h : lastUnder name f given = some b)
    (lastTells : ∀ g ∈ given, g.name = name → (f g).isSome = true →
      ∀ last ∈ lastOf name given, (f last).isSome = true)
    (tells : ∀ g, g.name = name → f g = some b → f' g = some c) :
    lastUnder name f' given = some c := by
  obtain ⟨before, g, after, heq, ⟨hname, hg⟩, -⟩ := lastUnder_eq_some_iff.mp h
  have hmem : g ∈ given := by
    rw [heq]
    exact List.mem_append_right _ List.mem_cons_self
  obtain ⟨last, hlast⟩ := exists_lastOf hmem hname
  obtain ⟨b', hb'⟩ := Option.isSome_iff_exists.mp
    (lastTells g hmem hname (by rw [hg]; rfl) last hlast)
  obtain ⟨before', l, after', heq', ⟨hlname, hl⟩, hafter'⟩ := lastUnder_eq_some_iff.mp hlast
  cases hl
  -- nothing after the last one has the name, whatever is asked of it
  have hother : ∀ g' ∈ after', g'.name ≠ name := by
    intro g' hg' hname'
    cases hafter' g' hg' hname'
  have hfound : lastUnder name f given = some b' := lastUnder_eq_some_iff.mpr
    ⟨before', last, after', heq', ⟨hlname, hb'⟩, fun g' hg' hname' => absurd hname' (hother g' hg')⟩
  rw [h] at hfound
  cases hfound
  exact lastUnder_eq_some_iff.mpr ⟨before', last, after', heq', ⟨hlname, tells last hlname hb'⟩,
    fun g' hg' hname' => absurd hname' (hother g' hg')⟩

theorem Describes.agree {given : List Given} {e : Element}
    (h : Describes given ⟨e.properties, e.events, e.stableId⟩) (steady : Steady given) : Agree e where
  event name handler hevent := by
    have hlast : lastUnder name Given.handler? given = some handler := (h.event name).symm.trans hevent
    obtain ⟨before, g, after, -, ⟨hname, hg⟩, -⟩ := lastUnder_eq_some_iff.mp hlast
    refine ⟨?_, (h.property name).trans ?_⟩
    · rw [Given.handler?, hname] at hg
      split at hg
      · assumption
      · cases hg
    · have hagain : ∀ g ∈ given, g.name = name → g.handler?.isSome = true →
          ∀ last ∈ lastOf name given, last.handler?.isSome = true := by
        intro g hg hname htold last hlast
        exact (steady g hg last (hname ▸ hlast)).1 htold
      apply lastUnder_of_last hlast hagain
      intro g _ hg
      unfold Given.handler? at hg
      split at hg
      · rw [Given.property?, attributeValue_of_boundName? hg]
        rfl
      · cases hg
  stableId text hid := by
    have hlast : lastUnder "data-testid" Given.literal? given = some text := h.stableId.symm.trans hid
    refine (h.property _).trans ?_
    have hagain : ∀ g ∈ given, g.name = "data-testid" → g.literal?.isSome = true →
        ∀ last ∈ lastOf "data-testid" given, last.literal?.isSome = true := by
      intro g hg hname htold last hlast
      exact (steady g hg last (hname ▸ hlast)).2 hname htold
    apply lastUnder_of_last hlast hagain
    intro g _ hg
    have hliteral : literalText? g.value = .ok (some text) := by
      exact eq_ok_of_toOption (Option.join_eq_some_iff.mp hg)
    rw [Given.property?, attributeValue_of_literalText? hliteral]
    rfl

/-- The maps of an element are those of the attributes that its opening tag is given, each entry by
the last time at which there was one; they agree when an attribute still is what it was the last time
that it is given. -/
theorem maps_of_attributes {t : Tree} {e : Element} (recorded : element? t = .ok (some e)) :
    ∃ opening, openingTag? t = some opening ∧
      Describes (givenIn opening) ⟨e.properties, e.events, e.stableId⟩ ∧
      (Steady (givenIn opening) → Agree e) := by
  unfold element? at recorded
  split at recorded
  · split at recorded
    · rename_i name hname
      obtain ⟨opening, hopening, -⟩ := Option.bind_eq_some_iff.mp hname
      obtain ⟨e', he', hsome⟩ := bind_eq_ok_iff.mp recorded
      cases hsome
      obtain ⟨a, ha, he'⟩ := bind_eq_ok_iff.mp he'
      cases he'
      rw [hopening, Option.getD_some, attributes_eq_addAll] at ha
      have hdescribes : Describes (givenIn opening) a := describes_of_addAll ha
      exact ⟨opening, hopening, hdescribes, fun steady => hdescribes.agree steady⟩
    · cases recorded
  · cases recorded

/-- The element that a source is. -/
def elementOf (source : String) : Tree :=
  ((Grammar.parse .markup 20 .markup (.ofGlyphs (Glyph.ofText source))).map (·.1)).getD default

/-- A tag in which an event is a text between the two times that it is bound. -/
def repeatedTag : Tree := elementOf "<p onClick=\x7bf\x7d \x7b...r\x7d onClick='x' onClick=\x7bg\x7d/>"

theorem steady_repeatedTag : Steady (givenIn repeatedTag) := by
  have htold : (givenIn repeatedTag).map (fun g => (g.name, g.handler?)) =
      [("onClick", some "f"), ("onClick", none), ("onClick", some "g")] := by decide +kernel
  obtain ⟨first, rest, hgiven, hfirst, hrest⟩ := List.map_eq_cons_iff.mp htold
  obtain ⟨second, rest, rfl, hsecond, hrest⟩ := List.map_eq_cons_iff.mp hrest
  obtain ⟨third, rest, rfl, hthird, hrest⟩ := List.map_eq_cons_iff.mp hrest
  obtain rfl := List.map_eq_nil_iff.mp hrest
  obtain ⟨hname, hhandler⟩ := Prod.mk.inj hthird
  have hlast : lastOf "onClick" [first, second, third] = some third := by
    simp [lastOf, lastUnder, hname]
  rw [hgiven]
  intro g hg last htold
  have hclick : g.name = "onClick" := by
    simp only [List.mem_cons, List.not_mem_nil, or_false] at hg
    obtain rfl | rfl | rfl := hg
    · exact (Prod.mk.inj hfirst).1
    · exact (Prod.mk.inj hsecond).1
    · exact hname
  rw [hclick, hlast] at htold
  cases htold
  refine ⟨fun _ => by rw [hhandler]; rfl, fun h => ?_⟩
  rw [hclick] at h
  exact absurd h (by decide)

theorem maps_of_repeatedTag : Steady (givenIn repeatedTag) ∧
    ∃ e, element? repeatedTag = .ok (some e) ∧ e.events = [("onClick", "g")] ∧ Agree e := by
  have hopening : openingTag? repeatedTag = some repeatedTag := if_neg (by decide +kernel)
  have hmaps : (element? repeatedTag).toOption.join.map (·.events) = some [("onClick", "g")] := by
    decide +kernel
  obtain ⟨e, he, hevents⟩ := exists_of_join_map hmaps
  obtain ⟨opening, hsome, -, hagree⟩ := maps_of_attributes he
  obtain rfl : repeatedTag = opening := Option.some.inj (hopening.symm.trans hsome)
  exact ⟨steady_repeatedTag, e, he, hevents, hagree steady_repeatedTag⟩

/-- A tag in which an event is bound to a name first and is a text later. -/
def reboundTag : Tree := elementOf "<p onClick=\x7bf\x7d onClick='x'/>"

/-- The handler of the first time stays beside the property of the last. -/
theorem maps_of_reboundTag : ∃ e, element? reboundTag = .ok (some e) ∧ ¬ Agree e := by
  have hmaps : (element? reboundTag).toOption.join.map
      (fun e => (e.events.get? "onClick", e.properties.get? "onClick")) =
        some (some "f", some (.text "x")) := by decide +kernel
  obtain ⟨e, he, hrecorded⟩ := exists_of_join_map hmaps
  obtain ⟨hevent, hproperty⟩ := Prod.mk.inj hrecorded
  refine ⟨e, he, fun hagree => ?_⟩
  have hbound := (hagree.event "onClick" "f" hevent).2
  rw [hproperty] at hbound
  exact absurd hbound (by decide)

end Markup

end SuiteDraft
