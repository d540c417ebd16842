import SuiteDraft.Proofs.Analysis.Definitions
import SuiteDraft.Proofs.Analysis.Tally
import SuiteDraft.Proofs.Keyed

/-!
# The dependencies of effects

A component has effects just when there is an effect in its scope. Their dependencies are the plain
names in the arrays that are the second arguments of these effects, one effect after the other in the
order of the document, each name where it is first met and nowhere else.
-/

namespace SuiteDraft

namespace Effect

/-- A call depends on a plain name in the array that is its second argument. -/
def DependsOn (effect p : Place) : Prop :=
  ∃ array, effect.callArguments[1]? = some array ∧ array.kind = .array ∧
    p ∈ array.namedChildren ∧ p.kind = .identifier

/-- The names on which a call depends, where they stand. -/
def dependencyPlaces (effect : Place) : List Place :=
  match effect.callArguments[1]? with
  | some array =>
    if array.kind = .array then array.namedChildren.filter (·.kind == .identifier) else []
  | none => []

theorem mem_dependencyPlaces_iff {effect p : Place} :
    p ∈ dependencyPlaces effect ↔ DependsOn effect p := by
  unfold dependencyPlaces DependsOn
  cases effect.callArguments[1]? with
  | none => simp
  | some array =>
    by_cases isArray : array.kind = .array <;> simp [isArray, List.mem_filter]

theorem dependencyPlaces_pairwise (effect : Place) :
    (dependencyPlaces effect).Pairwise Place.Precedes := by
  unfold dependencyPlaces
  split
  · rename_i array _
    split
    · exact (array.namedChildren_pairwise.imp .of_turnsOffBefore).filter _
    · exact List.Pairwise.nil
  · exact List.Pairwise.nil

/-- A plain name is never a comment, so that the elements of an array that count are those of its named
children. -/
theorem identifiers_eq (array : Place) :
    (array.namedChildren.filter (·.kind == .identifier)).map (·.text) =
      (array.node.meaningful.filter (·.kind == .identifier)).map (·.text) := by
  have same (t : Tree) : (t.kind == .identifier && t.named) =
      (t.kind == .identifier && t.isMeaningful) := by
    by_cases plain : t.kind = .identifier
    · simp [Tree.isMeaningful, plain]
    · rw [beq_false_of_ne plain, Bool.false_and, Bool.false_and]
  rw [Place.namedChildren, List.filter_filter, Tree.meaningful, List.filter_filter,
    ← Place.node_children, List.filter_map, List.map_map]
  exact congrArg (List.map Place.text) (List.filter_congr fun p _ => same p.node)

theorem text_dependencyPlaces (effect : Place) :
    (dependencyPlaces effect).map (·.text) = dependencies effect.node := by
  unfold dependencyPlaces dependencies
  rw [← Place.node_callArguments]
  rcases effect.callArguments with _ | ⟨first, _ | ⟨second, rest⟩⟩
  · rfl
  · rfl
  · show (if second.kind = .array then _ else []).map _ = if second.kind = .array then _ else []
    by_cases isArray : second.kind = .array
    · rw [if_pos isArray, if_pos isArray]
      exact identifiers_eq second
    · rw [if_neg isArray, if_neg isArray]
      rfl

/-- Names that are added one by one, unless they are known, are the names without repetitions. -/
theorem foldl_addName (names : List String) : names.foldl addName [] = names.eraseDups := by
  induction names using List.reverseRecOn with
  | nil => rfl
  | append_singleton names name ih =>
    rw [List.foldl_append, ih, eraseDups_concat]
    rfl

end Effect

namespace Analysis

variable {path : String} {tree : Tree} {c : Component}

theorem hasEffects_iff (analysed : (Report.ofTree path tree).outcome = .ok c) :
    c.hasEffects = true ↔ ∃ e, HasEffect tree e := by
  obtain ⟨facts, props, collected, rfl⟩ := report_collected analysed
  show facts.hasEffects = true ↔ _
  rw [collected.hasEffects, Bool.false_or, List.any_eq_true]
  refine exists_congr fun e => ?_
  rw [mem_scopeNodes_iff, Effect.isEffect, Tree.isCallOf_iff]
  rfl

theorem effectDependencies_eq (analysed : (Report.ofTree path tree).outcome = .ok c) :
    c.effectDependencies =
      (((effectsOf tree).flatMap Effect.dependencyPlaces).map (·.text)).eraseDups := by
  obtain ⟨facts, props, collected, rfl⟩ := report_collected analysed
  show facts.effectDependencies = _
  rw [collected.effectDependencies, ← Effect.foldl_addName, List.map_flatMap]
  simp only [Effect.text_dependencyPlaces]
  rfl

/-- A component has effects just when there is an effect in its scope. Its dependencies are the names on
which these effects depend, one effect after the other and each with its names in the order of the
document, without repetitions: each name once, in the order in which they are first met, and no other
name. -/
theorem dependencies_of_effects (analysed : (Report.ofTree path tree).outcome = .ok c) :
    (c.hasEffects = true ↔ ∃ e, HasEffect tree e) ∧
      ∃ (effects : List Place) (elements : Place → List Place) (names : List String),
        (effects.Pairwise Place.Precedes ∧ ∀ e, e ∈ effects ↔ HasEffect tree e) ∧
        (∀ e, (elements e).Pairwise Place.Precedes ∧ ∀ p, p ∈ elements e ↔ Effect.DependsOn e p) ∧
        names = (effects.flatMap elements).map (·.text) ∧
        c.effectDependencies = names.eraseDups ∧
        c.effectDependencies.Nodup ∧
        (c.effectDependencies.Pairwise fun a b => names.idxOf a < names.idxOf b) ∧
        ∀ name, name ∈ c.effectDependencies ↔
          ∃ e p, HasEffect tree e ∧ Effect.DependsOn e p ∧ p.text = name := by
  have dependencies := effectDependencies_eq analysed
  refine ⟨hasEffects_iff analysed, effectsOf tree, Effect.dependencyPlaces, _,
    ⟨effectsOf_pairwise tree, fun e => mem_effectsOf_iff⟩,
    fun e => ⟨Effect.dependencyPlaces_pairwise e, fun p => Effect.mem_dependencyPlaces_iff⟩,
    rfl, dependencies, ?_, ?_, fun name => ?_⟩
  · rw [dependencies]
    exact nodup_eraseDups _
  · rw [dependencies]
    exact pairwise_idxOf_eraseDups _
  · rw [dependencies, List.mem_eraseDups]
    simp only [List.mem_map, List.mem_flatMap, mem_effectsOf_iff, Effect.mem_dependencyPlaces_iff]
    constructor
    · rintro ⟨p, ⟨e, isEffect, dependsOn⟩, text_eq⟩
      exact ⟨e, p, isEffect, dependsOn, text_eq⟩
    · rintro ⟨e, p, isEffect, dependsOn, text_eq⟩
      exact ⟨p, ⟨e, isEffect, dependsOn⟩, text_eq⟩

/-- A file with an effect that depends on a name twice and on what is no plain name, and with one effect
in another. -/
def dependentSource : Tree := Grammar.treeOf .markup <| .ofGlyphs <| Glyph.ofText
  "useEffect(f,[b,/**/...a,c.d,b]);React.useEffect(()=>\x7buseEffect(g,[e])\x7d,[a,b])"

theorem dependencies_of_dependentSource :
    ∃ c, (Report.ofTree "A.tsx" dependentSource).outcome = .ok c ∧
      c.effectDependencies = ["b", "a", "e"] ∧ (∃ e, HasEffect dependentSource e) ∧
      ∃ e p, HasEffect dependentSource e ∧ Effect.DependsOn e p ∧ p.text = "e" := by
  have facts : (Report.ofTree "A.tsx" dependentSource).outcome.toOption.map
      (fun c => (c.hasEffects, c.effectDependencies)) = some (true, ["b", "a", "e"]) := by
    decide +kernel
  obtain ⟨c, analysed, recorded⟩ := exists_of_toOption_map facts
  have ⟨effects, names⟩ := Prod.mk.inj recorded
  have ⟨hasEffects, _, _, _, _, _, _, _, _, _, mem⟩ := dependencies_of_effects analysed
  refine ⟨c, analysed, names, hasEffects.mp effects, (mem "e").mp ?_⟩
  rw [names]
  simp

end Analysis

end SuiteDraft
