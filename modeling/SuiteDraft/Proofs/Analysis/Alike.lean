import SuiteDraft.Analysis.Markup
import SuiteDraft.Proofs.Lockstep
import SuiteDraft.Proofs.Tree.Positions

/-!
# Trees that tell the same

Two trees are alike when they become the same tree once the hidden nodes, which are comments, are
left out: kinds, fields and order of the nodes agree, and so do their words. Layout and comments are
then all that may differ.
-/

namespace SuiteDraft

/-- The kinds of node whose text is a word of the source: a name, a number, a piece of a string, an
escape, a piece of markup text or a character reference. -/
def Kind.isWord : Kind → Bool
  | identifier | propertyIdentifier | shorthandPattern | number | trueWord | falseWord
  | stringFragment | escapeSequence | characterReference | jsxText => true
  | _ => false

namespace Tree

/-- The children of a node that are not hidden. -/
def shown (hidden : Kind → Bool) (t : Tree) : List Tree := t.children.filter fun c => !hidden c.kind

/-- Whatever is hidden below a node is a comment that fills no field and has no children, and the
node itself is no element. -/
def HidesComments (hidden : Kind → Bool) (t : Tree) : Prop :=
  ∀ c ∈ t.children, hidden c.kind = true →
    c.kind = .comment ∧ c.label.field = none ∧ c.children = [] ∧ t.kind ≠ .jsxElement

/-- Two elements have the same tag; the blanks in its name do not count. -/
def SameTags (t t' : Tree) : Prop :=
  Markup.isElement t = true →
    (Markup.nameNode? t).map (fun n => Text.unspaced n.text.toList) =
      (Markup.nameNode? t').map fun n => Text.unspaced n.text.toList

/-- The name of an attribute as it is written; one in a namespace does not count. -/
def attributeName? (t : Tree) : Option String :=
  match t.meaningful with
  | name :: _ => if name.kind = .jsxNamespaceName then none else some name.text
  | [] => none

/-- Two nodes bear the same name. The name of a function, of an attribute or of an exported
specifier counts as it is written, for it may be more than one word. -/
structure SameNames (t t' : Tree) : Prop where
  ofFunction : t.kind.isFunction = true → t.childText .name = t'.childText .name
  ofTag : SameTags t t'
  ofAttribute : t.kind = .jsxAttribute → attributeName? t = attributeName? t'
  ofSpecifier : (t.child? .exportedName).isSome = true →
    t.childText .exportedName = t'.childText .exportedName ∧ t.childText .name = t'.childText .name

/-- Two trees become the same once the hidden nodes are left out, and nodes that correspond bear
names which are the same by the relation `names`. -/
inductive AlikeBy (names : Tree → Tree → Prop) (hidden : Kind → Bool) : Tree → Tree → Prop
  | intro {t t' : Tree} (kind : t.kind = t'.kind)
      (text : t.kind.isWord = true → t.text = t'.text) (same : names t t')
      (hides : HidesComments hidden t) (hides' : HidesComments hidden t')
      (siblings : List.Forall₂ (fun c c' => c.label.field = c'.label.field ∧ c.named = c'.named)
        (shown hidden t) (shown hidden t'))
      (children : ∀ c c', (c, c') ∈ (shown hidden t).zip (shown hidden t') →
        AlikeBy names hidden c c') :
      AlikeBy names hidden t t'

/-- Two trees become the same once the hidden nodes are left out, names as they are written. -/
abbrev Alike (hidden : Kind → Bool) : Tree → Tree → Prop := AlikeBy SameNames hidden

variable {hidden : Kind → Bool} {t t' : Tree}

/-- Nodes are alike when they say the same, and the children that are shown are, one by one. -/
theorem alikeBy_iff_forall₂ {names : Tree → Tree → Prop} : AlikeBy names hidden t t' ↔
    (t.kind = t'.kind ∧ (t.kind.isWord = true → t.text = t'.text) ∧
      names t t' ∧ HidesComments hidden t ∧ HidesComments hidden t') ∧
    List.Forall₂ (fun c c' => (c.label.field = c'.label.field ∧ c.named = c'.named) ∧
      AlikeBy names hidden c c') (t.shown hidden) (t'.shown hidden) := by
  constructor
  · rintro ⟨kind, text, same, hides, hides', siblings, children⟩
    refine ⟨⟨kind, text, same, hides, hides'⟩, List.forall₂_iff_zip.mpr ⟨siblings.length_eq, ?_⟩⟩
    exact fun hc => ⟨List.forall₂_zip siblings hc, children _ _ hc⟩
  · rintro ⟨⟨kind, text, same, hides, hides'⟩, h⟩
    exact .intro kind text same hides hides' (h.imp fun _ _ hc => hc.1)
      fun c c' hc => (List.forall₂_zip h hc).2

namespace Alike

theorem kind (h : Alike hidden t t') : t.kind = t'.kind := (alikeBy_iff_forall₂.mp h).1.1

theorem text (h : Alike hidden t t') (word : t.kind.isWord = true) : t.text = t'.text :=
  (alikeBy_iff_forall₂.mp h).1.2.1 word

theorem names (h : Alike hidden t t') : SameNames t t' := (alikeBy_iff_forall₂.mp h).1.2.2.1

theorem hides (h : Alike hidden t t') : HidesComments hidden t ∧ HidesComments hidden t' :=
  (alikeBy_iff_forall₂.mp h).1.2.2.2

/-- The children that are shown correspond, with their fields. -/
theorem shown (h : Alike hidden t t') :
    List.Forall₂ (fun c c' => (c, c') ∈ (t.shown hidden).zip (t'.shown hidden) ∧
      c.label.field = c'.label.field ∧ c.named = c'.named ∧ Alike hidden c c')
      (t.shown hidden) (t'.shown hidden) := by
  have hshown := (alikeBy_iff_forall₂.mp h).2
  rw [List.forall₂_iff_zip]
  refine ⟨hshown.length_eq, fun {c c'} hc => ?_⟩
  rcases List.forall₂_zip hshown hc with ⟨⟨hfield, hnamed⟩, halike⟩
  exact ⟨hc, hfield, hnamed, halike⟩

end Alike

/-! ## Deciding -/

instance (hidden : Kind → Bool) (t : Tree) : Decidable (HidesComments hidden t) :=
  inferInstanceAs (Decidable (∀ c ∈ t.children, _))

instance : DecidableRel SameTags := fun _ _ => inferInstanceAs (Decidable (_ → _))

instance : DecidableRel SameNames := fun t t' =>
  decidable_of_iff ((t.kind.isFunction = true → t.childText .name = t'.childText .name) ∧
      SameTags t t' ∧ (t.kind = .jsxAttribute → attributeName? t = attributeName? t') ∧
      ((t.child? .exportedName).isSome = true →
        t.childText .exportedName = t'.childText .exportedName ∧
          t.childText .name = t'.childText .name))
    ⟨fun ⟨f, g, a, s⟩ => ⟨f, g, a, s⟩, fun ⟨f, g, a, s⟩ => ⟨f, g, a, s⟩⟩

section

variable (names : Tree → Tree → Prop) [DecidableRel names] (hidden : Kind → Bool)

mutual

/-- Decides whether trees are alike, by going through the children of the first. -/
def alike? : Tree → Tree → Bool
  | .node l cs, t' =>
    decide (l.kind = t'.kind ∧ (l.kind.isWord = true → l.text = t'.text) ∧
      names (.node l cs) t' ∧ HidesComments hidden (.node l cs) ∧ HidesComments hidden t') &&
    shownAlike? cs (t'.shown hidden)

def shownAlike? : List Tree → List Tree → Bool
  | [], ds => ds.isEmpty
  | c :: cs, ds =>
    if hidden c.kind then shownAlike? cs ds
    else
      match ds with
      | [] => false
      | d :: ds => decide (c.label.field = d.label.field ∧ c.named = d.named) && alike? c d &&
          shownAlike? cs ds

end

mutual

theorem alike?_iff : ∀ t t' : Tree, alike? names hidden t t' = true ↔ AlikeBy names hidden t t'
  | .node l cs, t' => by
    rw [alike?, Bool.and_eq_true, decide_eq_true_iff, shownAlike?_iff cs, alikeBy_iff_forall₂]
    rfl

theorem shownAlike?_iff : ∀ cs ds : List Tree, shownAlike? names hidden cs ds = true ↔
    List.Forall₂ (fun c c' => (c.label.field = c'.label.field ∧ c.named = c'.named) ∧
      AlikeBy names hidden c c') (cs.filter fun c => !hidden c.kind) ds
  | [], ds => by
    rw [shownAlike?, List.filter_nil, List.forall₂_nil_left_iff, List.isEmpty_iff]
  | c :: cs, ds => by
    rw [shownAlike?.eq_def]
    dsimp only
    cases hhidden : hidden c.kind with
    | true =>
      rw [List.filter_cons_of_neg (by simp [hhidden]), if_pos rfl, shownAlike?_iff cs]
    | false =>
      rw [List.filter_cons_of_pos (by simp [hhidden]), if_neg (by simp)]
      cases ds with
      | nil => simp
      | cons d ds =>
        rw [List.forall₂_cons, Bool.and_eq_true, Bool.and_eq_true, decide_eq_true_iff,
          alike?_iff c, shownAlike?_iff cs]

end

instance : DecidableRel (AlikeBy names hidden) := fun t t' =>
  decidable_of_iff _ (alike?_iff names hidden t t')

end

/-! ## Positions -/

theorem shown_false (t : Tree) : t.shown (fun _ => false) = t.children := List.filter_true t.children

theorem nameNode?_unplaced (t : Tree) :
    Markup.nameNode? t.unplaced = (Markup.nameNode? t).map unplaced := by
  have hopening : Markup.openingTag? t.unplaced = (Markup.openingTag? t).map unplaced := by
    unfold Markup.openingTag?
    rw [kind_unplaced, child?_unplaced]
    split <;> rfl
  rw [Markup.nameNode?, Markup.nameNode?, hopening]
  cases Markup.openingTag? t with
  | none => rfl
  | some opening => exact child?_unplaced opening .name

theorem sameNames_unplaced (t : Tree) : SameNames t t.unplaced where
  ofFunction _ := (childText_unplaced t .name).symm
  ofTag _ := by
    rw [nameNode?_unplaced, Option.map_map]
    simp only [Function.comp_def, text_unplaced]
  ofAttribute _ := by
    unfold attributeName?
    rw [meaningful_unplaced]
    cases t.meaningful with
    | nil => rfl
    | cons name rest => simp only [List.map_cons, kind_unplaced, text_unplaced]
  ofSpecifier _ := ⟨(childText_unplaced t .exportedName).symm, (childText_unplaced t .name).symm⟩

mutual

/-- With nothing hidden, a tree is like the tree without its positions. -/
theorem alike_unplaced : ∀ t : Tree, Alike (fun _ => false) t t.unplaced
  | .node l cs => by
    refine alikeBy_iff_forall₂.mpr ⟨⟨rfl, fun _ => rfl, sameNames_unplaced _, nofun, nofun⟩, ?_⟩
    rw [shown_false, shown_false, children_unplaced]
    exact allAlike_unplaced cs

theorem allAlike_unplaced : ∀ cs : List Tree, List.Forall₂ (fun c c' =>
    (c.label.field = c'.label.field ∧ c.named = c'.named) ∧ Alike (fun _ => false) c c')
    cs (cs.map unplaced)
  | [] => .nil
  | c :: cs => .cons ⟨⟨(field_unplaced c).symm, (named_unplaced c).symm⟩, alike_unplaced c⟩
    (allAlike_unplaced cs)

end

/-- The field that a tree itself fills does not count. -/
theorem Alike.of_inField {f : Field} (h : Alike hidden t (t'.inField f)) : Alike hidden t t' := by
  cases t' with
  | node l cs =>
    have hname : Markup.nameNode? (.node { l with field := some f } cs) =
        Markup.nameNode? (.node l cs) := by
      unfold Markup.nameNode? Markup.openingTag?
      change Option.bind (if l.kind = .jsxElement then _ else _) _ =
        Option.bind (if l.kind = .jsxElement then _ else _) _
      split <;> rfl
    rcases alikeBy_iff_forall₂.mp h with ⟨⟨kind, text, same, hides, hides'⟩, hshown⟩
    refine alikeBy_iff_forall₂.mpr ⟨⟨kind, text, ⟨same.ofFunction, fun element => ?_, same.ofAttribute,
      same.ofSpecifier⟩, hides, hides'⟩, hshown⟩
    exact (same.ofTag element).trans (congrArg _ hname)

/-! ## Hidden nodes do not count -/

theorem HidesComments.filter_eq (h : HidesComments hidden t) {p : Tree → Bool}
    (hp : ∀ c, c.kind = .comment → c.label.field = none → p c = false) :
    t.children.filter p = (t.shown hidden).filter p := by
  rw [shown, List.filter_filter]
  refine List.filter_congr fun c hc => ?_
  cases hhidden : hidden c.kind with
  | false => rw [Bool.not_false, Bool.and_true]
  | true =>
    rcases h c hc hhidden with ⟨hkind, hfield, -⟩
    rw [hp c hkind hfield]
    rfl

theorem HidesComments.find?_eq (h : HidesComments hidden t) {p : Tree → Bool}
    (hp : ∀ c, c.kind = .comment → c.label.field = none → p c = false) :
    t.children.find? p = (t.shown hidden).find? p := by
  rw [← List.head?_filter, ← List.head?_filter, h.filter_eq hp]

theorem HidesComments.shown_of_element (h : HidesComments hidden t) (element : t.kind = .jsxElement) :
    t.shown hidden = t.children := by
  rw [shown, List.filter_eq_self]
  intro c hc
  cases hhidden : hidden c.kind with
  | false => rfl
  | true => exact absurd element (h c hc hhidden).2.2.2

namespace Alike

/-- A search among all children for what no comment is finds children that correspond. -/
theorem find?_children (h : Alike hidden t t') {S : Tree → Tree → Prop} {p : Tree → Bool}
    (hcomment : ∀ c, c.kind = .comment → c.label.field = none → p c = false)
    (hp : ∀ c c' : Tree, c.label.field = c'.label.field → c.kind = c'.kind → p c = p c')
    (hs : ∀ c c', (c, c') ∈ (t.shown hidden).zip (t'.shown hidden) → S c c') :
    Option.Rel S (t.children.find? p) (t'.children.find? p) := by
  rw [h.hides.1.find?_eq hcomment, h.hides.2.find?_eq hcomment]
  exact forall₂_find? (fun c c' hc => hp c c' hc.2.1 hc.2.2.2.kind) (fun c c' hc => hs c c' hc.1)
    h.shown

theorem children (h : Alike hidden t t') (c c' : Tree)
    (hc : (c, c') ∈ (t.shown hidden).zip (t'.shown hidden)) : Alike hidden c c' :=
  (List.forall₂_zip h.shown hc).2.2.2

/-- The children that fill a field correspond. -/
theorem child?_of (h : Alike hidden t t') {S : Tree → Tree → Prop} (f : Field)
    (hs : ∀ c c', (c, c') ∈ (t.shown hidden).zip (t'.shown hidden) → S c c') :
    Option.Rel S (t.child? f) (t'.child? f) :=
  h.find?_children (fun c _ hc => by rw [hc]; rfl) (fun c c' hfield _ => by rw [hfield]) hs

theorem child? (h : Alike hidden t t') (f : Field) :
    Option.Rel (Alike hidden) (t.child? f) (t'.child? f) := h.child?_of f h.children

theorem child?_cases (h : Alike hidden t t') (f : Field) :
    (t.child? f = none ∧ t'.child? f = none) ∨
      ∃ c c', t.child? f = some c ∧ t'.child? f = some c' ∧ Alike hidden c c' :=
  rel_cases (h.child? f)

theorem filter_shown (h : Alike hidden t t') {p : Tree → Bool}
    (hp : ∀ c c' : Tree, c.named = c'.named → c.kind = c'.kind → p c = p c') :
    List.Forall₂ (Alike hidden) ((t.shown hidden).filter p) ((t'.shown hidden).filter p) :=
  (forall₂_filter (fun c c' hc => hp c c' hc.2.2.1 hc.2.2.2.kind) h.shown).imp
    fun _ _ hc => hc.1.2.2.2

theorem meaningful (h : Alike hidden t t') :
    List.Forall₂ (Alike hidden) t.meaningful t'.meaningful := by
  have hcomment : ∀ c : Tree, c.kind = .comment → c.label.field = none → c.isMeaningful = false :=
    fun c hc _ => by rw [isMeaningful, hc, bne_self_eq_false, Bool.and_false]
  rw [Tree.meaningful, Tree.meaningful, h.hides.1.filter_eq hcomment, h.hides.2.filter_eq hcomment]
  exact h.filter_shown fun c c' hn hk => by rw [isMeaningful, isMeaningful, hn, hk]

end Alike

end Tree

end SuiteDraft
