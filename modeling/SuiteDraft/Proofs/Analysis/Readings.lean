import SuiteDraft.Analysis.Report
import SuiteDraft.Proofs.Analysis.Alike

/-!
# What is read off trees that tell the same

Whatever an analysis reads off a tree it reads off every tree that is alike: the callee and the
arguments of a call, the value of a literal, the record of an element, a state, an effect, the names
of props and what a statement exports.
-/

namespace SuiteDraft

namespace Tree

variable {hidden : Kind → Bool} {t t' : Tree}

/-! ## Calls -/

namespace Alike

theorem callArguments (h : Alike hidden t t') :
    List.Forall₂ (Alike hidden) t.callArguments t'.callArguments := by
  unfold Tree.callArguments
  rcases h.child?_cases .arguments with ⟨hc, hc'⟩ | ⟨args, args', hc, hc', hargs⟩
  · rw [hc, hc']
    exact .nil
  · rw [hc, hc']
    dsimp only
    rw [hargs.kind]
    split
    · exact hargs.meaningful
    · exact .nil

theorem plainMember? (h : Alike hidden t t') :
    Option.Rel (fun m m' => m.1.text = m'.1.text ∧ m.2.text = m'.2.text)
      t.plainMember? t'.plainMember? := by
  unfold Tree.plainMember?
  rcases h.child?_cases .object with ⟨hc, hc'⟩ | ⟨object, object', hc, hc', hobject⟩
  · rw [hc, hc']
    exact .none
  · rcases h.child?_cases .property with ⟨hp, hp'⟩ | ⟨property, property', hp, hp', hproperty⟩
    · rw [hc, hc', hp, hp']
      exact .none
    · rw [hc, hc', hp, hp']
      dsimp only
      rw [← hobject.kind, ← hproperty.kind]
      split
      · rename_i hkinds
        rw [Bool.and_eq_true, decide_eq_true_iff, decide_eq_true_iff] at hkinds
        exact .some ⟨hobject.text (by rw [hkinds.1]; rfl), hproperty.text (by rw [hkinds.2]; rfl)⟩
      · exact .none

theorem calleeName?_eq (h : Alike hidden t t') : t.calleeName? = t'.calleeName? := by
  unfold Tree.calleeName?
  rcases h.child?_cases .function with ⟨hc, hc'⟩ | ⟨callee, callee', hc, hc', hcallee⟩
  · rw [hc, hc']
  · rw [hc, hc']
    dsimp only
    rw [← hcallee.kind]
    split
    · rename_i hkind
      rw [hcallee.text (by rw [hkind]; rfl)]
    · rcases rel_cases hcallee.plainMember? with ⟨hm, hm'⟩ | ⟨m, m', hm, hm', htexts⟩
      · rw [hm, hm']
      · rw [hm, hm', Option.map_some, Option.map_some, htexts.2]
    · rfl

theorem isCallOf_eq (h : Alike hidden t t') (name : String) :
    t.isCallOf name = t'.isCallOf name := by
  rw [isCallOf, isCallOf, h.kind, h.calleeName?_eq]

theorem bareCallee?_eq (h : Alike hidden t t') : t.bareCallee? = t'.bareCallee? := by
  unfold bareCallee?
  rcases h.child?_cases .function with ⟨hc, hc'⟩ | ⟨callee, callee', hc, hc', hcallee⟩
  · rw [hc, hc']
  · rw [hc, hc']
    dsimp only
    rw [← hcallee.kind]
    split
    · rename_i hkind
      rw [hcallee.text (by rw [hkind]; rfl)]
    · rfl

end Alike

end Tree

theorem Kind.isFunction_of_isFunctionDeclaration {k : Kind} (h : k.isFunctionDeclaration = true) :
    k.isFunction = true := by
  unfold isFunctionDeclaration at h
  split at h <;> trivial

theorem Kind.isFunction_of_isFunctionValue {k : Kind} (h : k.isFunctionValue = true) :
    k.isFunction = true := by
  unfold isFunctionValue at h
  split at h <;> trivial

theorem Tree.Alike.functionName_eq {hidden : Kind → Bool} {t t' : Tree}
    (h : Tree.Alike hidden t t') (function : t.kind.isFunction = true) :
    (t.child? .name).map (·.text) = (t'.child? .name).map (·.text) := by
  have hname := h.names.ofFunction function
  unfold Tree.childText at hname
  rcases h.child?_cases .name with ⟨hc, hc'⟩ | ⟨name, name', hc, hc', -⟩
  · rw [hc, hc']
  · rw [hc, hc'] at hname
    rw [hc, hc']
    exact congrArg some hname

open SuiteDraft.Tree (Alike HidesComments)

variable {hidden : Kind → Bool} {t t' : Tree}

/-! ## Literals -/

namespace Literal

theorem piece_eq (h : Alike hidden t t') : piece t = piece t' := by
  unfold piece
  rw [← h.kind]
  split <;> rename_i hkind
  · rw [h.text (by rw [hkind]; rfl)]
  · rw [h.text (by rw [hkind]; rfl)]
  · rw [h.text (by rw [hkind]; rfl)]
  · rfl

/-- A comment among the pieces of a literal adds nothing to it. -/
theorem pieces_filter {p : Tree → Bool} {cs : List Tree}
    (h : ∀ c ∈ cs, p c = false → c.kind = .comment) : pieces (cs.filter p) = pieces cs := by
  induction cs with
  | nil => rfl
  | cons c cs ih =>
    rcases List.forall_mem_cons.mp h with ⟨hc, hcs⟩
    cases hp : p c with
    | true => rw [List.filter_cons_of_pos hp, pieces, pieces, ih hcs]
    | false =>
      have hpiece : piece c = .ok [] := by rw [piece, hc hp]
      have hkind : c.kind ≠ .templateSubstitution := by rw [hc hp]; decide
      rw [List.filter_cons_of_neg (by simp [hp]), ih hcs, pieces, if_neg hkind, hpiece, ok_bind]
      cases pieces cs with
      | error e => rfl
      | ok found => cases found <;> rfl

theorem pieces_eq {cs cs' : List Tree} (h : List.Forall₂ (Alike hidden) cs cs') :
    pieces cs = pieces cs' := by
  induction h with
  | nil => rfl
  | cons hc _ ih => rw [pieces, pieces, ih, piece_eq hc, hc.kind]

theorem value?_eq (h : Alike hidden t t') : value? t = value? t' := by
  have hshown : ∀ u : Tree, HidesComments hidden u → pieces u.children = pieces (u.shown hidden) := by
    intro u hu
    refine (pieces_filter fun c hc hhidden => ?_).symm
    exact (hu c hc (by simpa using hhidden)).1
  unfold value? isLiteral
  rw [hshown t h.hides.1, hshown t' h.hides.2, pieces_eq (h.shown.imp fun _ _ hc => hc.2.2.2),
    h.kind]

end Literal

/-! ## Markup -/

namespace Markup

theorem expressionValue_eq {inner inner' : List Tree}
    (h : List.Forall₂ (Alike hidden) inner inner') :
    expressionValue inner = expressionValue inner' := by
  cases h with
  | nil => rfl
  | cons hexpr _ =>
    unfold expressionValue
    dsimp only
    rw [← hexpr.kind, Literal.value?_eq hexpr]
    split <;> rename_i hkind
    · rw [hexpr.text (by rw [hkind]; rfl)]
    · rfl
    · rw [hexpr.text (by rw [hkind]; rfl)]
    · rw [hexpr.text (by rw [hkind]; rfl)]
    · rw [hexpr.text (by rw [hkind]; rfl)]
    · rfl

theorem attributeValue_eq {v v' : Option Tree} (h : Option.Rel (Alike hidden) v v') :
    attributeValue v = attributeValue v' := by
  cases h with
  | none => rfl
  | some hv =>
    unfold attributeValue
    dsimp only
    rw [hv.kind, Literal.value?_eq hv, expressionValue_eq hv.meaningful]

theorem boundName?_eq {v v' : Option Tree} (h : Option.Rel (Alike hidden) v v') :
    boundName? v = boundName? v' := by
  cases h with
  | none => rfl
  | @some a b hv =>
    unfold boundName?
    dsimp only
    rw [hv.kind]
    match a.meaningful, b.meaningful, hv.meaningful with
    | [], [], .nil => rfl
    | x :: _, y :: _, .cons hx _ =>
      dsimp only
      rw [← hx.kind]
      split
      · split
        · rename_i hkind
          rw [hx.text (by rw [hkind]; rfl)]
        · rfl
      · rfl

theorem literalText?_eq {v v' : Option Tree} (h : Option.Rel (Alike hidden) v v') :
    literalText? v = literalText? v' := by
  cases h with
  | none => rfl
  | @some a b hv =>
    unfold literalText?
    dsimp only
    rw [hv.kind, Literal.value?_eq hv]
    match a.meaningful, b.meaningful, hv.meaningful with
    | [], [], .nil => rfl
    | [x], [y], .cons hx .nil =>
      dsimp only
      rw [hx.kind, Literal.value?_eq hx]
    | _ :: _ :: _, _ :: _ :: _, .cons _ (.cons _ _) => rfl

theorem Attributes.add_eq (a : Attributes) (name : String) {v v' : Option Tree}
    (h : Option.Rel (Alike hidden) v v') : a.add name v = a.add name v' := by
  rw [add, add, attributeValue_eq h, boundName?_eq h, literalText?_eq h]

theorem Attributes.addChild_eq (a : Attributes) (h : Alike hidden t t') :
    a.addChild t = a.addChild t' := by
  unfold addChild
  rw [← h.kind]
  split
  · rename_i hkind
    have hname := h.names.ofAttribute hkind
    unfold Tree.attributeName? at hname
    revert hname
    match t.meaningful, t'.meaningful, h.meaningful with
    | [], [], .nil => exact fun _ => rfl
    | name :: rest, name' :: rest', .cons hn hrest =>
      intro hname
      dsimp only at hname ⊢
      rw [← hn.kind] at hname ⊢
      by_cases hspace : name.kind = .jsxNamespaceName
      · rw [if_pos hspace, if_pos hspace]
      · rw [if_neg hspace, if_neg hspace, Option.some.injEq] at hname
        rw [if_neg hspace, if_neg hspace, hname]
        exact add_eq a name'.text (forall₂_head? hrest)
  · rfl

/-- Only attributes count among the children of an opening tag, so that comments may be left out. -/
theorem attributes_eq_meaningful (opening : Tree) :
    attributes opening = opening.meaningful.foldlM Attributes.addChild {} := by
  have hmeaningful : opening.meaningful = opening.namedChildren.filter (·.kind != .comment) := by
    rw [Tree.meaningful, Tree.namedChildren, List.filter_filter]
    exact List.filter_congr fun c _ => by rw [Tree.isMeaningful, Bool.and_comm]
  rw [attributes, hmeaningful]
  refine (foldlM_filter_eq (fun c _ hc a => ?_) ({} : Attributes)).symm
  have hkind : c.kind = .comment := by simpa using hc
  rw [Attributes.addChild, hkind]
  rfl

theorem attributes_eq (h : Alike hidden t t') : attributes t = attributes t' := by
  rw [attributes_eq_meaningful, attributes_eq_meaningful]
  exact foldlM_eq_of_forall₂ (R := Alike hidden) (fun a _ _ hc => Attributes.addChild_eq a hc)
    h.meaningful _

theorem textPiece?_eq (h : Alike hidden t t') : textPiece? t = textPiece? t' := by
  unfold textPiece?
  rw [← h.kind]
  split <;> rename_i hkind
  · rw [h.text (by rw [hkind]; rfl)]
  · rw [h.text (by rw [hkind]; rfl)]
  · rfl

theorem firstText?_eq {cs cs' : List Tree} (h : List.Forall₂ (Alike hidden) cs cs')
    (run : List Char) : firstText? run cs = firstText? run cs' := by
  induction h generalizing run with
  | nil => rfl
  | cons hc _ ih => simp only [firstText?, textPiece?_eq hc, ih]

theorem namedChildren_of_element (h : Alike hidden t t') (element : t.kind = .jsxElement) :
    List.Forall₂ (Alike hidden) t.namedChildren t'.namedChildren := by
  rw [Tree.namedChildren, Tree.namedChildren, ← h.hides.1.shown_of_element element,
    ← h.hides.2.shown_of_element (h.kind ▸ element)]
  exact h.filter_shown fun _ _ hnamed _ => hnamed

theorem openingTag?_rel (h : Alike hidden t t') :
    Option.Rel (Alike hidden) (openingTag? t) (openingTag? t') := by
  unfold openingTag?
  rw [← h.kind]
  split
  · exact h.child? .openTag
  · exact .some h

theorem nameNode?_cases (h : Alike hidden t t') :
    (nameNode? t = none ∧ nameNode? t' = none) ∨
      ∃ n n', nameNode? t = some n ∧ nameNode? t' = some n' ∧ Alike hidden n n' := by
  unfold nameNode?
  rcases rel_cases (openingTag?_rel h) with ⟨ho, ho'⟩ | ⟨opening, opening', ho, ho', hopening⟩
  · exact .inl ⟨by rw [ho]; rfl, by rw [ho']; rfl⟩
  · rw [ho, ho']
    exact hopening.child?_cases .name

theorem record_eq (h : Alike hidden t t') {name name' : Tree}
    (hname : Text.unspaced name.text.toList = Text.unspaced name'.text.toList) :
    record t name = record t' name' := by
  have hopening : Alike hidden ((openingTag? t).getD t) ((openingTag? t').getD t') := by
    rcases rel_cases (openingTag?_rel h) with ⟨ho, ho'⟩ | ⟨opening, opening', ho, ho', hopening⟩
    · rw [ho, ho']
      exact h
    · rw [ho, ho']
      exact hopening
  have htext : (if t.kind = .jsxElement then firstText? [] t.namedChildren else none) =
      if t'.kind = .jsxElement then firstText? [] t'.namedChildren else none := by
    rw [← h.kind]
    split
    · rename_i element
      exact firstText?_eq (namedChildren_of_element h element) []
    · rfl
  rw [record, record, hname, attributes_eq hopening, htext]

theorem element?_eq (h : Alike hidden t t') : element? t = element? t' := by
  have hnames := h.names.ofTag
  unfold element?
  rw [show isElement t' = isElement t by rw [isElement, isElement, h.kind]]
  split
  · rename_i helement
    rcases nameNode?_cases h with ⟨hn, hn'⟩ | ⟨n, n', hn, hn', -⟩
    · rw [hn, hn']
    · specialize hnames helement
      rw [hn, hn', Option.map_some, Option.map_some, Option.some.injEq] at hnames
      rw [hn, hn']
      dsimp only
      rw [record_eq h hnames]
  · rfl

end Markup

/-! ## States, effects and network calls -/

namespace Effect

theorem state?_eq (h : Alike hidden t t') : state? t = state? t' := by
  unfold state?
  rw [← h.kind]
  rcases h.child?_cases .name with ⟨hn, hn'⟩ | ⟨pattern, pattern', hn, hn', hpattern⟩
  · rw [hn, hn']
  · rcases h.child?_cases .value with ⟨hv, hv'⟩ | ⟨value, value', hv, hv', hvalue⟩
    · rw [hn, hn', hv, hv']
    · rw [hn, hn', hv, hv']
      dsimp only
      rw [hpattern.kind, hvalue.isCallOf_eq]
      match pattern.meaningful, pattern'.meaningful, hpattern.meaningful with
      | [], [], .nil => rfl
      | [_], [_], .cons _ .nil => rfl
      | [v, s], [v', s'], .cons hv (.cons hs .nil) =>
        dsimp only
        rw [← hv.kind, ← hs.kind]
        split
        · split
          · split
            · rename_i hkinds
              rw [Bool.and_eq_true, decide_eq_true_iff, decide_eq_true_iff] at hkinds
              rw [hv.text (by rw [hkinds.1]; rfl), hs.text (by rw [hkinds.2]; rfl)]
            · rfl
          · rfl
        · rfl
      | _ :: _ :: _ :: _, _ :: _ :: _ :: _, .cons _ (.cons _ (.cons _ _)) => rfl

theorem isEffect_eq (h : Alike hidden t t') : isEffect t = isEffect t' :=
  h.isCallOf_eq "useEffect"

theorem dependencies_eq (h : Alike hidden t t') : dependencies t = dependencies t' := by
  unfold dependencies
  match t.callArguments, t'.callArguments, h.callArguments with
  | [], [], .nil => rfl
  | [_], [_], .cons _ .nil => rfl
  | _ :: second :: _, _ :: second' :: _, .cons _ (.cons hsecond _) =>
    have hnames : (second.meaningful.filter (·.kind == .identifier)).map (·.text) =
        (second'.meaningful.filter (·.kind == .identifier)).map (·.text) := by
      refine map_eq_of_forall₂ (fun c c' hc => hc.1.text ?_)
        (forall₂_filter (fun c c' hc => by rw [hc.kind]) hsecond.meaningful)
      rw [eq_of_beq hc.2]
      rfl
    dsimp only
    rw [hsecond.kind, hnames]

theorem clientMethod?_eq (h : Alike hidden t t') : clientMethod? t = clientMethod? t' := by
  unfold clientMethod?
  rcases h.child?_cases .function with ⟨hc, hc'⟩ | ⟨callee, callee', hc, hc', hcallee⟩
  · rw [hc, hc']
  · rw [hc, hc']
    dsimp only
    rw [hcallee.kind]
    rcases rel_cases hcallee.plainMember? with ⟨hm, hm'⟩ | ⟨m, m', hm, hm', hobject, hproperty⟩
    · rw [hm, hm']
    · rw [hm, hm']
      dsimp only
      rw [hobject, hproperty]

theorem url_eq (h : Alike hidden t t') : url t = url t' := by
  unfold url
  match t.callArguments, t'.callArguments, h.callArguments with
  | [], [], .nil => rfl
  | first :: _, first' :: _, .cons hfirst _ =>
    dsimp only
    rw [Literal.value?_eq hfirst]

theorem networkCall?_eq (h : Alike hidden t t') : networkCall? t = networkCall? t' := by
  unfold networkCall?
  rw [h.kind, clientMethod?_eq h, url_eq h, h.bareCallee?_eq]

end Effect

/-! ## Props -/

namespace Props

theorem entryName?_eq (h : Alike hidden t t') : entryName? t = entryName? t' := by
  unfold entryName?
  rw [← h.kind]
  split
  · rename_i hkind
    rw [h.text (by rw [hkind]; rfl)]
  · rcases h.child?_cases .key with ⟨hc, hc'⟩ | ⟨key, key', hc, hc', hkey⟩
    · rw [hc, hc']
    · rw [hc, hc']
      dsimp only
      rw [← hkey.kind, Literal.value?_eq hkey]
      split
      · rename_i hkind
        rw [hkey.text (by rw [hkind]; rfl)]
      · rfl
      · rfl
  · rcases h.child?_cases .left with ⟨hc, hc'⟩ | ⟨left, left', hc, hc', hleft⟩
    · rw [hc, hc']
    · rw [hc, hc']
      dsimp only
      rw [← hleft.kind]
      split
      · rename_i hkinds
        rw [Bool.or_eq_true, decide_eq_true_iff, decide_eq_true_iff] at hkinds
        rw [hleft.text (by rcases hkinds with hkind | hkind <;> rw [hkind] <;> rfl)]
      · rfl
  · have hrest : Option.Rel (fun c c' => Alike hidden c c' ∧ c.kind = .identifier)
        (t.meaningful.find? (·.kind == .identifier)) (t'.meaningful.find? (·.kind == .identifier)) := by
      rw [← List.head?_filter, ← List.head?_filter]
      refine forall₂_head? ((forall₂_filter (fun c c' hc => by rw [hc.kind]) h.meaningful).imp ?_)
      exact fun c c' hc => ⟨hc.1, eq_of_beq hc.2⟩
    rcases rel_cases hrest with ⟨hc, hc'⟩ | ⟨name, name', hc, hc', hname, hkind⟩
    · rw [hc, hc']
    · rw [hc, hc', Option.map_some, Option.map_some, hname.text (by rw [hkind]; rfl)]
  · rfl

theorem ofLeft_eq_child? (cs : List Tree) :
    ofLeft cs = match cs.find? fun c => c.label.field == some .left with
      | some left => ofPattern left
      | none => .ok [] := by
  induction cs with
  | nil => rfl
  | cons c cs ih =>
    rw [ofLeft, List.find?_cons, ih]
    cases c.label.field == some .left <;> rfl

theorem ofPattern_of_assignment {t : Tree} (hkind : t.kind = .assignmentPattern) :
    ofPattern t = match t.child? .left with
      | some left => ofPattern left
      | none => .ok [] := by
  cases t with
  | node l cs =>
    have hl : l.kind = .assignmentPattern := hkind
    rw [ofPattern, hl]
    exact ofLeft_eq_child? cs

theorem ofPattern_of_object {t : Tree} (hkind : t.kind = .objectPattern) :
    ofPattern t = (t.meaningful.mapM entryName?).map fun names => names.filterMap id := by
  cases t with
  | node l cs =>
    have hl : l.kind = .objectPattern := hkind
    rw [ofPattern, hl]
    rfl

theorem ofPattern_of_other {t : Tree} (hassignment : t.kind ≠ .assignmentPattern)
    (hobject : t.kind ≠ .objectPattern) :
    ofPattern t = .ok (if t.kind = .identifier then [t.text] else []) := by
  cases t with
  | node l cs =>
    change _ = Except.ok (if l.kind = .identifier then [l.text] else [])
    rw [ofPattern]
    split <;> rename_i hkind
    · rw [if_pos hkind]
    · exact absurd hkind hassignment
    · exact absurd hkind hobject
    · rw [if_neg ‹_›]

theorem ofPattern_eq (h : Alike hidden t t') : ofPattern t = ofPattern t' := by
  -- The recursion is that of the relation: the target of a default is a child that is shown.
  induction h with
  | @intro t t' kind text names hides hides' siblings children ih =>
    have h : Alike hidden t t' := .intro kind text names hides hides' siblings children
    by_cases hassignment : t.kind = .assignmentPattern
    · rw [ofPattern_of_assignment hassignment, ofPattern_of_assignment (kind ▸ hassignment)]
      rcases rel_cases (h.child?_of .left ih) with ⟨hc, hc'⟩ | ⟨left, left', hc, hc', hleft⟩
      · rw [hc, hc']
      · rw [hc, hc']
        exact hleft
    · by_cases hobject : t.kind = .objectPattern
      · rw [ofPattern_of_object hobject, ofPattern_of_object (kind ▸ hobject),
          mapM_eq_of_forall₂ (fun _ _ hc => entryName?_eq hc) h.meaningful]
      · rw [ofPattern_of_other hassignment hobject,
          ofPattern_of_other (kind ▸ hassignment) (kind ▸ hobject), ← kind]
        split
        · rename_i hname
          rw [text (by rw [hname]; rfl)]
        · rfl

theorem parameterPattern?_rel (h : Alike hidden t t') :
    Option.Rel (Alike hidden) (parameterPattern? t) (parameterPattern? t') := by
  unfold parameterPattern?
  rw [← h.kind]
  split
  · exact h.child? .pattern
  · exact .some h

theorem firstPattern?_rel (h : Alike hidden t t') :
    Option.Rel (Alike hidden) (firstPattern? t) (firstPattern? t') := by
  unfold firstPattern?
  rcases h.child?_cases .parameter with ⟨hc, hc'⟩ | ⟨single, single', hc, hc', hsingle⟩
  · rw [hc, hc']
    rcases h.child?_cases .parameters with ⟨hp, hp'⟩ | ⟨parameters, parameters', hp, hp', hparameters⟩
    · rw [hp, hp']
      exact .none
    · rw [hp, hp']
      dsimp only
      rcases rel_cases (forall₂_head? hparameters.meaningful) with
        ⟨hf, hf'⟩ | ⟨first, first', hf, hf', hfirst⟩
      · rw [hf, hf']
        exact .none
      · rw [hf, hf']
        exact parameterPattern?_rel hfirst
  · rw [hc, hc']
    exact .some hsingle

theorem ofFunction_eq (h : Alike hidden t t') : ofFunction t = ofFunction t' := by
  unfold ofFunction
  rcases rel_cases (firstPattern?_rel h) with ⟨hp, hp'⟩ | ⟨pattern, pattern', hp, hp', hpattern⟩
  · rw [hp, hp']
  · rw [hp, hp']
    exact ofPattern_eq hpattern

end Props

/-! ## Exports -/

namespace Location

theorem isDefaultExport_eq (h : Alike hidden t t') : isDefaultExport t = isDefaultExport t' := by
  have hword : Option.Rel (Alike hidden) (t.children.find? (·.kind == .defaultWord))
      (t'.children.find? (·.kind == .defaultWord)) :=
    h.find?_children (fun c hc _ => by rw [hc]; rfl) (fun c c' _ hkind => by rw [hkind]) h.children
  have hany : t.children.any (·.kind == .defaultWord) = t'.children.any (·.kind == .defaultWord) := by
    rw [Bool.eq_iff_iff, List.any_eq_true, List.any_eq_true, ← List.find?_isSome,
      ← List.find?_isSome]
    rcases rel_cases hword with ⟨hc, hc'⟩ | ⟨word, word', hc, hc', -⟩
    · rw [hc, hc']
    · rw [hc, hc']
      rfl
  rw [isDefaultExport, isDefaultExport, h.kind, hany]

theorem declaredName?_eq (h : Alike hidden t t') : declaredName? t = declaredName? t' := by
  unfold declaredName?
  rcases h.child?_cases .declaration with ⟨hc, hc'⟩ | ⟨declaration, declaration', hc, hc', hd⟩
  · rw [hc, hc']
  · rw [hc, hc']
    dsimp only
    rw [← hd.kind]
    split
    · rename_i hkind
      exact hd.functionName_eq (Kind.isFunction_of_isFunctionDeclaration hkind)
    · rfl

theorem valueName?_eq (h : Alike hidden t t') : valueName? t = valueName? t' := by
  unfold valueName?
  rw [← h.kind]
  split
  · rename_i hkind
    rw [h.text (by rw [hkind]; rfl)]
  · split
    · rename_i hkind
      exact h.functionName_eq (Kind.isFunction_of_isFunctionValue hkind)
    · split
      · match t.callArguments, t'.callArguments, h.callArguments with
        | [], [], .nil => rfl
        | first :: _, first' :: _, .cons hfirst _ =>
          dsimp only
          rw [← hfirst.kind]
          split
          · rename_i hkind
            rw [hfirst.text (by rw [hkind]; rfl)]
          · rfl
      · rfl

/-- The name that a specifier exports as the default. -/
def specifierDefault? (specifier : Tree) : Option String :=
  match specifier.child? .exportedName, specifier.child? .name with
  | some exported, some name => if exported.text = "default" then some name.text else none
  | _, _ => none

theorem specifierDefault?_eq (h : Alike hidden t t') :
    specifierDefault? t = specifierDefault? t' := by
  have hnames := h.names.ofSpecifier
  unfold Tree.childText at hnames
  unfold specifierDefault?
  rcases h.child?_cases .exportedName with ⟨he, he'⟩ | ⟨exported, exported', he, he', -⟩
  · rw [he, he']
  · rw [he, he'] at hnames
    rw [he, he']
    rcases h.child?_cases .name with ⟨hn, hn'⟩ | ⟨name, name', hn, hn', -⟩
    · rw [hn, hn']
    · rw [hn, hn'] at hnames
      rw [hn, hn']
      dsimp only at hnames ⊢
      rw [(hnames rfl).1, (hnames rfl).2]

theorem clauseDefault?_eq (h : Alike hidden t t') : clauseDefault? t = clauseDefault? t' := by
  have hshown : ∀ u : Tree, HidesComments hidden u →
      clauseDefault? u = ((u.shown hidden).filter (·.named)).findSome? specifierDefault? := by
    intro u hu
    have hfilter : (u.shown hidden).filter (·.named) = u.namedChildren.filter fun c => !hidden c.kind := by
      rw [Tree.shown, Tree.namedChildren, List.filter_filter, List.filter_filter]
      exact List.filter_congr fun c _ => Bool.and_comm _ _
    rw [hfilter]
    refine (findSome?_filter_eq fun c hc hhidden => ?_).symm
    rcases hu c (List.mem_of_mem_filter hc) (by simpa using hhidden) with ⟨-, -, hchildren, -⟩
    change specifierDefault? c = none
    unfold specifierDefault? Tree.child?
    rw [hchildren]
    rfl
  rw [hshown t h.hides.1, hshown t' h.hides.2]
  exact findSome?_eq_of_forall₂ (fun _ _ hc => specifierDefault?_eq hc)
    (h.filter_shown fun _ _ hnamed _ => hnamed)

theorem clauseExport?_eq (h : Alike hidden t t') : clauseExport? t = clauseExport? t' := by
  have hclauses : List.Forall₂ (Alike hidden) (t.namedChildren.filter (·.kind == .exportClause))
      (t'.namedChildren.filter (·.kind == .exportClause)) := by
    have hcomment : ∀ c : Tree, c.kind = .comment → c.label.field = none →
        (c.kind == .exportClause && c.named) = false := fun c hc _ => by rw [hc]; rfl
    rw [Tree.namedChildren, Tree.namedChildren, List.filter_filter, List.filter_filter,
      h.hides.1.filter_eq hcomment, h.hides.2.filter_eq hcomment]
    exact h.filter_shown fun c c' hn hk => by rw [hn, hk]
  unfold clauseExport?
  rw [h.kind, findSome?_eq_of_forall₂ (fun _ _ hc => clauseDefault?_eq hc) hclauses]
  rcases h.child?_cases .source with ⟨hc, hc'⟩ | ⟨source, source', hc, hc', -⟩
  · rw [hc, hc']
  · rw [hc, hc']
    rfl

end Location

end SuiteDraft
