import SuiteDraft.Analysis.Handler
import SuiteDraft.Tree.Walk

/-!
# Calls, in words

What it is to call a function by its bare name or as a member of a plain name, and to ask the
network for an address; the tests of the analysis decide just that.
-/

namespace SuiteDraft

namespace Tree

/-- A call of the function `name` by its bare name. -/
def CallsBare (t : Tree) (name : String) : Prop :=
  t.kind = .callExpression ∧ ∃ callee, t.child? .function = some callee ∧
    callee.kind = .identifier ∧ callee.text = name

/-- A call of the member `property` of the plain name `object`. -/
def CallsMember (t : Tree) (object property : String) : Prop :=
  t.kind = .callExpression ∧ ∃ callee, t.child? .function = some callee ∧
    callee.kind = .memberExpression ∧
    (∃ o, callee.child? .object = some o ∧ o.kind = .identifier ∧ o.text = object) ∧
    ∃ p, callee.child? .property = some p ∧ p.kind = .propertyIdentifier ∧ p.text = property

/-- A call of the function `name`, bare or as a member of some plain name. -/
def Calls (t : Tree) (name : String) : Prop :=
  t.CallsBare name ∨ ∃ object, t.CallsMember object name

/-- A declarator of the plain variable `name`. -/
def Binds (t : Tree) (name : String) : Prop :=
  t.kind = .variableDeclarator ∧ ∃ binding, t.child? .name = some binding ∧
    binding.kind = .identifier ∧ binding.text = name

theorem plainMember?_eq_some_iff {t o p : Tree} :
    t.plainMember? = some (o, p) ↔ t.child? .object = some o ∧ o.kind = .identifier ∧
      t.child? .property = some p ∧ p.kind = .propertyIdentifier := by
  unfold plainMember?
  cases t.child? .object with
  | none => simp
  | some object =>
    cases t.child? .property with
    | none => simp
    | some property =>
      dsimp only
      split
      · rename_i h
        rw [Bool.and_eq_true, decide_eq_true_iff, decide_eq_true_iff] at h
        simp only [Option.some.injEq, Prod.mk.injEq]
        constructor
        · rintro ⟨rfl, rfl⟩
          exact ⟨rfl, h.1, rfl, h.2⟩
        · rintro ⟨rfl, -, rfl, -⟩
          exact ⟨rfl, rfl⟩
      · rename_i h
        rw [Bool.and_eq_true, decide_eq_true_iff, decide_eq_true_iff] at h
        simp only [Option.some.injEq, reduceCtorEq, false_iff]
        rintro ⟨rfl, ho, rfl, hp⟩
        exact h ⟨ho, hp⟩

theorem bareCallee?_eq_some_iff {t : Tree} {name : String} :
    t.bareCallee? = some name ↔ ∃ callee, t.child? .function = some callee ∧
      callee.kind = .identifier ∧ callee.text = name := by
  unfold bareCallee?
  cases t.child? .function with
  | none => simp
  | some callee => by_cases h : callee.kind = .identifier <;> simp [h]

theorem callsBare_iff {t : Tree} {name : String} :
    t.CallsBare name ↔ t.kind = .callExpression ∧ t.bareCallee? = some name := by
  rw [CallsBare, bareCallee?_eq_some_iff]

theorem calleeName?_eq_some_iff {t : Tree} {name : String} (hcall : t.kind = .callExpression) :
    t.calleeName? = some name ↔ t.Calls name := by
  unfold calleeName? Calls CallsBare CallsMember
  cases t.child? .function with
  | none => simp
  | some callee =>
    dsimp only
    split
    · rename_i h
      simp [hcall, h]
    · rename_i h
      rw [Option.map_eq_some_iff]
      constructor
      · rintro ⟨⟨o, p⟩, hmember, rfl⟩
        rcases plainMember?_eq_some_iff.mp hmember with ⟨ho, hokind, hp, hpkind⟩
        exact .inr ⟨o.text, hcall, callee, rfl, h, ⟨o, ho, hokind, rfl⟩, p, hp, hpkind, rfl⟩
      · rintro (⟨-, c, hc, hkind, -⟩ | ⟨object, -, c, hc, -, ⟨o, ho, hokind, -⟩, p, hp, hpkind, rfl⟩)
        · cases hc
          rw [h] at hkind
          cases hkind
        · cases hc
          exact ⟨(o, p), plainMember?_eq_some_iff.mpr ⟨ho, hokind, hp, hpkind⟩, rfl⟩
    · rename_i hidentifier hmember
      simp only [reduceCtorEq, false_iff]
      rintro (⟨-, c, hc, hkind, -⟩ | ⟨object, -, c, hc, hkind, -⟩)
      · cases hc
        exact hidentifier hkind
      · cases hc
        exact hmember hkind

theorem isCallOf_iff {t : Tree} {name : String} : t.isCallOf name = true ↔ t.Calls name := by
  rw [isCallOf, Bool.and_eq_true, beq_iff_eq, beq_iff_eq]
  constructor
  · rintro ⟨hcall, hname⟩
    exact (calleeName?_eq_some_iff hcall).mp hname
  · intro h
    have hcall : t.kind = .callExpression := h.elim (·.1) fun ⟨_, h⟩ => h.1
    exact ⟨hcall, (calleeName?_eq_some_iff hcall).mpr h⟩

end Tree

theorem Handler.bareCall?_eq_some_iff {p : Place} {call : String × Place} :
    bareCall? p = some call ↔ call.2 = p ∧ p.node.CallsBare call.1 := by
  rcases call with ⟨name, place⟩
  have hcalls : p.node.CallsBare name ↔ p.kind = .callExpression ∧ p.node.bareCallee? = some name :=
    Tree.callsBare_iff
  unfold bareCall?
  split
  · rename_i hkind
    rw [Option.map_eq_some_iff]
    constructor
    · rintro ⟨name', hname, heq⟩
      cases heq
      exact ⟨rfl, hcalls.mpr ⟨hkind, hname⟩⟩
    · rintro ⟨rfl, h⟩
      exact ⟨name, (hcalls.mp h).2, rfl⟩
  · rename_i hkind
    exact ⟨nofun, fun h => absurd h.2.1 hkind⟩

end SuiteDraft
