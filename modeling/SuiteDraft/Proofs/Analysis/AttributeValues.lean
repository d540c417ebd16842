import SuiteDraft.Proofs.Analysis.Attributes
import SuiteDraft.Suite.Row

/-!
# What a property says of an attribute

A property is a text with marks in it: `expr:` before a name, the word `dynamic` for what is computed
and the word `unknown` for what is no value. Literal texts stand among them as they are, and so a
property tells what the value of its attribute is, unless this is a literal that reads like a mark.
-/

namespace SuiteDraft

open String (startsWith_string_iff)

theorem startsWith_iff {s before : String} :
    s.startsWith before = true ↔ ∃ after, s = before ++ after := by
  rw [startsWith_string_iff]
  constructor
  · rintro ⟨after, h⟩
    refine ⟨String.ofList after, ?_⟩
    rw [← String.toList_inj, String.toList_append, String.toList_ofList, h]
  · rintro ⟨after, rfl⟩
    rw [String.toList_append]
    exact List.prefix_append _ _

/-- A property reads a name when it is marked as one. -/
theorem PropertyValue.boundName?_eq_some_iff {p : PropertyValue} {name : String} :
    p.boundName? = some name ↔ p = .text ("expr:" ++ name) := by
  cases p with
  | flag value => exact ⟨nofun, nofun⟩
  | text value =>
    rw [boundName?, Option.map_eq_some_iff, PropertyValue.text.injEq]
    constructor
    · rintro ⟨rest, hrest, rfl⟩
      exact String.eq_append_of_dropPrefix?_string_eq_some hrest
    · rintro rfl
      cases hrest : ("expr:" ++ name).dropPrefix? "expr:" with
      | none =>
        rw [String.dropPrefix?_eq_dropPrefix?_toSlice, String.Slice.dropPrefix?_eq_none_iff,
          String.startsWith_toSlice, startsWith_iff.mpr ⟨name, rfl⟩] at hrest
        cases hrest
      | some rest =>
        have hname := String.eq_append_of_dropPrefix?_string_eq_some hrest
        exact ⟨rest, rfl, ((String.append_right_inj _).mp hname).symm⟩

namespace Markup

/-- What the value of an attribute is. -/
inductive Content where
  | absent
  | name (name : String)
  | literal (text : String)
  | computed
  | foreign

/-- The property by which a content is told. -/
def Content.property : Content → PropertyValue
  | absent => .flag true
  | name n => .text ("expr:" ++ n)
  | literal t => .text t
  | computed => .text "dynamic"
  | foreign => .text "unknown"

/-- The kinds of expression that stand for themselves as they are written. -/
def IsConstant (kind : Kind) : Prop := kind = .number ∨ kind = .trueWord ∨ kind = .falseWord

/-- An expression in braces is a plain name, a literal or something that is computed. -/
inductive HoldsInner : Tree → Content → Prop
  | name {expr : Tree} (kind : expr.kind = .identifier) : HoldsInner expr (.name expr.text)
  | string {expr : Tree} {found : Option String} (kind : expr.kind = .string)
      (value : Literal.value? expr = .ok found) : HoldsInner expr (.literal (found.getD ""))
  | constant {expr : Tree} (kind : IsConstant expr.kind) : HoldsInner expr (.literal expr.text)
  | computed {expr : Tree} (name : expr.kind ≠ .identifier) (string : expr.kind ≠ .string)
      (constant : ¬ IsConstant expr.kind) : HoldsInner expr .computed

/-- The value of an attribute, if it has one, is a string, an expression in braces or something else;
braces with nothing in them count as computed. -/
inductive Holds : Option Tree → Content → Prop
  | absent : Holds none .absent
  | string {v : Tree} {found : Option String} (kind : v.kind = .string)
      (value : Literal.value? v = .ok found) : Holds (some v) (.literal (found.getD ""))
  | inner {v expr : Tree} {rest : List Tree} {content : Content} (kind : v.kind = .jsxExpression)
      (inner : v.meaningful = expr :: rest) (holds : HoldsInner expr content) : Holds (some v) content
  | empty {v : Tree} (kind : v.kind = .jsxExpression) (inner : v.meaningful = []) :
      Holds (some v) .computed
  | foreign {v : Tree} (string : v.kind ≠ .string) (braces : v.kind ≠ .jsxExpression) :
      Holds (some v) .foreign

theorem HoldsInner.expressionValue {expr : Tree} {rest : List Tree} {content : Content}
    (h : HoldsInner expr content) : Markup.expressionValue (expr :: rest) = .ok content.property := by
  cases h with
  | name kind => simp only [Markup.expressionValue, kind, Content.property]
  | string kind value =>
    simp only [Markup.expressionValue, kind, value]
    rfl
  | constant kind =>
    rcases kind with kind | kind | kind <;> simp only [Markup.expressionValue, kind, Content.property]
  | computed name string constant =>
    unfold Markup.expressionValue
    split
    · rename_i h
      cases h
    · rename_i h
      cases h
      split
      · contradiction
      · contradiction
      · rename_i h
        exact absurd (.inl h) constant
      · rename_i h
        exact absurd (.inr (.inl h)) constant
      · rename_i h
        exact absurd (.inr (.inr h)) constant
      · rfl

theorem Holds.attributeValue {value : Option Tree} {content : Content} (h : Holds value content) :
    Markup.attributeValue value = .ok content.property := by
  cases h with
  | absent => rfl
  | string kind value =>
    simp only [Markup.attributeValue, kind, value]
    rfl
  | inner kind inner holds => simp only [Markup.attributeValue, kind, inner, holds.expressionValue]
  | empty kind inner =>
    simp only [Markup.attributeValue, kind, inner, Markup.expressionValue, Content.property]
  | foreign string braces =>
    unfold Markup.attributeValue
    dsimp only
    split
    · contradiction
    · contradiction
    · rfl

theorem exists_holdsInner {expr : Tree} {rest : List Tree} {p : PropertyValue}
    (h : expressionValue (expr :: rest) = .ok p) : ∃ content, HoldsInner expr content := by
  by_cases hname : expr.kind = .identifier
  · exact ⟨_, .name hname⟩
  · by_cases hstring : expr.kind = .string
    · simp only [expressionValue, hstring] at h
      obtain ⟨found, hfound, -⟩ := bind_eq_ok_iff.mp h
      exact ⟨_, .string hstring hfound⟩
    · by_cases hconstant : IsConstant expr.kind
      · exact ⟨_, .constant hconstant⟩
      · exact ⟨_, .computed hname hstring hconstant⟩

/-- Every value of which there is a property is one of these. -/
theorem exists_holds {value : Option Tree} {p : PropertyValue} (h : attributeValue value = .ok p) :
    ∃ content, Holds value content ∧ p = content.property := by
  have hholds : ∃ content, Holds value content := by
    cases value with
    | none => exact ⟨_, .absent⟩
    | some v =>
      by_cases hstring : v.kind = .string
      · simp only [attributeValue, hstring] at h
        obtain ⟨found, hfound, -⟩ := bind_eq_ok_iff.mp h
        exact ⟨_, .string hstring hfound⟩
      · by_cases hbraces : v.kind = .jsxExpression
        · simp only [attributeValue, hbraces] at h
          cases hinner : v.meaningful with
          | nil => exact ⟨_, .empty hbraces hinner⟩
          | cons expr rest =>
            rw [hinner] at h
            obtain ⟨content, hcontent⟩ := exists_holdsInner h
            exact ⟨content, .inner hbraces hinner hcontent⟩
        · exact ⟨_, .foreign hstring hbraces⟩
  obtain ⟨content, hcontent⟩ := hholds
  rw [hcontent.attributeValue] at h
  exact ⟨content, hcontent, (Except.ok.inj h).symm⟩

/-! ## What a property tells -/

/-- A text that reads like a mark. -/
def ReadsAsMark (text : String) : Prop :=
  (∃ name, text = "expr:" ++ name) ∨ text = "dynamic" ∨ text = "unknown"

theorem isComputed_iff {text : String} : Role.isComputed text = true ↔ ReadsAsMark text := by
  rw [Role.isComputed, Bool.or_eq_true, Bool.or_eq_true, beq_iff_eq, beq_iff_eq, startsWith_iff,
    or_assoc]
  rfl

theorem mark_ne (name : String) : "expr:" ++ name ≠ "dynamic" ∧ "expr:" ++ name ≠ "unknown" := by
  constructor <;> intro h <;> simpa using congrArg String.toList h

namespace Content

variable {content : Content}

theorem property_eq_name_iff {name : String} : content.property = .text ("expr:" ++ name) ↔
    content = .name name ∨ content = .literal ("expr:" ++ name) := by
  have hmarks := mark_ne name
  cases content with
  | name n => simp [property, String.append_right_inj]
  | literal t => simp [property]
  | absent => simp [property]
  | computed => simpa [property] using hmarks.1.symm
  | foreign => simpa [property] using hmarks.2.symm

theorem property_eq_dynamic_iff : content.property = .text "dynamic" ↔
    content = .computed ∨ content = .literal "dynamic" := by
  cases content with
  | name n => simpa [property] using (mark_ne n).1
  | literal t => simp [property]
  | absent => simp [property]
  | computed => simp [property]
  | foreign => simp [property]

theorem property_eq_unknown_iff : content.property = .text "unknown" ↔
    content = .foreign ∨ content = .literal "unknown" := by
  cases content with
  | name n => simpa [property] using (mark_ne n).2
  | literal t => simp [property]
  | absent => simp [property]
  | computed => simp [property]
  | foreign => simp [property]

end Content

section

variable {value : Option Tree} {p : PropertyValue}

/-- A property is that of two contents just when the value is one of them. -/
theorem property_iff (read : attributeValue value = .ok p) {q : PropertyValue} {a b : Content}
    (h : ∀ content : Content, content.property = q ↔ content = a ∨ content = b) :
    p = q ↔ Holds value a ∨ Holds value b := by
  constructor
  · rintro rfl
    obtain ⟨content, hholds, hp⟩ := exists_holds read
    rcases (h content).mp hp.symm with rfl | rfl
    · exact .inl hholds
    · exact .inr hholds
  · have hproperty : ∀ content, Holds value content → content.property = q → p = q := by
      intro content hholds hq
      rw [hholds.attributeValue] at read
      exact (Except.ok.inj read).symm.trans hq
    rintro (hholds | hholds)
    · exact hproperty a hholds ((h a).mpr (.inl rfl))
    · exact hproperty b hholds ((h b).mpr (.inr rfl))

theorem bound_iff (read : attributeValue value = .ok p) (name : String) :
    p = .text ("expr:" ++ name) ↔ Holds value (.name name) ∨ Holds value (.literal ("expr:" ++ name)) :=
  property_iff read fun _ => Content.property_eq_name_iff

theorem dynamic_iff (read : attributeValue value = .ok p) :
    p = .text "dynamic" ↔ Holds value .computed ∨ Holds value (.literal "dynamic") :=
  property_iff read fun _ => Content.property_eq_dynamic_iff

theorem unknown_iff (read : attributeValue value = .ok p) :
    p = .text "unknown" ↔ Holds value .foreign ∨ Holds value (.literal "unknown") :=
  property_iff read fun _ => Content.property_eq_unknown_iff

end

/-- A property tells what the value of its attribute is: its marks say just what stands there, a
sample is made of it for a plain name only, and a literal role is taken at its word. -/
structure Tells (value : Option Tree) (p : PropertyValue) : Prop where
  bound : (∃ name, p = .text ("expr:" ++ name)) ↔ ∃ name, Holds value (.name name)
  dynamic : p = .text "dynamic" ↔ Holds value .computed
  unknown : p = .text "unknown" ↔ Holds value .foreign
  sampled : ∀ name, p.boundName? = some name ↔ Holds value (.name name)
  role : ∀ text, Holds value (.literal text) → ∀ tag properties, Keyed.get? properties "role" = some p →
    Role.declared tag properties = Role.ofAttribute text

/-- A literal that does not read like a mark is told from everything else. -/
theorem tells_of_plain {value : Option Tree} {p : PropertyValue} (read : attributeValue value = .ok p)
    (plain : ∀ text, Holds value (.literal text) → ¬ ReadsAsMark text) : Tells value p := by
  have hname : ∀ name, p = .text ("expr:" ++ name) ↔ Holds value (.name name) := by
    intro name
    rw [bound_iff read]
    exact or_iff_left fun h => plain _ h (.inl ⟨name, rfl⟩)
  refine ⟨exists_congr hname, ?_, ?_, ?_, ?_⟩
  · rw [dynamic_iff read]
    exact or_iff_left fun h => plain _ h (.inr (.inl rfl))
  · rw [unknown_iff read]
    exact or_iff_left fun h => plain _ h (.inr (.inr rfl))
  · intro name
    rw [PropertyValue.boundName?_eq_some_iff, hname]
  · intro text hliteral tag properties hrole
    have hp : p = .text text := by
      rw [hliteral.attributeValue] at read
      exact (Except.ok.inj read).symm
    have hplain : ¬ Role.isComputed text = true := fun h => plain text hliteral (isComputed_iff.mp h)
    rw [Role.declared, hrole, hp]
    exact if_neg hplain

/-- The marks of a property say what the value of its attribute is, or that it is a literal which
reads like the mark; where no literal does, the property tells what the value is. -/
theorem marks_of_attributeValue {value : Option Tree} {p : PropertyValue}
    (read : attributeValue value = .ok p) :
    (∀ name, p = .text ("expr:" ++ name) ↔
      Holds value (.name name) ∨ Holds value (.literal ("expr:" ++ name))) ∧
    (p = .text "dynamic" ↔ Holds value .computed ∨ Holds value (.literal "dynamic")) ∧
    (p = .text "unknown" ↔ Holds value .foreign ∨ Holds value (.literal "unknown")) ∧
    ((∀ text, Holds value (.literal text) → ¬ ReadsAsMark text) → Tells value p) :=
  ⟨bound_iff read, dynamic_iff read, unknown_iff read, tells_of_plain read⟩

/-- The value of the first attribute of the element that a source is. -/
def firstValue (source : String) : Option Tree := (givenIn (elementOf source)).head?.bind (·.value)

/-- A text that is almost a mark. -/
def nearMark : Option Tree := firstValue "<p title=\x7b'expr'\x7d/>"

theorem marks_of_nearMark : attributeValue nearMark = .ok (.text "expr") ∧
    (∀ text, Holds nearMark (.literal text) → ¬ ReadsAsMark text) ∧
    Tells nearMark (.text "expr") := by
  have hread : attributeValue nearMark = .ok (.text "expr") := by decide +kernel
  have hplain : ∀ text, Holds nearMark (.literal text) → ¬ ReadsAsMark text := by
    intro text hliteral
    have htext : text = "expr" := by
      have hproperty := hliteral.attributeValue
      rw [hread] at hproperty
      exact (PropertyValue.text.inj (Except.ok.inj hproperty)).symm
    rw [htext, ← isComputed_iff]
    decide +kernel
  exact ⟨hread, hplain, (marks_of_attributeValue hread).2.2.2 hplain⟩

/-- A literal that begins like a bound name is sampled like one. -/
theorem marks_of_markedValue :
    attributeValue (firstValue "<p title='expr:x'/>") = .ok (.text "expr:x") ∧
      (PropertyValue.text "expr:x").boundName? = some "x" ∧
      ¬ Tells (firstValue "<p title='expr:x'/>") (.text "expr:x") := by
  have hread : attributeValue (firstValue "<p title='expr:x'/>") = .ok (.text "expr:x") := by
    decide +kernel
  have hkind : (firstValue "<p title='expr:x'/>").map (·.kind) = some .string := by decide +kernel
  refine ⟨hread, by decide +kernel, fun tells => ?_⟩
  obtain ⟨name, hname⟩ := tells.bound.mp ⟨"x", rfl⟩
  generalize firstValue "<p title='expr:x'/>" = value at hkind hname
  cases hname with
  | inner kind inner holds =>
    rw [Option.map_some, kind] at hkind
    cases hkind

end Markup

end SuiteDraft
