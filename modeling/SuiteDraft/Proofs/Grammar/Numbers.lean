import SuiteDraft.Proofs.Grammar.Scans

/-!
# Numbers

A word that begins with neither a digit nor a point is no number. The number one is read to its end,
if nothing follows that could go on with it.
-/

namespace SuiteDraft.Grammar

variable {c : Char} {cs after : List Char} {p : Char → Bool} {a : Scan}

namespace Finds

theorem orSkip_none (h : Finds a cs none) : Finds a.orSkip cs (some 0) where
  le n hn := by rw [← Option.some.inj hn]; exact Nat.zero_le _
  eq s numbered hs := by rw [Scan.orSkip, h.eq s numbered hs]; rfl

theorem exactly_other {word : String} {d : Char} {ds : List Char} (word_eq : word.toList = d :: ds)
    (h : ∀ c ∈ cs.head?, c ≠ d) : Finds (exactly word) cs none := by
  cases cs with
  | nil => exact exactly_none (by rw [word_eq]; rfl)
  | cons c cs => exact exactly_not word_eq (h c rfl).symm

theorem digits_single (h : p c = true) (stop : ∀ d ∈ cs.head?, p d = false ∧ d ≠ '_') :
    Finds (digits p) (c :: cs) (some 1) := by
  have groups : Finds (fun s => some (digitGroups p (s.left + 1) s)) cs (some 0) := by
    refine ⟨fun n hn => by rw [← Option.some.inj hn]; exact Nat.zero_le _, fun s numbered hs => ?_⟩
    have skips : s.skipWhile p = s := by
      rw [Input.skipWhile_eq_drop, hs]
      cases cs with
      | nil => rfl
      | cons d cs => rw [List.takeWhile_cons_of_neg (by simp [(stop d rfl).1])]; rfl
    have noBar : Finds (exactly "_") cs none := exactly_other rfl fun d hd => (stop d hd).2
    simp [digitGroups, skips, noBar.eq s numbered hs]
  exact andThen_some (charIf_some h cs) groups

end Finds

/-- A character that could go on with a number. -/
def isNumberPart (c : Char) : Bool := isHexDigit c || "_.nxXoO".toList.contains c

theorem not_of_isNumberPart (h : isNumberPart c = false) :
    isHexDigit c = false ∧ c ≠ '_' ∧ c ≠ '.' ∧ c ≠ 'n' := by
  rw [isNumberPart, Bool.or_eq_false_iff] at h
  refine ⟨h.1, ?_, ?_, ?_⟩ <;> rintro rfl <;> exact absurd h.2 (by decide)

theorem not_isDigit_of_isHexDigit (h : isHexDigit c = false) : c.isDigit = false := by
  simp only [isHexDigit, Bool.or_eq_false_iff] at h
  exact h.1.1

/-- A number with a base begins with a zero. -/
theorem finds_based_none {low up : String} {ds es : List Char} (low_eq : low.toList = '0' :: ds)
    (up_eq : up.toList = '0' :: es) (positive : c ≠ '0') : Finds (based low up p) (c :: cs) none :=
  Finds.andThen_none (Finds.longest (.cons (Finds.exactly_not low_eq positive.symm)
    (.cons (Finds.exactly_not up_eq positive.symm) .nil)))

theorem finds_exponent_none (stop : ∀ d ∈ cs.head?, isHexDigit d = false) : Finds exponent cs none := by
  refine Finds.andThen_none (Finds.charIf_none fun d hd => ?_)
  have hex := stop d hd
  rw [Bool.or_eq_false_iff, beq_eq_false_iff_ne, beq_eq_false_iff_ne]
  constructor <;> rintro rfl <;> exact absurd hex (by decide)

theorem finds_noNumber (digit : c.isDigit = false) (point : c ≠ '.') : Finds number (c :: cs) none := by
  have zero : c ≠ '0' := by rintro rfl; exact absurd digit (by decide)
  have positive : (decide ('1' ≤ c) && decide (c ≤ '9')) = false := by
    rw [← Bool.not_eq_true]
    intro inside
    rw [Bool.and_eq_true, decide_eq_true_eq, decide_eq_true_eq] at inside
    have isDigit : c.isDigit = true := by
      have least : '0' ≤ c := Char.le_trans (show '0' ≤ '1' by decide) inside.1
      simp only [Char.isDigit, Bool.and_eq_true, decide_eq_true_eq]
      exact ⟨least, inside.2⟩
    rw [isDigit] at digit
    cases digit
  have noZero : Finds (exactly "0") (c :: cs) none := Finds.exactly_not rfl zero.symm
  have whole : Finds wholeNumber (c :: cs) none :=
    Finds.longest (.cons (finds_based_none rfl rfl zero) (.cons (finds_based_none rfl rfl zero)
      (.cons (finds_based_none rfl rfl zero) (.cons (Finds.andThen_none (Finds.charIf_not digit)) .nil))))
  have leading : Finds leadingPart (c :: cs) none :=
    Finds.longest (.cons noZero (.cons
      (Finds.andThen_some (Finds.orSkip_none noZero) (Finds.andThen_none (Finds.charIf_not positive))) .nil))
  exact Finds.longest (.cons whole (.cons (Finds.andThen_none whole) (.cons (Finds.andThen_none leading)
    (.cons (Finds.andThen_none (Finds.exactly_not rfl point.symm)) (.cons (Finds.andThen_none leading) .nil)))))

theorem finds_one (stop : ∀ d ∈ after.head?, isNumberPart d = false) :
    Finds number ('1' :: after) (some 1) := by
  have parts : ∀ d ∈ after.head?, isHexDigit d = false ∧ d ≠ '_' ∧ d ≠ '.' ∧ d ≠ 'n' := fun d hd =>
    not_of_isNumberPart (stop d hd)
  have noDigit : ∀ d ∈ after.head?, d.isDigit = false := fun d hd =>
    not_isDigit_of_isHexDigit (parts d hd).1
  have noPower : Finds exponent after none := finds_exponent_none fun d hd => (parts d hd).1
  have one : '1' ≠ '0' := by decide
  have whole : Finds wholeNumber ('1' :: after) (some 1) :=
    Finds.longest (.cons (finds_based_none rfl rfl one) (.cons (finds_based_none rfl rfl one)
      (.cons (finds_based_none rfl rfl one)
        (.cons (Finds.digits_single (by decide) fun d hd => ⟨noDigit d hd, (parts d hd).2.1⟩) .nil))))
  have noZero : Finds (exactly "0") ('1' :: after) none := Finds.exactly_not rfl (by decide)
  have noMore : Finds (((exactly "_").orSkip).andThen (digits Char.isDigit)) after none :=
    Finds.andThen_some (Finds.orSkip_none (Finds.exactly_other rfl fun d hd => (parts d hd).2.1))
      (Finds.andThen_none (Finds.charIf_none noDigit))
  have leading : Finds leadingPart ('1' :: after) (some 1) :=
    Finds.longest (.cons noZero (.cons (Finds.andThen_some (Finds.orSkip_none noZero)
      (Finds.andThen_some (Finds.charIf_some (by decide) after) (Finds.orSkip_none noMore))) .nil))
  exact Finds.longest (.cons whole
    (.cons (Finds.andThen_some whole (Finds.exactly_other rfl fun d hd => (parts d hd).2.2.2))
    (.cons (Finds.andThen_some leading
      (Finds.andThen_none (Finds.exactly_other rfl fun d hd => (parts d hd).2.2.1)))
    (.cons (Finds.andThen_none (Finds.exactly_not rfl (by decide)))
    (.cons (Finds.andThen_some leading noPower) .nil)))))

end SuiteDraft.Grammar
