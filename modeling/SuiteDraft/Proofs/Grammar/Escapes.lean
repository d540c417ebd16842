import SuiteDraft.Proofs.Analysis.LiteralParts
import SuiteDraft.Proofs.Grammar.Scans

/-!
# Escapes as the grammar finds them

The grammar takes what is written of an escape as one word. In two places its word is longer than
the escape: a line or paragraph separator that stands as it is after a backslash and a carriage
return, or after a backslash and a question mark, is part of the word before it.
-/

namespace SuiteDraft.Literal

open Grammar

def isOctal (c : Char) : Bool := '0' ≤ c && c ≤ '7'

-- A character that has no form of its own right after a backslash.
def isSimple (c : Char) : Bool := !(c == 'x' || c == 'u' || isOctal c)

-- A character after which a break may belong to the same word.
def mayBreak (c : Char) : Bool := c == '\r' || c == '?'

def isBreak (c : Char) : Bool := c == '\n' || c == '\u2028' || c == '\u2029'

def broken : Scan := (charIf mayBreak).andThen (charIf isBreak)

/-- The forms of what follows the backslash of an escape. -/
def escapeForms : List Scan := [
  charIf isSimple,
  between isOctal 1 2,
  (exactly "x").andThen (between isHexDigit 2 0),
  (exactly "u").andThen (between isHexDigit 4 0),
  ((exactly "u\x7b").andThen (run1 isHexDigit)).andThen (exactly "\x7d"),
  broken]

theorem escape_eq : escape = (exactly "\\").andThen (longest escapeForms) := rfl

variable {c : Char} {after : List Char}

theorem finds_escape {body : List Char} {found : List (Option Nat)}
    (h : List.Forall₂ (fun scan word => Finds scan body word) escapeForms found) :
    Finds escape ('\\' :: body) ((found.foldl max none).map (1 + ·)) :=
  Finds.andThen_some (Finds.exactly_append "\\" body) (Finds.longest h)

theorem broken_first (h : mayBreak c = false) : Finds broken (c :: after) none :=
  Finds.andThen_none (Finds.charIf_not h)

theorem broken_second (h : mayBreak c = true) (stop : ∀ d ∈ after.head?, isBreak d = false) :
    Finds broken (c :: after) none :=
  Finds.andThen_some (Finds.charIf_some h after) (Finds.charIf_none stop)

theorem broken_both {d : Char} (h : mayBreak c = true) (hd : isBreak d = true) :
    Finds broken (c :: d :: after) (some 2) :=
  Finds.andThen_some (Finds.charIf_some h (d :: after)) (Finds.charIf_some hd after)

theorem finds_simple (simple : isSimple c = true) {last : Option Nat}
    (hlast : Finds broken (c :: after) last) :
    Finds escape ('\\' :: c :: after) ((max (some 1) last).map (1 + ·)) := by
  have ⟨x, u, octal⟩ : c ≠ 'x' ∧ c ≠ 'u' ∧ isOctal c = false := by
    simpa only [isSimple, Bool.not_eq_true', Bool.or_eq_false_iff, beq_eq_false_iff_ne, and_assoc]
      using simple
  exact finds_escape (.cons (Finds.charIf_some simple after)
    (.cons (Finds.between_not (by omega) octal)
    (.cons (Finds.andThen_none (Finds.exactly_not rfl x.symm))
    (.cons (Finds.andThen_none (Finds.exactly_not rfl u.symm))
    (.cons (Finds.andThen_none (Finds.andThen_none (Finds.exactly_not rfl u.symm)))
    (.cons hlast .nil))))))

theorem finds_null (stop : ∀ d ∈ after.head?, isOctal d = false) :
    Finds escape ('\\' :: '0' :: after) (some 2) := by
  have octal : Finds (between isOctal 1 2) ('0' :: after) (some 1) := by
    have stop' : ∀ d ∈ (after.take 2).head?, isOctal d = false := by
      cases after with
      | nil => nofun
      | cons e after => exact stop
    have zero : ∀ d ∈ ['0'], isOctal d = true := fun d hd => by
      rw [List.mem_singleton.mp hd]
      rfl
    exact Finds.between_run zero (Nat.le_refl 1) (Nat.le_add_right 1 2) stop'
  exact finds_escape (.cons (Finds.charIf_not rfl)
    (.cons octal
    (.cons (Finds.andThen_none (Finds.exactly_not rfl (by decide)))
    (.cons (Finds.andThen_none (Finds.exactly_not rfl (by decide)))
    (.cons (Finds.andThen_none (Finds.andThen_none (Finds.exactly_not rfl (by decide))))
    (.cons (broken_first rfl) .nil))))))

theorem between_hex {digits : List Char} {n : Nat} (length_eq : digits.length = n)
    (hex : ∀ c ∈ digits, isHexDigit c = true) (after : List Char) :
    Finds (between isHexDigit n 0) (digits ++ after) (some n) := by
  subst length_eq
  apply Finds.between_run hex (Nat.le_refl _) (Nat.le_refl _)
  rw [Nat.add_zero, Nat.sub_self, List.take_zero]
  nofun

theorem finds_two {digits : List Char} (length_eq : digits.length = 2)
    (hex : ∀ c ∈ digits, isHexDigit c = true) :
    Finds escape ('\\' :: 'x' :: (digits ++ after)) (some 4) := by
  have number := between_hex length_eq hex after
  have word : Finds ((exactly "x").andThen (between isHexDigit 2 0)) ('x' :: (digits ++ after))
      (some 3) :=
    Finds.andThen_some (Finds.exactly_append "x" (digits ++ after)) number
  exact finds_escape (.cons (Finds.charIf_not rfl)
    (.cons (Finds.between_not (by omega) rfl)
    (.cons word
    (.cons (Finds.andThen_none (Finds.exactly_not rfl (by decide)))
    (.cons (Finds.andThen_none (Finds.andThen_none (Finds.exactly_not rfl (by decide))))
    (.cons (broken_first rfl) .nil))))))

theorem finds_four {digits : List Char} (length_eq : digits.length = 4)
    (hex : ∀ c ∈ digits, isHexDigit c = true) :
    Finds escape ('\\' :: 'u' :: (digits ++ after)) (some 6) := by
  have number := between_hex length_eq hex after
  have word : Finds ((exactly "u").andThen (between isHexDigit 4 0)) ('u' :: (digits ++ after))
      (some 5) :=
    Finds.andThen_some (Finds.exactly_append "u" (digits ++ after)) number
  have brace : Finds (exactly "u\x7b") ('u' :: (digits ++ after)) none := by
    cases digits with
    | nil => cases length_eq
    | cons d digits =>
      have hd : '\x7b' ≠ d := by
        intro d_eq
        exact absurd (hex d List.mem_cons_self) (by rw [← d_eq]; decide)
      apply Finds.exactly_none
      simp [List.isPrefixOf, hd]
  exact finds_escape (.cons (Finds.charIf_not rfl)
    (.cons (Finds.between_not (by omega) rfl)
    (.cons (Finds.andThen_none (Finds.exactly_not rfl (by decide)))
    (.cons word
    (.cons (Finds.andThen_none (Finds.andThen_none brace))
    (.cons (broken_first rfl) .nil))))))

theorem finds_point {digits : List Char} (nonempty : digits ≠ [])
    (hex : ∀ c ∈ digits, isHexDigit c = true) (after : List Char) :
    Finds escape ('\\' :: 'u' :: '\x7b' :: (digits ++ '\x7d' :: after))
      (some (digits.length + 4)) := by
  cases digits with
  | nil => exact absurd rfl nonempty
  | cons d rest =>
    have inner : Finds (run1 isHexDigit) (d :: rest ++ '\x7d' :: after) (some (d :: rest).length) :=
      Finds.run1_run hex (fun _ he => Option.some.inj he ▸ rfl)
    have opening : Finds ((exactly "u\x7b").andThen (run1 isHexDigit))
        ('u' :: '\x7b' :: (d :: rest ++ '\x7d' :: after)) (some (2 + (d :: rest).length)) :=
      Finds.andThen_some (Finds.exactly_append "u\x7b" (d :: rest ++ '\x7d' :: after)) inner
    have closing : Finds (exactly "\x7d")
        (('u' :: '\x7b' :: (d :: rest ++ '\x7d' :: after)).drop (2 + (d :: rest).length))
        (some 1) := by
      rw [Nat.add_comm, List.drop_succ_cons, List.drop_succ_cons, List.drop_left]
      exact Finds.exactly_append "\x7d" after
    have four : Finds ((exactly "u").andThen (between isHexDigit 4 0))
        ('u' :: '\x7b' :: (d :: rest ++ '\x7d' :: after)) none :=
      Finds.andThen_some (Finds.exactly_append "u" ('\x7b' :: (d :: rest ++ '\x7d' :: after)))
        (Finds.between_not (by omega) rfl)
    have sum : (d :: rest).length + 4 = 1 + (2 + (d :: rest).length + 1) := by omega
    rw [sum]
    exact finds_escape (.cons (Finds.charIf_not rfl)
      (.cons (Finds.between_not (by omega) rfl)
      (.cons (Finds.andThen_none (Finds.exactly_not rfl (by decide)))
      (.cons four
      (.cons (Finds.andThen_some opening closing)
      (.cons (broken_first rfl) .nil))))))

/-! ### The word of a part -/

/-- The character belongs to the word that begins with this escape. -/
def Part.draws : Part → Char → Bool
  | control .null, d => isOctal d
  | itself c, d => c == '?' && isBreak d
  | joined e, d => e == .carriageReturn && isBreak d
  | _, _ => false

theorem isSimple_letter {k : Control} (h : k ≠ .null) : isSimple k.letter = true := by
  cases k <;> first | rfl | exact absurd rfl h

theorem isDigit_of_isOctal {d : Char} (h : isOctal d = true) : d.isDigit = true := by
  simp only [isOctal, Char.isDigit, Bool.and_eq_true, decide_eq_true_eq, Char.le_def,
    UInt32.le_iff_toNat_le] at h ⊢
  have seven : '7'.val.toNat = 55 := rfl
  have nine : '9'.val.toNat = 57 := rfl
  exact ⟨h.1, by omega⟩

theorem isSimple_itself {quote : Char} (valid : (Part.itself c).Valid quote) :
    isSimple c = true := by
  have ⟨digit, x, u, _, _⟩ := valid
  have octal : isOctal c = false := by
    cases found : isOctal c with
    | false => rfl
    | true => exact absurd (isDigit_of_isOctal found) (by rw [digit]; exact Bool.false_ne_true)
  rw [isSimple, beq_eq_false_iff_ne.mpr x, beq_eq_false_iff_ne.mpr u, octal]
  rfl

theorem mayBreak_itself {quote : Char} (valid : (Part.itself c).Valid quote) :
    mayBreak c = (c == '?') := by
  have ⟨_, _, _, lineEnd, _⟩ := valid
  simp only [endsLine, Bool.or_eq_false_iff] at lineEnd
  rw [mayBreak, lineEnd.1.1.2, Bool.false_or]

/-- An escape is found as one word, unless the next character belongs to its word. -/
theorem finds_write {quote : Char} {p : Part} (valid : p.Valid quote) (escaped : ¬ p.IsRaw)
    (stop : ∀ d ∈ after.head?, p.draws d = false) :
    Finds escape (p.write ++ after) (some p.write.length) := by
  cases p with
  | raw c => exact absurd ⟨c, rfl⟩ escaped
  | control k =>
    by_cases null : k = .null
    · subst null
      exact finds_null stop
    · exact finds_simple (isSimple_letter null) (broken_first (by cases k <;> rfl))
  | itself c =>
    have simple := isSimple_itself valid
    by_cases question : c = '?'
    · subst question
      exact finds_simple simple (broken_second rfl stop)
    · have first : mayBreak c = false := by
        rw [mayBreak_itself valid, beq_eq_false_iff_ne.mpr question]
      exact finds_simple simple (broken_first first)
  | unit w digits =>
    have length_eq := valid.1
    cases w with
    | two =>
      rw [Part.write, List.length_cons, List.length_cons, length_eq]
      exact finds_two length_eq valid.2
    | four =>
      rw [Part.write, List.length_cons, List.length_cons, length_eq]
      exact finds_four length_eq valid.2
  | point digits =>
    have found := finds_point valid.1 valid.2.1 after
    simpa [Part.write] using found
  | joined e =>
    cases e with
    | lineFeed => exact finds_simple rfl (broken_first rfl)
    | carriageReturn => exact finds_simple rfl (broken_second rfl stop)
    | both => exact finds_simple rfl (broken_both rfl rfl)
    | lineSeparator => exact finds_simple rfl (broken_first rfl)
    | paragraphSeparator => exact finds_simple rfl (broken_first rfl)

/-- A break that belongs to the word of an escape. -/
theorem finds_write_break {quote : Char} {p : Part} (valid : p.Valid quote) {d : Char}
    (hd : isBreak d = true) (draws : p.draws d = true) :
    Finds escape (p.write ++ d :: after) (some (p.write.length + 1)) := by
  cases p with
  | raw c => cases draws
  | control k =>
    have octal : isOctal d = false := by
      simp only [isBreak, Bool.or_eq_true, beq_iff_eq] at hd
      cases hd with
      | inl hd => cases hd with
        | inl hd => rw [hd]; rfl
        | inr hd => rw [hd]; rfl
      | inr hd => rw [hd]; rfl
    cases k <;> simp [Part.draws, octal] at draws
  | itself c =>
    have question : c = '?' := by
      rw [Part.draws, Bool.and_eq_true, beq_iff_eq] at draws
      exact draws.1
    subst question
    exact finds_simple rfl (broken_both rfl hd)
  | unit w digits => cases draws
  | point digits => cases draws
  | joined e =>
    have return_eq : e = .carriageReturn := by
      rw [Part.draws, Bool.and_eq_true, beq_iff_eq] at draws
      exact draws.1
    subst return_eq
    exact finds_simple rfl (broken_both rfl hd)

end SuiteDraft.Literal
