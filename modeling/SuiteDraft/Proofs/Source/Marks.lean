import Mathlib.Tactic
import SuiteDraft.Source.Mark

/-!
# What is left of a source

The marks that are left by their characters and by their number. Every place of every source is
numbered from its end, broken bytes or not.
-/

namespace SuiteDraft

namespace Input

/-- The characters of what is left of a source. -/
def chars (s : Input) : List Char := s.map (·.char)

/-- Each mark says how many marks are left. -/
def Numbered : Input → Prop
  | [] => True
  | m :: rest => m.left = rest.length + 1 ∧ Numbered rest

theorem chars_drop (s : Input) (n : Nat) : chars (s.drop n) = s.chars.drop n := List.map_drop

theorem length_chars (s : Input) : s.chars.length = s.length := List.length_map _

theorem numbered_marksFrom (p : Position) (glyphs : List Glyph) :
    Numbered (marksFrom p glyphs.length glyphs) := by
  induction glyphs generalizing p with
  | nil => trivial
  | cons g rest ih =>
    refine ⟨?_, ih _⟩
    have length_eq : ∀ (p : Position) (n : Nat) (glyphs : List Glyph),
        (marksFrom p n glyphs).length = glyphs.length := by
      intro p n glyphs
      induction glyphs generalizing p n with
      | nil => rfl
      | cons g rest ih => simp only [marksFrom, List.length_cons, ih]
    show (g :: rest).length = _
    rw [length_eq]
    rfl

theorem numbered_ofGlyphs (glyphs : List Glyph) : Numbered (ofGlyphs glyphs) :=
  numbered_marksFrom _ glyphs

theorem chars_marksFrom (p : Position) (n : Nat) (glyphs : List Glyph) :
    chars (marksFrom p n glyphs) = glyphs.map (·.char) := by
  induction glyphs generalizing p n with
  | nil => rfl
  | cons g rest ih => exact congrArg (g.char :: ·) (ih _ _)

theorem chars_ofGlyphs (glyphs : List Glyph) : chars (ofGlyphs glyphs) = glyphs.map (·.char) :=
  chars_marksFrom _ _ glyphs

variable {s : Input}

theorem Numbered.left_eq (h : Numbered s) : s.left = s.length := by
  cases s with
  | nil => rfl
  | cons m rest => exact h.1

theorem Numbered.drop (h : Numbered s) (n : Nat) : Numbered (s.drop n) := by
  induction n generalizing s with
  | zero => exact h
  | succ n ih =>
    cases s with
    | nil => trivial
    | cons m rest => exact ih h.2

theorem Numbered.left_drop (h : Numbered s) (n : Nat) : left (s.drop n) = s.length - n := by
  rw [(h.drop n).left_eq, List.length_drop]

theorem Numbered.upTo_drop (h : Numbered s) {n : Nat} (hn : n ≤ s.length) :
    upTo s (s.drop n) = String.ofList (s.chars.take n) := by
  rw [upTo, h.left_eq, h.left_drop, Nat.sub_sub_self hn, chars, List.map_take]

theorem startsWith_eq (s : Input) (word : List Char) :
    s.startsWith word = word.isPrefixOf s.chars := by
  induction word generalizing s with
  | nil => cases s <;> rfl
  | cons c word ih =>
    cases s with
    | nil => rfl
    | cons m rest =>
      show (m.char == c && startsWith rest word) = (c == m.char && word.isPrefixOf (chars rest))
      rw [ih, Bool.beq_comm]

theorem skipWhile_eq_drop (p : Char → Bool) (s : Input) :
    s.skipWhile p = s.drop (s.chars.takeWhile p).length := by
  induction s with
  | nil => rfl
  | cons m rest ih =>
    rw [skipWhile, chars, List.map_cons, List.takeWhile_cons]
    split
    next passes => rw [ih]; rfl
    next fails => rfl

theorem length_takeWhile_chars (p : Char → Bool) (s : Input) :
    (s.takeWhile fun m => p m.char).length = (s.chars.takeWhile p).length := by
  rw [chars, List.takeWhile_map, List.length_map]
  rfl

end Input

end SuiteDraft
