import SuiteDraft.Grammar.Lexeme
import SuiteDraft.Proofs.Source.Marks

/-!
# Sources by their characters

A source without broken bytes is as good as the characters that it spells: what a scan finds in it is
said in terms of them.
-/

namespace SuiteDraft

theorem Glyph.ofText_append (a b : String) : ofText (a ++ b) = ofText a ++ ofText b := by
  rw [ofText, String.toList_append, List.map_append]
  rfl

namespace Input

/-- What is left of a source are these characters, each in order and numbered from the end. -/
inductive Spells : Input → List Char → Prop
  | nil : Spells [] []
  | cons {m : Mark} {s : Input} {c : Char} {cs : List Char} (char : m.char = c)
      (sound : m.sound = true) (left : m.left = cs.length + 1) (rest : Spells s cs) :
      Spells (m :: s) (c :: cs)

namespace Spells

variable {s : Input} {cs : List Char}

theorem chars_eq (h : Spells s cs) : s.chars = cs := by
  induction h with
  | nil => rfl
  | cons char sound left rest ih => exact congrArg₂ List.cons char ih

theorem numbered (h : Spells s cs) : s.Numbered := by
  induction h with
  | nil => trivial
  | cons char sound left rest ih =>
    rw [← rest.chars_eq, length_chars] at left
    exact ⟨left, ih⟩

theorem left_eq (h : Spells s cs) : s.left = cs.length := by
  rw [h.numbered.left_eq, ← length_chars, h.chars_eq]

theorem drop (h : Spells s cs) (n : Nat) : Spells (s.drop n) (cs.drop n) := by
  induction n generalizing s cs with
  | zero => exact h
  | succ n ih =>
    cases h with
    | nil => exact .nil
    | cons char sound left rest => exact ih rest

theorem startsWith_eq (h : Spells s cs) (word : List Char) : s.startsWith word = word.isPrefixOf cs := by
  rw [Input.startsWith_eq, h.chars_eq]

theorem exactly_eq (h : Spells s cs) (word : String) (hword : word.toList <+: cs) :
    Grammar.exactly word s = some (s.drop word.toList.length) := by
  rw [Grammar.exactly, h.startsWith_eq, List.isPrefixOf_iff_prefix.mpr hword]
  rfl

theorem skipWhile_eq (h : Spells s cs) {p : Char → Bool} (stop : ∀ c ∈ cs.head?, p c = false) :
    s.skipWhile p = s := by
  cases h with
  | nil => rfl
  | cons char sound left rest => exact if_neg (by rw [char, stop _ rfl]; exact Bool.false_ne_true)

theorem skipWhile_cons_eq {c : Char} (h : Spells s (c :: cs)) {p : Char → Bool} (begins : p c = true)
    (stop : ∀ c ∈ cs.head?, p c = false) : s.skipWhile p = s.drop 1 := by
  cases h with
  | cons char sound left rest => exact (if_pos (by rw [char, begins])).trans (rest.skipWhile_eq stop)

theorem of_marksFrom (p : Position) (cs : List Char) :
    Spells (marksFrom p cs.length (cs.map fun c => ⟨c, c.utf8Size, true⟩)) cs := by
  induction cs generalizing p with
  | nil => exact .nil
  | cons c cs ih => exact .cons rfl rfl rfl (ih _)

/-- A text as a source spells itself. -/
theorem of_text (text : String) : Spells (ofGlyphs (Glyph.ofText text)) text.toList := by
  rw [ofGlyphs, Glyph.ofText, List.length_map]
  exact of_marksFrom _ _

end Spells

end Input

end SuiteDraft
