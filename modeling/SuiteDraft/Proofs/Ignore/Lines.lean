import Mathlib.Data.List.DropRight
import SuiteDraft.Proofs.Ignore.Confinement

/-!
# What a line becomes

A line without its marks is written in terms of the root, tied to the directory of its ignore file or at any
depth below, and trimmed where it ends.
-/

namespace SuiteDraft.Ignore

/-- The rule that a line of the ignore file at the end of a way gives. -/
def ruleIn (line way : List Char) : Except RuleError (Option Rule) :=
  match relocate line way with
  | none => .ok none
  | some relocated => Rule.ofLine? relocated

/-- A text without the mark at its start. -/
def unmarked (mark : Char) : List Char → List Char
  | [] => []
  | c :: rest => if c == mark then rest else c :: rest

/-- The body of a line: without the blanks at its end, the mark that takes paths back, and the slash that
ties it to its directory. -/
def bodyOf (line : List Char) : List Char := unmarked '/' (unmarked '!' (Text.trimRight line))

/-- A text in terms of the root, tied to its directory or at any depth below. -/
def written (tied : Bool) (way text : List Char) : List Char :=
  let lead := if way.isEmpty then [] else way ++ ['/']
  if tied then '/' :: lead ++ text else lead ++ ['*', '*', '/'] ++ text

def mark (negated : Bool) : List Char := if negated then ['!'] else []

theorem head?_ne_of_ne_cons {c : Char} {s : List Char} (h : ∀ rest, s ≠ c :: rest) : s.head? ≠ some c := by
  intro hhead
  obtain ⟨rest, hrest⟩ := List.head?_eq_some_iff.mp hhead
  exact h rest hrest

theorem unmarked_of_head {c : Char} {s : List Char} (h : s.head? ≠ some c) : unmarked c s = s := by
  cases s with
  | nil => rfl
  | cons d s =>
    have hd : d ≠ c := fun hd => h (congrArg some hd)
    exact if_neg (by simpa using hd)

/-- Whether a body is tied to its directory: by a slash anywhere but at its end. -/
def isTied (body : List Char) : Bool := body.head? == some '/' || (trimEnd '/' body).contains '/'

theorem relocateBody_eq (body way : List Char) :
    relocateBody body way = written (isTied body) way (unmarked '/' body) := by
  unfold relocateBody written
  generalize (if way.isEmpty then [] else way ++ ['/']) = lead
  dsimp only
  split
  · rfl
  · rename_i hslash
    have hhead := head?_ne_of_ne_cons hslash
    have hfirst : (body.head? == some '/') = false := by simpa using hhead
    rw [unmarked_of_head hhead, isTied, hfirst, Bool.false_or]

/-- What a line becomes that may give a rule. -/
theorem relocate_eq {line : List Char} (h : isSilent (trimEnd '\n' line) = false) (way : List Char) :
    relocate line way =
      some (mark ((trimEnd '\n' line).head? == some '!') ++
        written (isTied (unmarked '!' (trimEnd '\n' line))) way
          (unmarked '/' (unmarked '!' (trimEnd '\n' line)))) := by
  unfold relocate
  dsimp only
  rw [h, if_neg Bool.false_ne_true]
  split
  · rename_i body hbody
    rw [hbody, relocateBody_eq]
    rfl
  · rename_i hmark
    have hhead := head?_ne_of_ne_cons hmark
    have hfirst : ((trimEnd '\n' line).head? == some '!') = false := by simpa using hhead
    rw [unmarked_of_head hhead, hfirst, relocateBody_eq]
    rfl

theorem relocate_of_silent {line : List Char} (h : isSilent (trimEnd '\n' line) = true) (way : List Char) :
    relocate line way = none := by
  unfold relocate
  exact if_pos h

theorem unmarked_trimRight {c : Char} (hc : Text.isBlank c = false) (s : List Char) :
    unmarked c (Text.trimRight s) = Text.trimRight (unmarked c s) := by
  by_cases hhead : s.head? = some c
  · obtain ⟨rest, rfl⟩ := List.head?_eq_some_iff.mp hhead
    have htrim := Text.trimRight_append hc [] rest
    rw [List.nil_append, List.nil_append] at htrim
    simp [htrim, unmarked]
  · have hfirst : (Text.trimRight s).head? ≠ some c := by
      intro htrim
      obtain ⟨rest, hrest⟩ := List.head?_eq_some_iff.mp htrim
      obtain ⟨after, hafter⟩ : Text.trimRight s <+: s := List.rdropWhile_prefix _ s
      rw [hrest] at hafter
      exact hhead (by rw [← hafter]; rfl)
    rw [unmarked_of_head hhead, unmarked_of_head hfirst]

theorem trimRight_trimEnd {c : Char} (hc : Text.isBlank c = true) (s : List Char) :
    Text.trimRight (trimEnd c s) = Text.trimRight s := by
  unfold Text.trimRight trimEnd
  rw [List.reverse_reverse]
  congr 1
  induction s.reverse with
  | nil => rfl
  | cons d s ih =>
    by_cases hd : d = c
    · subst hd
      simp [hc, ih]
    · simp [hd]

theorem bodyOf_eq (line : List Char) :
    bodyOf line = Text.trimRight (unmarked '/' (unmarked '!' (trimEnd '\n' line))) := by
  rw [bodyOf, ← unmarked_trimRight (by decide), ← unmarked_trimRight (by decide),
    trimRight_trimEnd (by decide)]

theorem trimLine_append (pre text : List Char) :
    trimLine (pre ++ '/' :: text) = pre ++ '/' :: trimLine text := by
  have hescape : [' ', '\\'].isPrefixOf (pre ++ '/' :: text).reverse =
      [' ', '\\'].isPrefixOf text.reverse := by
    rw [List.reverse_append, List.reverse_cons]
    match text.reverse with
    | [] => rfl
    | [c] => simp [List.isPrefixOf]
    | c :: d :: rest => rfl
  rw [trimLine, trimLine, hescape]
  split
  · rfl
  · exact Text.trimRight_append (by decide) pre text

theorem written_eq_append (tied : Bool) (way : List Char) :
    ∃ pre, ∀ text, written tied way text = pre ++ '/' :: text := by
  cases way with
  | nil =>
    cases tied
    · exact ⟨['*', '*'], fun _ => rfl⟩
    · exact ⟨[], fun _ => rfl⟩
  | cons c way =>
    cases tied
    · exact ⟨c :: way ++ ['/', '*', '*'], fun _ => by simp [written]⟩
    · exact ⟨'/' :: c :: way, fun _ => by simp [written]⟩

theorem written_ne_slash {text : List Char} (h : text ≠ []) (tied : Bool) (way : List Char) :
    written tied way text ≠ ['/'] := by
  obtain ⟨pre, hpre⟩ := written_eq_append tied way
  have hlength := List.length_pos_of_ne_nil h
  intro hslash
  rw [hpre] at hslash
  replace hslash := congrArg List.length hslash
  simp only [List.length_append, List.length_cons, List.length_nil] at hslash
  omega

theorem trimLine_written (negated tied : Bool) (way text : List Char) :
    trimLine (mark negated ++ written tied way text) = mark negated ++ written tied way (trimLine text) := by
  obtain ⟨pre, hpre⟩ := written_eq_append tied way
  rw [hpre, hpre, ← List.append_assoc, trimLine_append, List.append_assoc]

theorem ofLine?_eq {line body : List Char} {negated : Bool} (htrim : trimLine line = mark negated ++ body)
    (hhead : body.head? ∉ [none, some '!', some '#']) (hslash : body ≠ ['/']) :
    Rule.ofLine? line = (patternOf body).map (Option.map (⟨negated, ·⟩)) := by
  unfold Rule.ofLine?
  dsimp only
  rw [htrim, ← bind_map_eq]
  cases negated with
  | true => rfl
  | false =>
    obtain ⟨c, rest, rfl⟩ : ∃ c rest, body = c :: rest := by
      apply List.exists_cons_of_ne_nil
      rintro rfl
      simp at hhead
    have hmark : mark false ++ c :: rest = c :: rest := rfl
    rw [hmark]
    split
    all_goals simp_all

end SuiteDraft.Ignore
