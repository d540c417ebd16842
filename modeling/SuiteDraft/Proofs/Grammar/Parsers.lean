import SuiteDraft.Proofs.Grammar.Scans

/-!
# Parsers by the characters before them

What the ways to put parsers together give, from what their parts give; where a parser begins with a
word, the characters that are left say whether it is there.
-/

namespace SuiteDraft.Grammar.Parser

variable {α β : Type} {s rest : Input}

theorem bind_some {p : Parser α} {a : α} (h : p s = some (a, rest)) (f : α → Parser β) :
    (p >>= f) s = f a rest := by
  simp only [Bind.bind, h]

theorem bind_none {p : Parser α} (h : p s = none) (f : α → Parser β) : (p >>= f) s = none := by
  simp only [Bind.bind, h]

theorem orElse_some {p : Parser α} {found : α × Input} (h : p s = some found) (q : Parser α) :
    (p <|> q) s = some found := by
  simp only [HOrElse.hOrElse, OrElse.orElse, Alternative.orElse, h]

theorem orElse_none {p : Parser α} (h : p s = none) (q : Parser α) : (p <|> q) s = q s := by
  simp only [HOrElse.hOrElse, OrElse.orElse, Alternative.orElse, h]

theorem many_none {p : Parser α} (h : p s = none) : many p s = some ([], s) := by
  simp only [many, manyUpTo, h]

theorem many_single {p : Parser α} {a : α} (h : p s = some (a, rest)) (left : 0 < s.left)
    (stops : p rest = none) : many p s = some ([a], rest) := by
  have ⟨n, left_eq⟩ := Nat.exists_eq_add_one_of_ne_zero left.ne'
  simp only [many, left_eq, manyUpTo, h, stops]

theorem leafHere_some {scan : Scan} {n : Nat} (kind : Kind) (numbered : s.Numbered)
    (h : Finds scan s.chars (some n)) :
    leafHere kind scan s = some (build kind s (s.drop n) [], s.drop n) := by
  rw [leafHere, h.eq s numbered rfl]
  rfl

theorem leafHere_none {scan : Scan} (kind : Kind) (numbered : s.Numbered)
    (h : Finds scan s.chars none) : leafHere kind scan s = none := by
  rw [leafHere, h.eq s numbered rfl]
  rfl

theorem text_build (kind : Kind) (numbered : s.Numbered) {n : Nat} (hn : n ≤ s.chars.length)
    (children : List Tree) :
    (build kind s (s.drop n) children).text = String.ofList (s.chars.take n) :=
  numbered.upTo_drop (s.length_chars ▸ hn)

theorem afterGap_eq {c : Char} {cs : List Char} (hs : s.chars = c :: cs)
    (blank : isGapBlank c = false) (slash : c ≠ '/') : afterGap s = s := by
  cases s with
  | nil => exact absurd hs.symm (List.cons_ne_nil c cs)
  | cons m rest =>
    have char_eq : m.char = c := (List.cons.inj hs).1
    simp [afterGap, gap, gapFrom, char_eq, blank, slash]

theorem adjacent_some {word : String} {cs after : List Char} (word_eq : word.toList = cs)
    (hs : s.chars = cs ++ after) : adjacent word s = some ((), s.drop cs.length) := by
  have starts : s.startsWith cs = true := by
    rw [Input.startsWith_eq, hs]
    exact List.isPrefixOf_iff_prefix.mpr (List.prefix_append _ _)
  simp only [adjacent, word_eq, starts, if_true]

theorem symbol_some {word : String} {cs after : List Char} (gap_eq : afterGap s = s)
    (word_eq : word.toList = cs) (hs : s.chars = cs ++ after) :
    symbol word s = some ((), s.drop cs.length) := by
  rw [← adjacent_some word_eq hs, symbol, gap_eq, adjacent]

theorem node_some {kind : Kind} {p : Parser (List Tree)} {children : List Tree}
    (gap_eq : afterGap s = s) (h : p s = some (children, rest)) :
    node kind p s = some (build kind s rest children, rest) := by
  simp only [node, gap_eq, h]

theorem node_none {kind : Kind} {p : Parser (List Tree)} (gap_eq : afterGap s = s)
    (h : p s = none) : node kind p s = none := by
  simp only [node, gap_eq, h]

end SuiteDraft.Grammar.Parser
