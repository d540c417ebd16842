import SuiteDraft.Analysis.Literal
import SuiteDraft.Grammar.Literal
import SuiteDraft.Proofs.Grammar.Escapes
import SuiteDraft.Proofs.Grammar.Parsers

/-!
# String literals

A string literal in strict code is read to its closing quote, and its value is the text whose units
its parts stand for. One character can be lost on the way: a line or paragraph separator that stands
as it is after a backslash and a carriage return, since the word of that escape ends behind it.
-/

namespace SuiteDraft

namespace Literal

open Escape (codePoints decode)
open Grammar Parser Input

/-- One piece of a literal. -/
def stringPiece (quote : Char) : Parser Tree :=
  leafHere .stringFragment (stringText quote) <|> leafHere .escapeSequence escape

-- The characters of a piece without escapes.
def isText (quote c : Char) : Bool := !(c == quote || c == '\\' || c == '\n' || c == '\r')

/-- From this text before a closing quote the pieces of a literal are read, and they name these code
points. -/
def Reads (quote : Char) (text : List Char) (points : List Nat) : Prop :=
  ∀ (s : Input) (after : List Char) (n : Nat), s.Numbered → s.chars = text ++ quote :: after →
    text.length < n → ∃ trees : List Tree,
      manyUpTo n (stringPiece quote) s = some (trees, s.drop text.length) ∧
        pieces trees = .ok (some points)

theorem pieces_cons {tree : Tree} {trees : List Tree} {head points : List Nat}
    (kind : tree.kind ≠ .templateSubstitution) (first : piece tree = .ok head)
    (rest : pieces trees = .ok (some points)) :
    pieces (tree :: trees) = .ok (some (head ++ points)) := by
  rw [pieces, if_neg kind, first, rest]
  rfl

namespace Reads

variable {quote : Char} {word text : List Char} {head points : List Nat}

theorem nil (hquote : quote ≠ '\\') : Reads quote [] [] := by
  intro s after n numbered hs hn
  have noText : Finds (stringText quote) s.chars none := by
    rw [hs]
    exact Finds.run1_none fun c hc => by simp [← Option.some.inj hc]
  have noEscape : Finds escape s.chars none := by
    rw [hs, escape_eq]
    exact Finds.andThen_none (Finds.exactly_not rfl hquote.symm)
  have fails : stringPiece quote s = none := by
    rw [stringPiece, orElse_none (leafHere_none _ numbered noText)]
    exact leafHere_none _ numbered noEscape
  cases n with
  | zero => exact absurd hn (Nat.not_lt_zero _)
  | succ n => exact ⟨[], by simp only [manyUpTo, fails, List.length_nil, List.drop_zero], rfl⟩

theorem cons (nonempty : word ≠ [])
    (first : ∀ (s : Input) (after : List Char), s.Numbered →
      s.chars = word ++ (text ++ quote :: after) → ∃ tree : Tree,
        stringPiece quote s = some (tree, s.drop word.length) ∧
          tree.kind ≠ .templateSubstitution ∧ piece tree = .ok head)
    (rest : Reads quote text points) : Reads quote (word ++ text) (head ++ points) := by
  intro s after n numbered hs hn
  rw [List.append_assoc] at hs
  have ⟨tree, parsed, kind, value⟩ := first s after numbered hs
  have positive : 0 < word.length := List.length_pos_of_ne_nil nonempty
  rw [List.length_append] at hn
  cases n with
  | zero => omega
  | succ n =>
    have hrest : chars (s.drop word.length) = text ++ quote :: after := by
      rw [chars_drop, hs, List.drop_left]
    have ⟨trees, many_eq, values⟩ := rest _ after n (numbered.drop _) hrest (by omega)
    refine ⟨tree :: trees, ?_, pieces_cons kind value values⟩
    simp only [manyUpTo, parsed, many_eq, List.drop_drop, List.length_append]

theorem fragment (nonempty : word ≠ []) (passes : ∀ c ∈ word, isText quote c = true)
    (stop : ∀ c ∈ text.head?, isText quote c = false) (rest : Reads quote text points) :
    Reads quote (word ++ text) (word.map Char.toNat ++ points) := by
  apply cons nonempty _ rest
  intro s after numbered hs
  have stop' : ∀ c ∈ (text ++ quote :: after).head?, isText quote c = false := by
    cases text with
    | nil =>
      intro c hc
      simp [isText, ← Option.some.inj hc]
    | cons d text => exact stop
  have found : Finds (stringText quote) s.chars (some word.length) := by
    rw [hs]
    cases word with
    | nil => exact absurd rfl nonempty
    | cons c run => exact Finds.run1_run passes stop'
  refine ⟨_, orElse_some (leafHere_some _ numbered found) _, nofun, ?_⟩
  have text_eq := text_build .stringFragment numbered (found.le _ rfl) []
  rw [hs, List.take_left] at text_eq
  show Except.ok (codePoints (Tree.text _).toList) = _
  rw [text_eq, String.toList_ofList, codePoints]

theorem escaped (begins : word.head? = some '\\')
    (found : ∀ after, Finds escape (word ++ (text ++ quote :: after)) (some word.length))
    (value : decode word = .ok head) (rest : Reads quote text points) :
    Reads quote (word ++ text) (head ++ points) := by
  have nonempty : word ≠ [] := by
    rintro rfl
    cases begins
  apply cons nonempty _ rest
  intro s after numbered hs
  have noText : Finds (stringText quote) s.chars none := by
    rw [hs]
    apply Finds.run1_none
    intro c hc
    rw [List.head?_append, begins] at hc
    simp [← Option.some.inj hc]
  have word_found := found after
  rw [← hs] at word_found
  refine ⟨_, (orElse_none (leafHere_none _ numbered noText) _).trans
    (leafHere_some _ numbered word_found), nofun, ?_⟩
  have text_eq := text_build .escapeSequence numbered (word_found.le _ rfl) []
  rw [hs, List.take_left] at text_eq
  show decode (Tree.text _).toList = _
  rw [text_eq, String.toList_ofList, value]

end Reads

theorem stringIn_none {quote c : Char} {s : Input} {cs : List Char} (hs : s.chars = c :: cs)
    (gap_eq : afterGap s = s) (h : quote ≠ c) : stringIn quote s = none := by
  have fails : symbol (String.ofList [quote]) s = none := by
    have starts : s.startsWith [quote] = false := by
      rw [startsWith_eq, hs]
      simp [List.isPrefixOf, h]
    simp only [symbol, gap_eq, String.toList_ofList, starts, Bool.false_eq_true, if_false]
  exact node_none gap_eq (bind_none fails _)

/-- A literal is read to its closing quote if its pieces are read up to there. -/
theorem marked_some {quote : Char} (blank : isGapBlank quote = false) (slash : quote ≠ '/')
    {piece : Parser Tree} {trees : List Tree} {s : Input} {text after : List Char}
    (hs : s.chars = quote :: (text ++ quote :: after))
    (read : many piece (s.drop 1) = some (trees, (s.drop 1).drop text.length)) :
    (node .string do
      symbol (String.ofList [quote])
      let pieces ← many piece
      adjacent (String.ofList [quote])
      return pieces) s =
      some (build .string s (s.drop (text.length + 2)) trees, s.drop (text.length + 2)) := by
  have mark_eq : (String.ofList [quote]).toList = [quote] := String.toList_ofList
  have gap_eq := afterGap_eq hs blank slash
  have opening := symbol_some gap_eq mark_eq hs
  have last : chars ((s.drop 1).drop text.length) = [quote] ++ after := by
    rw [chars_drop, chars_drop, hs, List.drop_succ_cons, List.drop_zero, List.drop_left]
    rfl
  have closing := adjacent_some mark_eq last
  have sum : 1 + (text.length + 1) = text.length + 2 := by omega
  refine node_some gap_eq ?_
  rw [bind_some opening]
  show (many piece >>= fun pieces => adjacent (String.ofList [quote]) >>=
    fun _ => pure pieces) (s.drop 1) = _
  rw [bind_some read, bind_some closing, List.drop_drop, List.drop_drop, List.length_singleton, sum]
  rfl

/-- The value of a literal, by its pieces. -/
theorem value?_string {s rest : Input} {trees : List Tree} {points : List Nat}
    (h : pieces trees = .ok (some points)) : value? (build .string s rest trees) =
      .ok (some (String.ofList (Text.ofCodePoints points))) := by
  show (do
    let found ← pieces trees
    return found.map fun ps => String.ofList (Text.ofCodePoints ps) : Except _ _) = _
  rw [h]
  rfl

theorem stringIn_some {quote : Char} (blank : isGapBlank quote = false) (slash : quote ≠ '/')
    {text : List Char} {points : List Nat} (reads : Reads quote text points) {s : Input}
    (numbered : s.Numbered) {after : List Char}
    (hs : s.chars = quote :: (text ++ quote :: after)) :
    ∃ tree : Tree, stringIn quote s = some (tree, s.drop (text.length + 2)) ∧
      value? tree = .ok (some (String.ofList (Text.ofCodePoints points))) := by
  have inner : chars (s.drop 1) = text ++ quote :: after := by
    rw [chars_drop, hs]
    rfl
  have long : text.length < left (s.drop 1) + 1 := by
    rw [(numbered.drop 1).left_eq, ← length_chars, inner, List.length_append]
    omega
  have ⟨trees, many_eq, values⟩ := reads _ after _ (numbered.drop 1) inner long
  exact ⟨_, marked_some blank slash hs many_eq, value?_string values⟩

/-! ### The parts that count -/

/-- The word of the first part goes on over the second, which is lost. -/
def Part.swallows : Part → Part → Bool
  | joined .carriageReturn, raw c => c == '\u2028' || c == '\u2029'
  | _, _ => false

/-- The parts without those that the part before them swallows. -/
def kept : List Part → List Part
  | p :: q :: rest => if p.swallows q then p :: kept rest else p :: kept (q :: rest)
  | parts => parts

theorem kept_cons {p : Part} {rest : List Part} (h : ∀ q ∈ rest.head?, p.swallows q = false) :
    kept (p :: rest) = p :: kept rest := by
  cases rest with
  | nil => rfl
  | cons q rest =>
    have apart := h q rfl
    simp only [kept, apart, Bool.false_eq_true, if_false]

theorem kept_raw (cs : List Char) (rest : List Part) :
    kept (cs.map Part.raw ++ rest) = cs.map Part.raw ++ kept rest := by
  induction cs with
  | nil => rfl
  | cons c cs ih =>
    rw [List.map_cons, List.cons_append, kept_cons (fun _ _ => rfl), ih]
    rfl

theorem kept_eq_self {parts : List Part}
    (apart : parts.IsChain fun p q => p.swallows q = false) : kept parts = parts := by
  induction parts with
  | nil => rfl
  | cons p rest ih =>
    rw [List.isChain_cons] at apart
    rw [kept_cons apart.1, ih apart.2]

theorem Strict.tail {quote : Char} {p : Part} {rest : List Part} (h : Strict quote (p :: rest)) :
    Strict quote rest where
  valid q hq := h.valid q (List.mem_cons_of_mem _ hq)
  apart := (List.isChain_cons.mp h.apart).2

theorem Strict.append_right {quote : Char} {front rest : List Part}
    (h : Strict quote (front ++ rest)) : Strict quote rest := by
  induction front with
  | nil => exact h
  | cons p front ih => exact ih h.tail

-- The characters that stand as they are in front, and what comes after them.
theorem exists_raw_append (parts : List Part) : ∃ (cs : List Char) (rest : List Part),
    parts = cs.map Part.raw ++ rest ∧ ∀ p ∈ rest.head?, ¬ p.IsRaw := by
  induction parts with
  | nil => exact ⟨[], [], rfl, nofun⟩
  | cons p parts ih =>
    by_cases raw : p.IsRaw
    · have ⟨c, hc⟩ := raw
      have ⟨cs, rest, parts_eq, stop⟩ := ih
      exact ⟨c :: cs, rest, by rw [hc, parts_eq]; rfl, stop⟩
    · exact ⟨[], p :: parts, rfl, fun q hq => Option.some.inj hq ▸ raw⟩

theorem write_ne_nil (p : Part) : p.write ≠ [] := by cases p <;> exact List.cons_ne_nil _ _

theorem head?_write {p : Part} (escape : ¬ p.IsRaw) : p.write.head? = some '\\' := by
  cases p with
  | raw c => exact absurd ⟨c, rfl⟩ escape
  | _ => rfl

theorem head?_flatMap_write (p : Part) (rest : List Part) :
    ((p :: rest).flatMap Part.write).head? = p.write.head? := by
  rw [List.flatMap_cons, List.head?_append_of_ne_nil _ (write_ne_nil p)]

theorem draws_eq_false {d : Char} (octal : isOctal d = false) (noBreak : isBreak d = false)
    (p : Part) : p.draws d = false := by
  cases p with
  | control k => cases k <;> first | rfl | exact octal
  | itself c => rw [Part.draws, noBreak, Bool.and_false]
  | joined e => rw [Part.draws, noBreak, Bool.and_false]
  | _ => rfl

/-- The word of a part ends with it, unless a character that it draws comes next. -/
theorem draws_next {quote : Char} (hquote : quote = '"' ∨ quote = '\'') {p : Part}
    {rest : List Part} (stop : ∀ d, rest.head? = some (.raw d) → p.draws d = false)
    (after : List Char) :
    ∀ d ∈ (rest.flatMap Part.write ++ quote :: after).head?, p.draws d = false := by
  intro d hd
  cases rest with
  | nil =>
    have d_eq : quote = d := Option.some.inj hd
    cases hquote with
    | inl double =>
      rw [← d_eq, double]
      exact draws_eq_false rfl rfl p
    | inr single =>
      rw [← d_eq, single]
      exact draws_eq_false rfl rfl p
  | cons q rest =>
    rw [List.flatMap_cons, List.append_assoc, List.head?_append_of_ne_nil _ (write_ne_nil q)] at hd
    by_cases raw : q.IsRaw
    · have ⟨c, hc⟩ := raw
      rw [hc] at hd
      have d_eq : c = d := Option.some.inj hd
      exact stop d (by rw [hc, d_eq]; rfl)
    · rw [head?_write raw] at hd
      have d_eq : '\\' = d := Option.some.inj hd
      rw [← d_eq]
      exact draws_eq_false rfl rfl p

theorem draws_of_swallows {p q : Part} (h : p.swallows q = true) :
    ∃ d, q = .raw d ∧ p.draws d = true := by
  unfold Part.swallows at h
  split at h
  next c =>
    have separator : isBreak c = true := by rw [isBreak, Bool.or_assoc, h, Bool.or_true]
    exact ⟨c, rfl, separator⟩
  next => cases h

/-- A character that an escape draws in strict code is a separator, and what is decoded with it is
what the parts that are kept stand for. -/
theorem decode_drawn {quote d : Char} {p : Part} {rest : List Part}
    (strict : Strict quote (p :: .raw d :: rest)) (draws : p.draws d = true) :
    isBreak d = true ∧ ∃ head, decode (p.write ++ [d]) = .ok head ∧
      (kept (p :: .raw d :: rest)).flatMap Part.points =
        head ++ (kept rest).flatMap Part.points := by
  have apart := (List.isChain_cons.mp strict.apart).1 (.raw d) rfl
  have kept_rest : kept (.raw d :: rest) = .raw d :: kept rest := kept_cons fun _ _ => rfl
  cases p with
  | control k =>
    cases k with
    | null =>
      have digit : d.isDigit = false := apart rfl
      rw [isDigit_of_isOctal draws] at digit
      cases digit
    | _ => cases draws
  | itself c =>
    rw [Part.draws, Bool.and_eq_true, beq_iff_eq] at draws
    refine ⟨draws.2, ['?'.toNat, d.toNat], by rw [draws.1]; rfl, ?_⟩
    rw [kept_cons (fun _ _ => rfl), kept_rest, draws.1]
    rfl
  | joined e =>
    rw [Part.draws, Bool.and_eq_true, beq_iff_eq] at draws
    have noLineFeed : (d == '\n') = false :=
      beq_eq_false_iff_ne.mpr (strict.valid (.raw d) (by simp)).2.2.1
    have separator : (Part.joined e).swallows (.raw d) = true := by
      have found := draws.2
      rw [isBreak, noLineFeed, Bool.false_or] at found
      rw [draws.1]
      exact found
    refine ⟨draws.2, [], by rw [draws.1]; rfl, ?_⟩
    rw [kept, if_pos separator]
    rfl
  | _ => cases draws

/-- Induction by words: all the characters that stand as they are up to the next escape, or an escape
with what it draws. -/
theorem wordwise {P : List Part → Prop} (nil : P [])
    (raws : ∀ (cs : List Char) (rest : List Part), cs ≠ [] → (∀ p ∈ rest.head?, ¬ p.IsRaw) →
      P rest → P (cs.map Part.raw ++ rest))
    (alone : ∀ (p : Part) (rest : List Part), ¬ p.IsRaw →
      (∀ d, rest.head? = some (.raw d) → p.draws d = false) → P rest → P (p :: rest))
    (drawn : ∀ (p : Part) (d : Char) (rest : List Part), ¬ p.IsRaw → p.draws d = true → P rest →
      P (p :: .raw d :: rest)) (parts : List Part) : P parts := by
  induction h : parts.length using Nat.strong_induction_on generalizing parts with
  | h n ih =>
    have ⟨cs, rest, parts_eq, stop⟩ := exists_raw_append parts
    subst parts_eq
    rw [List.length_append, List.length_map] at h
    cases cs with
    | cons c cs =>
      rw [List.length_cons] at h
      exact raws (c :: cs) rest (List.cons_ne_nil c cs) stop (ih _ (by omega) rest rfl)
    | nil =>
      cases rest with
      | nil => exact nil
      | cons p rest =>
        rw [List.length_nil, Nat.zero_add, List.length_cons] at h
        have escape := stop p rfl
        by_cases next : ∃ d, rest.head? = some (.raw d) ∧ p.draws d = true
        · have ⟨d, first, draws⟩ := next
          cases rest with
          | nil => cases first
          | cons q rest =>
            rw [Option.some.inj first]
            rw [List.length_cons] at h
            exact drawn p d rest escape draws (ih _ (by omega) rest rfl)
        · have stop' : ∀ d, rest.head? = some (.raw d) → p.draws d = false := fun d first =>
            Bool.eq_false_of_not_eq_true fun hd => next ⟨d, first, hd⟩
          exact alone p rest escape stop' (ih _ (by omega) rest rfl)

theorem write_raws (cs : List Char) : (cs.map Part.raw).flatMap Part.write = cs := by
  induction cs with
  | nil => rfl
  | cons c cs ih => rw [List.map_cons, List.flatMap_cons, ih]; rfl

theorem points_raws (cs : List Char) :
    (cs.map Part.raw).flatMap Part.points = cs.map Char.toNat := by
  induction cs with
  | nil => rfl
  | cons c cs ih => rw [List.map_cons, List.flatMap_cons, ih]; rfl

theorem isText_raw {quote c : Char} (valid : (Part.raw c).Valid quote) : isText quote c = true := by
  have ⟨unquoted, backslash, lineFeed, carriageReturn⟩ := valid
  simp [isText, unquoted, backslash, lineFeed, carriageReturn]

/-- The pieces of a literal in strict code name the code points of the parts that are kept. -/
theorem reads_kept {quote : Char} (hquote : quote = '"' ∨ quote = '\'') (parts : List Part) :
    Strict quote parts →
      Reads quote (parts.flatMap Part.write) ((kept parts).flatMap Part.points) := by
  have backslash : quote ≠ '\\' := by
    cases hquote with
    | inl double => rw [double]; decide
    | inr single => rw [single]; decide
  induction parts using wordwise with
  | nil => exact fun _ => Reads.nil backslash
  | raws cs rest nonempty stop ih =>
    intro strict
    have passes : ∀ c ∈ cs, isText quote c = true := fun c hc =>
      isText_raw (strict.valid (.raw c) (by simp [hc]))
    have stop' : ∀ c ∈ (rest.flatMap Part.write).head?, isText quote c = false := by
      cases rest with
      | nil => nofun
      | cons p rest =>
        intro c hc
        rw [head?_flatMap_write, head?_write (stop p rfl)] at hc
        simp [isText, ← Option.some.inj hc]
    rw [kept_raw, List.flatMap_append, List.flatMap_append, write_raws, points_raws]
    exact Reads.fragment nonempty passes stop' (ih strict.append_right)
  | alone p rest escape stop ih =>
    intro strict
    have valid := strict.valid p List.mem_cons_self
    have apart : ∀ q ∈ rest.head?, p.swallows q = false := by
      intro q hq
      cases swallows : p.swallows q with
      | false => rfl
      | true =>
        have ⟨d, q_eq, draws⟩ := draws_of_swallows swallows
        have first : rest.head? = some (.raw d) := by rw [← q_eq]; exact hq
        rw [stop d first] at draws
        cases draws
    rw [kept_cons apart, List.flatMap_cons, List.flatMap_cons]
    exact Reads.escaped (head?_write escape)
      (fun after => finds_write valid escape (draws_next hquote stop after))
      (decode_write valid escape) (ih strict.tail)
  | drawn p d rest escape draws ih =>
    intro strict
    have ⟨separator, head, value, points_eq⟩ := decode_drawn strict draws
    have valid := strict.valid p List.mem_cons_self
    have write_eq : (p :: .raw d :: rest).flatMap Part.write =
        (p.write ++ [d]) ++ rest.flatMap Part.write := by
      rw [List.flatMap_cons, List.flatMap_cons, List.append_assoc]
      rfl
    have begins : (p.write ++ [d]).head? = some '\\' := by
      rw [List.head?_append_of_ne_nil _ (write_ne_nil p), head?_write escape]
    rw [points_eq, write_eq]
    apply Reads.escaped begins _ value (ih strict.tail.tail)
    intro after
    rw [List.append_assoc, List.length_append]
    exact finds_write_break valid separator draws

/-! ### What is lost -/

/-- How many of the units are separators. -/
def separators (parts : List Part) : Nat :=
  (parts.flatMap Part.units).count 0x2028 + (parts.flatMap Part.units).count 0x2029

theorem separators_cons (p : Part) (rest : List Part) :
    separators (p :: rest) = separators [p] + separators rest := by
  simp only [separators, List.flatMap_cons, List.flatMap_nil, List.append_nil, List.count_append]
  omega

theorem separators_swallowed {p q : Part} (h : p.swallows q = true) : separators [q] = 1 := by
  unfold Part.swallows at h
  split at h
  next c =>
    rw [Bool.or_eq_true, beq_iff_eq, beq_iff_eq] at h
    cases h with
    | inl line => rw [line]; rfl
    | inr paragraph => rw [paragraph]; rfl
  next => cases h

theorem separators_kept_le (parts : List Part) : separators (kept parts) ≤ separators parts := by
  fun_induction kept parts with
  | case1 p q rest swallows ih =>
    rw [separators_cons p (kept rest), separators_cons p (q :: rest), separators_cons q rest]
    omega
  | case2 p q rest apart ih =>
    rw [separators_cons p (kept (q :: rest)), separators_cons p (q :: rest)]
    omega
  | case3 parts => exact Nat.le_refl _

theorem isChain_of_separators {parts : List Part}
    (same : separators (kept parts) = separators parts) :
    parts.IsChain fun p q => p.swallows q = false := by
  fun_induction kept parts with
  | case1 p q rest swallows ih =>
    have fewer := separators_kept_le rest
    have one := separators_swallowed swallows
    rw [separators_cons p (kept rest), separators_cons p (q :: rest), separators_cons q rest] at same
    omega
  | case2 p q rest apart ih =>
    rw [separators_cons p (kept (q :: rest)), separators_cons p (q :: rest)] at same
    exact List.isChain_cons_cons.mpr ⟨Bool.eq_false_of_not_eq_true apart, ih (by omega)⟩
  | case3 parts short =>
    cases parts with
    | nil => exact .nil
    | cons p rest =>
      cases rest with
      | nil => exact .singleton p
      | cons q rest => exact absurd rfl (short p q rest)

/-! ### The value of a literal -/

theorem mem_of_mem_kept {p : Part} {parts : List Part} (h : p ∈ kept parts) : p ∈ parts := by
  fun_induction kept parts with
  | case1 q r rest swallows ih =>
    cases List.mem_cons.mp h with
    | inl here => rw [here]; exact List.mem_cons_self
    | inr later => exact List.mem_cons_of_mem _ (List.mem_cons_of_mem _ (ih later))
  | case2 q r rest apart ih =>
    cases List.mem_cons.mp h with
    | inl here => rw [here]; exact List.mem_cons_self
    | inr later => exact List.mem_cons_of_mem _ (ih later)
  | case3 parts => exact h

theorem stringLiteral_some {quote : Char} (hquote : quote = '"' ∨ quote = '\'') {parts : List Part}
    (strict : Strict quote parts) {s : Input} (numbered : s.Numbered) {after : List Char}
    (hs : s.chars = quote :: (parts.flatMap Part.write ++ quote :: after)) :
    ∃ tree : Tree,
      stringLiteral s = some (tree, s.drop ((parts.flatMap Part.write).length + 2)) ∧
      value? tree =
        .ok (some (String.ofList (Text.ofCodePoints ((kept parts).flatMap Part.points)))) := by
  have reads := reads_kept hquote parts strict
  cases hquote with
  | inl double =>
    subst double
    have ⟨tree, parsed, value⟩ := stringIn_some rfl (by decide) reads numbered hs
    exact ⟨tree, orElse_some parsed _, value⟩
  | inr single =>
    subst single
    have ⟨tree, parsed, value⟩ := stringIn_some rfl (by decide) reads numbered hs
    have other := stringIn_none hs (afterGap_eq hs rfl (by decide)) (show '"' ≠ '\'' by decide)
    exact ⟨tree, (orElse_none other _).trans parsed, value⟩

/-- At any place of any source, a literal in strict code is read to its closing quote, and its value
is the text whose units are those of its parts without the separators that are lost. It is the text
of all its units exactly when none is lost. -/
theorem value_of_parts {quote : Char} (hquote : quote = '"' ∨ quote = '\'') {parts : List Part}
    (strict : Strict quote parts) (glyphs : List Glyph) (start : Nat) (after : List Char)
    (literal : chars ((ofGlyphs glyphs).drop start) =
      quote :: (parts.flatMap Part.write ++ quote :: after)) :
    ∃ (tree : Tree) (text : String),
      stringLiteral ((ofGlyphs glyphs).drop start) =
        some (tree, (ofGlyphs glyphs).drop (start + ((parts.flatMap Part.write).length + 2))) ∧
      value? tree = .ok (some text) ∧
      Text.Decodes ((kept parts).flatMap Part.units) text.toList ∧
      (Text.Decodes (parts.flatMap Part.units) text.toList ↔
        parts.IsChain fun p q => p.swallows q = false) := by
  have ⟨tree, parsed, value⟩ :=
    stringLiteral_some hquote strict ((numbered_ofGlyphs glyphs).drop start) literal
  have range : ∀ n ∈ (kept parts).flatMap Part.points, n ≤ 0x10FFFF := by
    intro n hn
    have ⟨p, hp, hn⟩ := List.mem_flatMap.mp hn
    exact Part.points_le (strict.valid p (mem_of_mem_kept hp)) n hn
  have decodes := Text.decodes_ofCodePoints _ range
  rw [List.flatMap_assoc] at decodes
  rw [List.drop_drop] at parsed
  refine ⟨tree, _, parsed, value, ?_, fun whole => ?_, fun apart => ?_⟩
  · rw [String.toList_ofList]
    exact decodes
  · rw [String.toList_ofList] at whole
    have line := (decodes.count_eq (c := '\u2028') (by decide) (by decide)).symm.trans
      (whole.count_eq (by decide) (by decide))
    have paragraph := (decodes.count_eq (c := '\u2029') (by decide) (by decide)).symm.trans
      (whole.count_eq (by decide) (by decide))
    exact isChain_of_separators (congrArg₂ (· + ·) line paragraph)
  · rw [kept_eq_self apart] at decodes ⊢
    rw [String.toList_ofList]
    exact decodes

/-- A source that is nothing but a literal of these parts. -/
def sourceOf (parts : List Part) : List Glyph :=
  Glyph.ofText (String.ofList ('"' :: (parts.flatMap Part.write ++ ['"'])))

theorem chars_sourceOf (parts : List Part) : chars ((ofGlyphs (sourceOf parts)).drop 0) =
    '"' :: (parts.flatMap Part.write ++ ['"']) := by
  rw [List.drop_zero, chars_ofGlyphs, sourceOf, Glyph.ofText, String.toList_ofList, List.map_map]
  exact List.map_id _

/-- Both halves of a pair, each in another form, then a half that stands alone. -/
def mixedParts : List Part := [.raw 'a', .control .null, .itself '"', .joined .both,
  .unit .four ['d', '8', '3', 'D'], .joined .carriageReturn, .point ['0', 'D', 'e', '0', '0'],
  .unit .two ['4', '1'], .raw '😀', .unit .four ['d', 'c', '0', '0']]

theorem value_of_mixedParts : Strict '"' mixedParts ∧
    mixedParts.IsChain (fun p q => p.swallows q = false) ∧
    ∃ (tree : Tree) (text : String), stringLiteral (ofGlyphs (sourceOf mixedParts)) =
      some (tree, []) ∧ value? tree = .ok (some text) ∧
      Text.Decodes (mixedParts.flatMap Part.units) text.toList := by
  have strict : Strict '"' mixedParts := ⟨by decide +kernel, by decide +kernel⟩
  have apart : mixedParts.IsChain (fun p q => p.swallows q = false) := by decide +kernel
  have ⟨tree, text, parsed, value, _, decodes⟩ :=
    value_of_parts (.inl rfl) strict _ 0 [] (chars_sourceOf mixedParts)
  exact ⟨strict, apart, tree, text, parsed, value, decodes.mpr apart⟩

/-- A separator between two letters, with a line joined before it. -/
def lostParts : List Part :=
  [.raw 'a', .joined .carriageReturn, .raw '\u2028', .raw 'b']

/-- The separator is in the text whose units are those of the parts, but not in the value. -/
theorem value_of_lostParts : Strict '"' lostParts ∧
    ∃ tree : Tree, stringLiteral (ofGlyphs (sourceOf lostParts)) = some (tree, []) ∧
      value? tree = .ok (some "ab") ∧ ¬ Text.Decodes (lostParts.flatMap Part.units) "ab".toList := by
  have strict : Strict '"' lostParts := ⟨by decide +kernel, by decide +kernel⟩
  have ⟨tree, parsed, value⟩ :=
    stringLiteral_some (.inl rfl) strict (numbered_ofGlyphs _) (chars_sourceOf lostParts)
  have text_eq : String.ofList (Text.ofCodePoints ((kept lostParts).flatMap Part.points)) = "ab" := by
    decide +kernel
  have right : Text.Decodes (lostParts.flatMap Part.units) ['a', '\u2028', 'b'] :=
    .char 'a' (.char '\u2028' (.char 'b' .nil))
  rw [text_eq] at value
  exact ⟨strict, tree, parsed, value, fun decodes => absurd (decodes.unique right) (by decide)⟩

end Literal

end SuiteDraft
