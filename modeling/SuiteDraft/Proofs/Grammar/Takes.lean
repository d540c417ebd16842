import SuiteDraft.Proofs.Source.Spells
import SuiteDraft.Tree.Fault

/-!
# What parsers take

A parser takes a text if it reads it to its end wherever it stands before a given rest, and nothing of
the rest. What the ways to put parsers together take follows from what their parts take, and from what
they refuse; so a rule is read piece by piece, each piece with what comes after it in sight.
-/

namespace SuiteDraft.Grammar

open Input (Spells)

/-- What holds of all characters of a list is decided by going through the list; where it is known that
there are finitely many characters, it would be by going through all of these. -/
instance (priority := 1100) decidableForallChars {P : Char → Prop} [DecidablePred P] (cs : List Char) :
    Decidable (∀ c ∈ cs, P c) := List.decidableBAll P cs

/-- No fault stands at or below a node. -/
abbrev Whole (t : Tree) : Prop := t.hasFault = false

abbrev AllWhole (ts : List Tree) : Prop := ∀ t ∈ ts, Whole t

theorem hasFaultIn_eq_false {ts : List Tree} (h : AllWhole ts) : Tree.hasFaultIn ts = false := by
  induction ts with
  | nil => rfl
  | cons t ts ih =>
    rw [Tree.hasFaultIn, h t List.mem_cons_self, ih fun t ht => h t (List.mem_cons_of_mem _ ht)]
    rfl

theorem whole_inField {t : Tree} (h : Whole t) (f : Field) : Whole (t.inField f) := by
  obtain ⟨l, ts⟩ := t
  rw [Whole, Tree.hasFault] at h
  rw [Whole, Tree.inField, Tree.hasFault]
  exact h

theorem allWhole_singleton {t : Tree} (h : Whole t) : AllWhole [t] :=
  fun _ mem => List.mem_singleton.mp mem ▸ h

theorem allWhole_nil : AllWhole [] := nofun

theorem AllWhole.cons {t : Tree} {ts : List Tree} (h : Whole t) (h' : AllWhole ts) :
    AllWhole (t :: ts) := List.forall_mem_cons.mpr ⟨h, h'⟩

theorem AllWhole.append {ts ts' : List Tree} (h : AllWhole ts) (h' : AllWhole ts') :
    AllWhole (ts ++ ts') := List.forall_mem_append.mpr ⟨h, h'⟩

namespace Parser

variable {α β : Type} {p q : Parser α} {f : α → Parser β} {cs cs' after : List Char}
  {Q : α → Prop} {R : β → Prop}

/-- Before `after` the parser takes the text `cs` and no more, with such a result. -/
def Takes (p : Parser α) (cs after : List Char) (Q : α → Prop) : Prop :=
  ∀ s, Spells s (cs ++ after) → ∃ a, p s = some (a, s.drop cs.length) ∧ Q a

/-- Before this text the parser takes nothing. -/
def Refuses (p : Parser α) (cs : List Char) : Prop := ∀ s, Spells s cs → p s = none

/-! ## One after the other -/

theorem Takes.mono {R : α → Prop} (h : Takes p cs after Q) (weaker : ∀ a, Q a → R a) :
    Takes p cs after R := by
  intro s hs
  obtain ⟨a, found, ha⟩ := h s hs
  exact ⟨a, found, weaker a ha⟩

theorem takes_pure {a : α} (ha : Q a) : Takes (pure a) [] after Q := fun _ _ => ⟨a, rfl, ha⟩

theorem Takes.bind (h : Takes p cs (cs' ++ after) Q) (h' : ∀ a, Q a → Takes (f a) cs' after R) :
    Takes (p >>= f) (cs ++ cs') after R := by
  intro s hs
  rw [List.append_assoc] at hs
  obtain ⟨a, found, ha⟩ := h s hs
  have rest : Spells (s.drop cs.length) (cs' ++ after) := by simpa using hs.drop cs.length
  obtain ⟨b, found', hb⟩ := h' a ha _ rest
  refine ⟨b, ?_, hb⟩
  simp only [Bind.bind, found, found', List.drop_drop, List.length_append]

/-- What comes after a parser that takes nothing takes the text. -/
theorem Takes.bind_here (h : Takes p [] (cs ++ after) Q) (h' : ∀ a, Q a → Takes (f a) cs after R) :
    Takes (p >>= f) cs after R := by
  have both := Takes.bind h h'
  exact both

/-- What comes after a parser that takes the text takes nothing. -/
theorem Takes.bind_end (h : Takes p cs after Q) (h' : ∀ a, Q a → Takes (f a) [] after R) :
    Takes (p >>= f) cs after R := by
  have both : Takes (p >>= f) (cs ++ []) after R := Takes.bind h h'
  rwa [List.append_nil] at both

theorem Takes.map {g : α → β} (h : Takes p cs after Q) (imp : ∀ a, Q a → R (g a)) :
    Takes (g <$> p) cs after R := h.bind_end fun a ha => takes_pure (imp a ha)

theorem Takes.seqRight {q : Parser β} (h : Takes p cs (cs' ++ after) Q) (h' : Takes q cs' after R) :
    Takes (p *> q) (cs ++ cs') after R := Takes.bind (f := fun _ => q) h fun _ _ => h'

theorem Takes.seqLeft {q : Parser β} (h : Takes p cs (cs' ++ after) Q) (h' : Takes q cs' after R) :
    Takes (p <* q) (cs ++ cs') after Q :=
  Takes.bind (f := fun a => q >>= fun _ => pure a) h fun _ ha => h'.bind_end fun _ _ => takes_pure ha

/-! ## What is refused -/

theorem Refuses.bind (h : Refuses p cs) : Refuses (p >>= f) cs := by
  intro s hs
  simp only [Bind.bind, h s hs]

theorem Refuses.map {g : α → β} (h : Refuses p cs) : Refuses (g <$> p) cs := h.bind

theorem Refuses.seqRight {q : Parser β} (h : Refuses p cs) : Refuses (p *> q) cs :=
  h.bind (f := fun _ => q)

theorem Refuses.seqLeft {q : Parser β} (h : Refuses p cs) : Refuses (p <* q) cs :=
  h.bind (f := fun a => q >>= fun _ => pure a)

/-- A parser that takes the text is no use if the next one refuses the rest. -/
theorem Takes.refuses (h : Takes p cs after Q) (h' : ∀ a, Q a → Refuses (f a) after) :
    Refuses (p >>= f) (cs ++ after) := by
  intro s hs
  obtain ⟨a, found, ha⟩ := h s hs
  have rest : Spells (s.drop cs.length) after := by simpa using hs.drop cs.length
  simp only [Bind.bind, found, h' a ha _ rest]

theorem refuses_failure : Refuses (failure : Parser α) cs := fun _ _ => rfl

/-! ## One or the other -/

theorem Takes.orElse (h : Takes p cs after Q) : Takes (p <|> q) cs after Q := by
  intro s hs
  obtain ⟨a, found, ha⟩ := h s hs
  exact ⟨a, by simp only [HOrElse.hOrElse, OrElse.orElse, Alternative.orElse, found], ha⟩

theorem Refuses.orElse_eq (h : Refuses p cs) {s : Input} (hs : Spells s cs) : (p <|> q) s = q s := by
  simp only [HOrElse.hOrElse, OrElse.orElse, Alternative.orElse, h s hs]

theorem Refuses.orElse (h : Refuses p cs) (h' : Refuses q cs) : Refuses (p <|> q) cs :=
  fun s hs => (h.orElse_eq hs).trans (h' s hs)

theorem Takes.of_refused (h : Takes q cs after Q) (refused : Refuses p (cs ++ after)) :
    Takes (p <|> q) cs after Q := by
  intro s hs
  obtain ⟨a, found, ha⟩ := h s hs
  exact ⟨a, (refused.orElse_eq hs).trans found, ha⟩

theorem Refuses.optional (h : Refuses p after) : Takes (optional p) [] after (· = none) := by
  have none_eq : Takes (pure none : Parser (Option α)) [] after (· = none) := takes_pure rfl
  exact none_eq.of_refused h.map

theorem Takes.optional (h : Takes p cs after Q) :
    Takes (optional p) cs after (fun a => ∃ b, a = some b ∧ Q b) :=
  (h.map fun a ha => ⟨a, rfl, ha⟩).orElse

theorem Refuses.orNone {p : Parser (List α)} (h : Refuses p after) :
    Takes (orNone p) [] after (· = []) := by
  have nil_eq : Takes (pure [] : Parser (List α)) [] after (· = []) := takes_pure rfl
  exact nil_eq.of_refused h

theorem Takes.orNone {p : Parser (List α)} {Q : List α → Prop} (h : Takes p cs after Q) :
    Takes (orNone p) cs after Q := h.orElse

/-! ## Again and again -/

theorem Refuses.manyUpTo (h : Refuses p after) : ∀ n, Takes (manyUpTo n p) [] after (· = [])
  | 0 => takes_pure rfl
  | n + 1 => by
    intro s hs
    refine ⟨[], ?_, rfl⟩
    simp only [Parser.manyUpTo, h s hs]
    rfl

theorem Takes.manyUpTo_cons {n : Nat} {P : α → Prop} (h : Takes p cs (cs' ++ after) P)
    (h' : Takes (manyUpTo n p) cs' after (∀ a ∈ ·, P a)) :
    Takes (manyUpTo (n + 1) p) (cs ++ cs') after (∀ a ∈ ·, P a) := by
  intro s hs
  rw [List.append_assoc] at hs
  obtain ⟨a, found, ha⟩ := h s hs
  have rest : Spells (s.drop cs.length) (cs' ++ after) := by simpa using hs.drop cs.length
  obtain ⟨as, found', has⟩ := h' _ rest
  refine ⟨a :: as, ?_, List.forall_mem_cons.mpr ⟨ha, has⟩⟩
  simp only [Parser.manyUpTo, found, found', List.drop_drop, List.length_append]

/-- A text made of pieces, none of them empty, each of which the parser takes before those that
follow it. -/
inductive Pieces (p : Parser α) (P : α → Prop) : List Char → List Char → Prop
  | nil {after : List Char} (ends : Refuses p after) : Pieces p P [] after
  | cons {cs cs' after : List Char} (nonempty : cs ≠ []) (first : Takes p cs (cs' ++ after) P)
      (rest : Pieces p P cs' after) : Pieces p P (cs ++ cs') after

theorem Pieces.manyUpTo {P : α → Prop} (h : Pieces p P cs after) :
    ∀ n, cs.length ≤ n → Takes (manyUpTo n p) cs after (∀ a ∈ ·, P a) := by
  induction h with
  | nil ends =>
    intro n _
    exact (ends.manyUpTo n).mono fun as none a mem => by rw [none] at mem; cases mem
  | @cons cs cs' after nonempty first rest ih =>
    intro n enough
    rw [List.length_append] at enough
    have positive : 0 < cs.length := List.length_pos_of_ne_nil nonempty
    obtain ⟨n, rfl⟩ := Nat.exists_eq_add_one_of_ne_zero (show n ≠ 0 by omega)
    exact first.manyUpTo_cons (ih n (by omega))

theorem Pieces.many {P : α → Prop} (h : Pieces p P cs after) :
    Takes (many p) cs after (∀ a ∈ ·, P a) := by
  intro s hs
  exact h.manyUpTo (s.left + 1) (by rw [hs.left_eq, List.length_append]; omega) s hs

theorem Refuses.many (h : Refuses p after) : Takes (many p) [] after (· = []) :=
  fun s hs => h.manyUpTo _ s hs

/-- One thing, and no sign behind it that another one may follow. -/
theorem Takes.sepBy1_single {sep : Parser β} (h : Takes p cs after Q) (no : Refuses sep after) :
    Takes (sepBy1 p sep) cs after fun l => ∃ a, Q a ∧ l = [a] := by
  have noMore : Refuses (sep *> p) after := no.seqRight
  refine h.bind_end fun a ha => noMore.many.bind_here fun l hl => takes_pure ⟨a, ha, ?_⟩
  obtain rfl : l = [] := hl
  rfl

/-! ## Looking without taking -/

/-- The parser never takes anything. -/
def Still (p : Parser α) : Prop := ∀ s a rest, p s = some (a, rest) → rest = s

theorem Still.bind_refuses (still : Still p) (h : ∀ a, Refuses (f a) cs) : Refuses (p >>= f) cs := by
  intro s hs
  cases found : p s with
  | none => simp only [Bind.bind, found]
  | some pair =>
    obtain ⟨a, rest⟩ := pair
    obtain rfl := still s a rest found
    simp only [Bind.bind, found, h a rest hs]

theorem still_next : Still next := fun _ _ _ h => (Prod.mk.inj (Option.some.inj h)).2.symm

theorem still_guard {b : Bool} : Still (guard b) := by
  intro s a rest h
  cases b with
  | false => cases h
  | true => exact (Prod.mk.inj (Option.some.inj h)).2.symm

theorem Refuses.sees (h : Refuses p after) : Takes (sees p) [] after (· = false) :=
  fun s hs => ⟨_, rfl, by rw [h s hs]; rfl⟩

theorem takes_guard {b : Bool} (h : b = true) : Takes (guard b) [] after (fun _ => True) := by
  intro s _
  exact ⟨(), by rw [h]; rfl, trivial⟩

theorem refuses_guard {b : Bool} (h : b = false) : Refuses (guard b) cs := by
  intro s _
  rw [h]
  rfl

/-! ## Nodes -/

theorem whole_build {kind : Kind} (sort : kind ≠ .fault) {start rest : Input} {ts : List Tree}
    (h : AllWhole ts) : Whole (build kind start rest ts) := by
  have own : (kind == Kind.fault) = false := beq_false_of_ne sort
  rw [Whole, build, Tree.hasFault, hasFaultIn_eq_false h, Bool.or_false, Tree.isFault]
  exact (Bool.or_false _).trans own

theorem takes_close {kind : Kind} (sort : kind ≠ .fault) (start : Input) {ts : List Tree}
    (h : AllWhole ts) : Takes (close kind start ts) [] after (fun t => Whole t ∧ t.kind = kind) :=
  fun _ _ => ⟨_, rfl, whole_build sort h, rfl⟩

theorem Takes.field {p : Parser Tree} (h : Takes p cs after Whole) (f : Field) :
    Takes (field f p) cs after Whole :=
  h.bind_end fun _ ht => takes_pure (whole_inField ht f)

theorem Refuses.field {p : Parser Tree} (h : Refuses p cs) (f : Field) : Refuses (field f p) cs :=
  h.bind

theorem Takes.one {p : Parser Tree} (h : Takes p cs after Whole) : Takes (one p) cs after AllWhole :=
  h.bind_end fun _ ht => takes_pure (allWhole_singleton ht)

theorem Refuses.one {p : Parser Tree} (h : Refuses p cs) : Refuses (one p) cs := h.bind

end Parser

end SuiteDraft.Grammar
