import SuiteDraft.Grammar.Lexeme
import SuiteDraft.Proofs.Source.Marks

/-!
# Scans by the characters before them

A scan looks at the characters of what is left and never at their places. Whether it finds its word,
and how many characters the word has, is said of the characters alone; what holds of a scan that is
put together then follows from what holds of its parts.
-/

namespace SuiteDraft

namespace Grammar

open Input

/-- Before these characters a scan finds a word of this length, or none. -/
structure Finds (scan : Scan) (cs : List Char) (found : Option Nat) : Prop where
  le : ∀ n ∈ found, n ≤ cs.length
  eq : ∀ s : Input, s.Numbered → s.chars = cs → scan s = found.map s.drop

namespace Finds

variable {a b : Scan} {cs : List Char} {p : Char → Bool}

theorem exactly_none {word : String} (h : word.toList.isPrefixOf cs = false) :
    Finds (exactly word) cs none where
  le := nofun
  eq s _ hs := by
    rw [exactly, startsWith_eq, hs, h]
    rfl

theorem exactly_append (word : String) (after : List Char) :
    Finds (exactly word) (word.toList ++ after) (some word.toList.length) where
  le n hn := by
    rw [← Option.some.inj hn, List.length_append]
    omega
  eq s _ hs := by
    rw [exactly, startsWith_eq, hs, List.isPrefixOf_iff_prefix.mpr (List.prefix_append _ _)]
    rfl

theorem charIf_some {c : Char} (h : p c = true) (after : List Char) :
    Finds (charIf p) (c :: after) (some 1) where
  le n hn := by
    rw [← Option.some.inj hn, List.length_cons]
    omega
  eq s _ hs := by
    cases s with
    | nil => cases hs
    | cons m rest =>
      have char_eq : m.char = c := (List.cons.inj hs).1
      rw [charIf, char_eq, if_pos h]
      rfl

theorem charIf_none (h : ∀ c ∈ cs.head?, p c = false) : Finds (charIf p) cs none where
  le := nofun
  eq s _ hs := by
    cases s with
    | nil => rfl
    | cons m rest =>
      have fails : p m.char = false := h m.char (by rw [← hs]; rfl)
      rw [charIf, fails]
      rfl

theorem andThen_some {n : Nat} {found : Option Nat} (ha : Finds a cs (some n))
    (hb : Finds b (cs.drop n) found) : Finds (a.andThen b) cs (found.map (n + ·)) where
  le k hk := by
    cases found with
    | none => cases hk
    | some m =>
      have first := ha.le n rfl
      have second := hb.le m rfl
      rw [List.length_drop] at second
      have sum : n + m = k := Option.some.inj hk
      omega
  eq s numbered hs := by
    have rest := hb.eq (s.drop n) (numbered.drop n) (by rw [chars_drop, hs])
    rw [Scan.andThen, ha.eq s numbered hs, Option.map_some, Option.bind_some, rest]
    cases found with
    | none => rfl
    | some m => simp only [Option.map_some, List.drop_drop]

theorem andThen_none (ha : Finds a cs none) : Finds (a.andThen b) cs none where
  le := nofun
  eq s numbered hs := by
    rw [Scan.andThen, ha.eq s numbered hs]
    rfl

theorem takeWhile_append_stop {run after : List Char} (passes : ∀ c ∈ run, p c = true)
    (stop : ∀ c ∈ after.head?, p c = false) : (run ++ after).takeWhile p = run := by
  rw [List.takeWhile_append_of_pos passes]
  cases after with
  | nil => simp
  | cons c after => simp [stop c rfl]

theorem between_eq {least more : Nat} {run : List Char}
    (run_eq : (cs.take (least + more)).takeWhile p = run) (enough : least ≤ run.length) :
    Finds (between p least more) cs (some run.length) where
  le n hn := by
    have shorter := (List.takeWhile_prefix p (l := cs.take (least + more))).length_le
    rw [run_eq, List.length_take] at shorter
    rw [← Option.some.inj hn]
    omega
  eq s _ hs := by
    have length_eq : ((s.take (least + more)).takeWhile fun m => p m.char).length = run.length := by
      rw [length_takeWhile_chars, chars, List.map_take]
      show ((s.chars.take _).takeWhile p).length = _
      rw [hs, run_eq]
    simp only [between, length_eq, if_pos enough]
    rfl

theorem between_run {least more : Nat} {run after : List Char} (passes : ∀ c ∈ run, p c = true)
    (enough : least ≤ run.length) (atMost : run.length ≤ least + more)
    (stop : ∀ c ∈ (after.take (least + more - run.length)).head?, p c = false) :
    Finds (between p least more) (run ++ after) (some run.length) := by
  apply between_eq _ enough
  rw [List.take_append, List.take_of_length_le atMost, takeWhile_append_stop passes stop]

theorem between_none {least more : Nat} (positive : 0 < least)
    (stop : ∀ c ∈ cs.head?, p c = false) : Finds (between p least more) cs none where
  le := nofun
  eq s _ hs := by
    have run_eq : (s.take (least + more)).takeWhile (fun m => p m.char) = [] := by
      cases s with
      | nil => simp
      | cons m rest =>
        have fails : p m.char = false := stop m.char (by rw [← hs]; rfl)
        cases least + more with
        | zero => rfl
        | succ k => simp [fails]
    simp only [between, run_eq, List.length_nil, if_neg (Nat.not_le.mpr positive)]
    rfl

theorem run1_run {c : Char} {run after : List Char} (passes : ∀ d ∈ c :: run, p d = true)
    (stop : ∀ d ∈ after.head?, p d = false) :
    Finds (run1 p) (c :: run ++ after) (some (c :: run).length) := by
  have skips : Finds (fun s => some (s.skipWhile p)) (run ++ after) (some run.length) := by
    refine ⟨fun n hn => ?_, fun s _ hs => ?_⟩
    · rw [← Option.some.inj hn, List.length_append]
      omega
    · have passes' : ∀ d ∈ run, p d = true := fun d hd => passes d (List.mem_cons_of_mem _ hd)
      rw [skipWhile_eq_drop, hs, takeWhile_append_stop passes' stop]
      rfl
  have both := andThen_some (charIf_some (passes c List.mem_cons_self) (run ++ after)) skips
  rwa [Option.map_some, Nat.add_comm] at both

theorem run1_none (h : ∀ c ∈ cs.head?, p c = false) : Finds (run1 p) cs none :=
  andThen_none (charIf_none h)

/-! ### Where the first character fails -/

section

variable {c : Char} {after : List Char}

theorem charIf_not {p : Char → Bool} (h : p c = false) : Finds (charIf p) (c :: after) none :=
  charIf_none fun _ hd => Option.some.inj hd ▸ h

theorem between_not {p : Char → Bool} {least more : Nat} (positive : 0 < least) (h : p c = false) :
    Finds (between p least more) (c :: after) none :=
  between_none positive fun _ hd => Option.some.inj hd ▸ h

theorem exactly_not {word : String} {d : Char} {ds : List Char} (word_eq : word.toList = d :: ds)
    (h : d ≠ c) : Finds (exactly word) (c :: after) none := by
  apply exactly_none
  rw [word_eq, List.isPrefixOf, beq_eq_false_iff_ne.mpr h, Bool.false_and]

end

/-! ### The longest of several words -/

-- What is left after the longer of two words.
def longer (best : Option Input) (rest : Input) : Option Input :=
  match best with
  | none => some rest
  | some b => if rest.left < b.left then some rest else some b

theorem longer_drop {s : Input} (numbered : s.Numbered) {n : Nat} (hn : n ≤ s.length)
    {best : Option Nat} (hbest : ∀ k ∈ best, k ≤ s.length) :
    longer (best.map s.drop) (s.drop n) = (max best (some n)).map s.drop := by
  cases best with
  | none => rfl
  | some k =>
    have hk := hbest k rfl
    simp only [longer, Option.map_some, numbered.left_drop, Option.max_some_some]
    by_cases further : k < n
    · rw [if_pos (by omega), Nat.max_eq_right (by omega)]
    · rw [if_neg (by omega), Nat.max_eq_left (by omega)]

theorem max_le {bound : Nat} {a b : Option Nat} (ha : ∀ n ∈ a, n ≤ bound)
    (hb : ∀ n ∈ b, n ≤ bound) : ∀ n ∈ max a b, n ≤ bound := by
  cases a with
  | none => cases b <;> exact hb
  | some k =>
    cases b with
    | none => exact ha
    | some m =>
      intro n hn
      rw [Option.max_some_some, Option.mem_some_iff] at hn
      rw [← hn]
      exact Nat.max_le.mpr ⟨ha k rfl, hb m rfl⟩

theorem foldl_max_le {scans : List Scan} {found : List (Option Nat)}
    (h : List.Forall₂ (fun scan word => Finds scan cs word) scans found) {best : Option Nat}
    (hbest : ∀ n ∈ best, n ≤ cs.length) : ∀ n ∈ found.foldl max best, n ≤ cs.length := by
  induction h generalizing best with
  | nil => exact hbest
  | cons first rest ih => exact ih (max_le hbest first.le)

theorem foldl_longer {s : Input} (numbered : s.Numbered) {scans : List Scan}
    {found : List (Option Nat)}
    (h : List.Forall₂ (fun scan word => Finds scan s.chars word) scans found)
    {best : Option Nat} (hbest : ∀ n ∈ best, n ≤ s.length) :
    (scans.filterMap (· s)).foldl longer (best.map s.drop) =
      (found.foldl max best).map s.drop := by
  induction h generalizing best with
  | nil => rfl
  | @cons scan word scans found first rest ih =>
    have le := first.le
    rw [length_chars] at le
    rw [List.filterMap_cons, first.eq s numbered rfl, List.foldl_cons, ← ih (max_le hbest le)]
    cases word with
    | none => rw [Option.max_none_right]; rfl
    | some n => rw [← longer_drop numbered (le n rfl) hbest]; rfl

/-- Of several words the longest is found. -/
theorem longest {scans : List Scan} {found : List (Option Nat)}
    (h : List.Forall₂ (fun scan word => Finds scan cs word) scans found) :
    Finds (Grammar.longest scans) cs (found.foldl max none) where
  le := foldl_max_le h nofun
  eq s numbered hs := by
    rw [← hs] at h
    have nothing : ∀ n ∈ (none : Option Nat), n ≤ s.length := nofun
    exact foldl_longer numbered h nothing

end Finds

end Grammar

end SuiteDraft
