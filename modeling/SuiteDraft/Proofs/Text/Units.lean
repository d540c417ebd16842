import Mathlib.Tactic
import SuiteDraft.Text.Units

/-!
# Texts by their sixteen-bit units

What the reading of code points amounts to: each is taken as its units, and the units are read as
characters, two that make up a pair as one, and a half that stands alone as the replacement.
-/

namespace SuiteDraft.Text

/-- The units of a code point: itself in the basic plane, and a high and a low one beyond it. -/
def unitsOf (n : Nat) : List Nat :=
  if n < 0x10000 then [n] else [0xD800 + (n - 0x10000) / 0x400, 0xDC00 + (n - 0x10000) % 0x400]

/-- These units read as these characters. -/
inductive Decodes : List Nat → List Char → Prop
  | nil : Decodes [] []
  | char (c : Char) {units : List Nat} {cs : List Char} (rest : Decodes units cs) :
      Decodes (unitsOf c.toNat ++ units) (c :: cs)
  | high {u : Nat} {units : List Nat} {cs : List Char} (high : isHighUnit u = true)
      (alone : ∀ v ∈ units.head?, isLowUnit v = false) (rest : Decodes units cs) :
      Decodes (u :: units) (replacement :: cs)
  | low {u : Nat} {units : List Nat} {cs : List Char} (low : isLowUnit u = true)
      (rest : Decodes units cs) : Decodes (u :: units) (replacement :: cs)

theorem isHighUnit_iff {n : Nat} : isHighUnit n = true ↔ 0xD800 ≤ n ∧ n ≤ 0xDBFF := by
  simp [isHighUnit]

theorem isLowUnit_iff {n : Nat} : isLowUnit n = true ↔ 0xDC00 ≤ n ∧ n ≤ 0xDFFF := by
  simp [isLowUnit]

theorem isHighUnit_eq_false {n : Nat} (h : n < 0xD800 ∨ 0xDBFF < n) : isHighUnit n = false := by
  rw [← Bool.not_eq_true, isHighUnit_iff]
  omega

theorem isLowUnit_eq_false {n : Nat} (h : n < 0xDC00 ∨ 0xDFFF < n) : isLowUnit n = false := by
  rw [← Bool.not_eq_true, isLowUnit_iff]
  omega

/-! ### The reading, by what stands first -/

theorem ofCodePoints_char {n : Nat} (high : isHighUnit n = false) (low : isLowUnit n = false)
    (points : List Nat) : ofCodePoints (n :: points) = Char.ofNat n :: ofCodePoints points := by
  cases points <;> simp [ofCodePoints, high, low]

theorem ofCodePoints_pair {n m : Nat} (high : isHighUnit n = true) (low : isLowUnit m = true)
    (points : List Nat) :
    ofCodePoints (n :: m :: points) = Char.ofNat (joinUnits n m) :: ofCodePoints points := by
  simp [ofCodePoints, high, low]

theorem ofCodePoints_high {n : Nat} (high : isHighUnit n = true) {points : List Nat}
    (alone : ∀ m ∈ points.head?, isLowUnit m = false) :
    ofCodePoints (n :: points) = replacement :: ofCodePoints points := by
  cases points with
  | nil => simp [ofCodePoints, high]
  | cons m points => simp [ofCodePoints, high, alone m rfl]

theorem ofCodePoints_low {n : Nat} (low : isLowUnit n = true) (points : List Nat) :
    ofCodePoints (n :: points) = replacement :: ofCodePoints points := by
  have high : isHighUnit n = false := by
    have := isLowUnit_iff.mp low
    exact isHighUnit_eq_false (by omega)
  cases points <;> simp [ofCodePoints, high, low]

/-! ### Code points and units -/

theorem unitsOf_basic {n : Nat} (h : n < 0x10000) : unitsOf n = [n] := by
  simp only [unitsOf, h, if_true]

theorem joinUnits_unitsOf {n : Nat} (h : 0x10000 ≤ n) :
    joinUnits (0xD800 + (n - 0x10000) / 0x400) (0xDC00 + (n - 0x10000) % 0x400) = n := by
  unfold joinUnits
  omega

theorem joinUnits_range {n m : Nat} (high : isHighUnit n = true) (low : isLowUnit m = true) :
    0x10000 ≤ joinUnits n m ∧ joinUnits n m ≤ 0x10FFFF := by
  rw [isHighUnit_iff] at high
  rw [isLowUnit_iff] at low
  unfold joinUnits
  omega

theorem unitsOf_joinUnits {n m : Nat} (high : isHighUnit n = true) (low : isLowUnit m = true) :
    unitsOf (joinUnits n m) = unitsOf n ++ unitsOf m := by
  have beyond := (joinUnits_range high low).1
  rw [isHighUnit_iff] at high
  rw [isLowUnit_iff] at low
  rw [unitsOf_basic (by omega : n < 0x10000), unitsOf_basic (by omega : m < 0x10000)]
  simp only [unitsOf, Nat.not_lt.mpr beyond, if_false, List.singleton_append, List.cons.injEq,
    and_true]
  unfold joinUnits
  omega

-- A code point that is no half is the number of a character.
theorem toNat_ofNat_point {n : Nat} (range : n ≤ 0x10FFFF) (high : isHighUnit n = false)
    (low : isLowUnit n = false) : (Char.ofNat n).toNat = n := by
  rw [← Bool.not_eq_true, isHighUnit_iff] at high
  rw [← Bool.not_eq_true, isLowUnit_iff] at low
  have valid : n.isValidChar := by
    rw [Nat.isValidChar]
    omega
  rw [Char.ofNat, dif_pos valid]
  rfl

theorem toNat_point (c : Char) : c.toNat < 0xD800 ∨ 0xDFFF < c.toNat ∧ c.toNat < 0x110000 := c.valid

theorem isHighUnit_toNat (c : Char) : isHighUnit c.toNat = false :=
  isHighUnit_eq_false (by have := toNat_point c; omega)

theorem isLowUnit_toNat (c : Char) : isLowUnit c.toNat = false :=
  isLowUnit_eq_false (by have := toNat_point c; omega)

/-! ### The reading is right -/

theorem ofCodePoints_unitsOf_append (c : Char) (units : List Nat) :
    ofCodePoints (unitsOf c.toNat ++ units) = c :: ofCodePoints units := by
  by_cases basic : c.toNat < 0x10000
  · rw [unitsOf_basic basic, List.singleton_append,
      ofCodePoints_char (isHighUnit_toNat c) (isLowUnit_toNat c), Char.ofNat_toNat]
  · have range := toNat_point c
    rw [unitsOf, if_neg basic, List.cons_append, List.singleton_append,
      ofCodePoints_pair (isHighUnit_iff.mpr (by omega)) (isLowUnit_iff.mpr (by omega)),
      joinUnits_unitsOf (by omega), Char.ofNat_toNat]

/-- Code points that are characters are those characters. -/
theorem ofCodePoints_toNat (text : List Char) : ofCodePoints (text.map Char.toNat) = text := by
  induction text with
  | nil => rfl
  | cons c text ih =>
    rw [List.map_cons, ofCodePoints_char (isHighUnit_toNat c) (isLowUnit_toNat c), ih,
      Char.ofNat_toNat]

theorem Decodes.ofCodePoints_eq {units : List Nat} {cs : List Char} (h : Decodes units cs) :
    ofCodePoints units = cs := by
  induction h with
  | nil => rfl
  | char c rest ih => rw [ofCodePoints_unitsOf_append, ih]
  | high high alone rest ih => rw [ofCodePoints_high high alone, ih]
  | low low rest ih => rw [ofCodePoints_low low, ih]

/-- Units read as one text. -/
theorem Decodes.unique {units : List Nat} {cs cs' : List Char} (h : Decodes units cs)
    (h' : Decodes units cs') : cs = cs' :=
  h.ofCodePoints_eq.symm.trans h'.ofCodePoints_eq

theorem isLowUnit_head?_unitsOf {n : Nat} (range : n ≤ 0x10FFFF) (low : isLowUnit n = false)
    (units : List Nat) : ∀ v ∈ (unitsOf n ++ units).head?, isLowUnit v = false := by
  intro v hv
  by_cases basic : n < 0x10000
  · rw [unitsOf_basic basic, List.singleton_append, List.head?_cons, Option.mem_some_iff] at hv
    rw [← hv, low]
  · rw [unitsOf, if_neg basic, List.cons_append, List.head?_cons, Option.mem_some_iff] at hv
    exact isLowUnit_eq_false (by omega)

theorem Decodes.point {n : Nat} {units : List Nat} {cs : List Char} (range : n ≤ 0x10FFFF)
    (whole : (isHighUnit n || isLowUnit n) = false) (rest : Decodes units cs) :
    Decodes (unitsOf n ++ units) (Char.ofNat n :: cs) := by
  rw [Bool.or_eq_false_iff] at whole
  have toNat_eq := toNat_ofNat_point range whole.1 whole.2
  have step := Decodes.char (Char.ofNat n) rest
  rwa [toNat_eq] at step

theorem Decodes.half {n : Nat} {units : List Nat} {cs : List Char}
    (half : (isHighUnit n || isLowUnit n) = true)
    (alone : isHighUnit n = true → ∀ v ∈ units.head?, isLowUnit v = false)
    (rest : Decodes units cs) : Decodes (unitsOf n ++ units) (replacement :: cs) := by
  rw [Bool.or_eq_true] at half
  have basic : n < 0x10000 := by
    rw [isHighUnit_iff, isLowUnit_iff] at half
    omega
  rw [unitsOf_basic basic, List.singleton_append]
  cases half with
  | inl isHigh => exact .high isHigh (alone isHigh) rest
  | inr isLow => exact .low isLow rest

/-- Code points are read as their units are: it makes no difference in which form a pair or a half
of one was given. -/
theorem decodes_ofCodePoints (points : List Nat) (range : ∀ n ∈ points, n ≤ 0x10FFFF) :
    Decodes (points.flatMap unitsOf) (ofCodePoints points) := by
  fun_induction ofCodePoints points with
  | case1 => exact .nil
  | case2 n half => exact .half half (fun _ => nofun) .nil
  | case3 n whole =>
    exact .point (range n List.mem_cons_self) (Bool.eq_false_of_not_eq_true whole) .nil
  | case4 n m rest pair ih =>
    have decodes := ih fun k hk => range k (List.mem_cons_of_mem _ (List.mem_cons_of_mem _ hk))
    rw [Bool.and_eq_true] at pair
    have joined := joinUnits_range pair.1 pair.2
    have whole : (isHighUnit (joinUnits n m) || isLowUnit (joinUnits n m)) = false := by
      rw [isHighUnit_eq_false (by omega), isLowUnit_eq_false (by omega), Bool.or_false]
    have step := Decodes.point joined.2 whole decodes
    rwa [unitsOf_joinUnits pair.1 pair.2, List.append_assoc] at step
  | case5 n m rest pair half ih =>
    have decodes := ih fun k hk => range k (List.mem_cons_of_mem _ hk)
    refine .half half ?_ decodes
    intro isHigh
    have notLow : isLowUnit m = false := by simpa [isHigh] using pair
    exact isLowUnit_head?_unitsOf (range m (by simp)) notLow _
  | case6 n m rest pair whole ih =>
    have decodes := ih fun k hk => range k (List.mem_cons_of_mem _ hk)
    exact .point (range n List.mem_cons_self) (Bool.eq_false_of_not_eq_true whole) decodes

/-- A character that is one unit and no replacement is in a text as often as among its units. -/
theorem Decodes.count_eq {c : Char} (basic : c.toNat < 0x10000) (notReplacement : c ≠ replacement)
    {units : List Nat} {cs : List Char} (h : Decodes units cs) :
    cs.count c = units.count c.toNat := by
  have high_ne : ∀ u, isHighUnit u = true → u ≠ c.toNat := by
    intro u high u_eq
    rw [u_eq, isHighUnit_toNat] at high
    cases high
  have low_ne : ∀ u, isLowUnit u = true → u ≠ c.toNat := by
    intro u low u_eq
    rw [u_eq, isLowUnit_toNat] at low
    cases low
  induction h with
  | nil => rfl
  | char d rest ih =>
    rw [List.count_append, List.count_cons, ih, Nat.add_comm]
    by_cases d_basic : d.toNat < 0x10000
    · rw [unitsOf_basic d_basic, List.count_singleton]
      simp only [beq_iff_eq, Char.toNat_inj]
    · have range := toNat_point d
      have d_ne : d ≠ c := fun d_eq => d_basic (d_eq ▸ basic)
      have high := high_ne (0xD800 + (d.toNat - 0x10000) / 0x400) (isHighUnit_iff.mpr (by omega))
      have low := low_ne (0xDC00 + (d.toNat - 0x10000) % 0x400) (isLowUnit_iff.mpr (by omega))
      rw [unitsOf, if_neg d_basic, List.count_cons_of_ne high, List.count_cons_of_ne low]
      simp [d_ne]
  | high high alone rest ih =>
    rw [List.count_cons_of_ne notReplacement.symm, List.count_cons_of_ne (high_ne _ high), ih]
  | low low rest ih =>
    rw [List.count_cons_of_ne notReplacement.symm, List.count_cons_of_ne (low_ne _ low), ih]

end SuiteDraft.Text
