import Mathlib.Data.List.Forall2
import Mathlib.Data.List.Zip
import SuiteDraft.Proofs.Tree.Walk

/-!
# Lists and runs in lockstep

When the members of two lists correspond one by one, a search in both finds members that correspond,
and runs over both come to results that correspond, or fail alike.
-/

namespace SuiteDraft

variable {α β γ δ ε σ τ : Type}

theorem rel_cases {R : α → β → Prop} {x : Option α} {y : Option β} (h : Option.Rel R x y) :
    (x = none ∧ y = none) ∨ ∃ a b, x = some a ∧ y = some b ∧ R a b := by
  cases h with
  | none => exact .inl ⟨rfl, rfl⟩
  | some hr => exact .inr ⟨_, _, rfl, rfl, hr⟩

/-! ## Lists -/

section

variable {R : α → β → Prop} {l : List α} {l' : List β}

theorem forall₂_exists_of_mem_right (h : List.Forall₂ R l l') {b : β} (mem : b ∈ l') :
    ∃ a ∈ l, R a b := by
  obtain ⟨i, hi, rfl⟩ := List.mem_iff_getElem.mp mem
  have hi' : i < l.length := h.length_eq ▸ hi
  exact ⟨l[i], List.getElem_mem hi', h.get hi' hi⟩

theorem forall₂_head? (h : List.Forall₂ R l l') : Option.Rel R l.head? l'.head? := by
  cases h with
  | nil => exact .none
  | cons hr _ => exact .some hr

/-- A search for what members that correspond agree on finds members that correspond. -/
theorem forall₂_find? {S : α → β → Prop} {p : α → Bool} {q : β → Bool}
    (hpq : ∀ a b, R a b → p a = q b) (hs : ∀ a b, R a b → S a b) (h : List.Forall₂ R l l') :
    Option.Rel S (l.find? p) (l'.find? q) := by
  induction h with
  | nil => exact .none
  | @cons a b _ _ hr _ ih =>
    rw [List.find?_cons, List.find?_cons, hpq a b hr]
    cases q b with
    | true => exact .some (hs a b hr)
    | false => exact ih

theorem forall₂_filter {p : α → Bool} {q : β → Bool} (hpq : ∀ a b, R a b → p a = q b)
    (h : List.Forall₂ R l l') :
    List.Forall₂ (fun a b => R a b ∧ p a = true) (l.filter p) (l'.filter q) := by
  induction h with
  | nil => exact .nil
  | @cons a b _ _ hr _ ih =>
    cases hp : p a with
    | true =>
      rw [List.filter_cons_of_pos hp, List.filter_cons_of_pos (hpq a b hr ▸ hp)]
      exact .cons ⟨hr, hp⟩ ih
    | false =>
      have hq : q b = false := hpq a b hr ▸ hp
      rw [List.filter_cons_of_neg (by simp [hp]), List.filter_cons_of_neg (by simp [hq])]
      exact ih

theorem forall₂_flatMap {S : γ → δ → Prop} {f : α → List γ} {g : β → List δ}
    (hfg : ∀ a ∈ l, ∀ b, R a b → List.Forall₂ S (f a) (g b)) (h : List.Forall₂ R l l') :
    List.Forall₂ S (l.flatMap f) (l'.flatMap g) := by
  induction h with
  | nil => exact .nil
  | cons hr _ ih =>
    rcases List.forall_mem_cons.mp hfg with ⟨ha, hl⟩
    rw [List.flatMap_cons, List.flatMap_cons]
    exact List.rel_append (ha _ hr) (ih hl)

/-- A search for all that members have to show keeps, of these members, those that show something. -/
theorem forall₂_filterMap {f : α → Option β} (h : ∀ a ∈ l, ∀ b, f a = some b → R a b) :
    List.Forall₂ R (l.filter fun a => (f a).isSome) (l.filterMap f) := by
  induction l with
  | nil => exact .nil
  | cons a l ih =>
    rcases List.forall_mem_cons.mp h with ⟨ha, hl⟩
    cases hfa : f a with
    | none =>
      rw [List.filter_cons_of_neg (by simp [hfa]), List.filterMap_cons_none hfa]
      exact ih hl
    | some b =>
      rw [List.filter_cons_of_pos (by simp [hfa]), List.filterMap_cons_some hfa]
      exact .cons (ha b hfa) (ih hl)

/-- Lists that correspond are both empty or neither, and so they correspond with the lists that may
stand in for them. -/
theorem forall₂_ite_isEmpty {d : List α} {d' : List β} (hd : List.Forall₂ R d d')
    (h : List.Forall₂ R l l') :
    List.Forall₂ R (if l.isEmpty then d else l) (if l'.isEmpty then d' else l') := by
  cases h with
  | nil => exact hd
  | cons hr h => exact .cons hr h

/-- What is asked of each of two lists' members comes to the same when it does for members that
correspond. -/
theorem map_eq_of_forall₂ {f : α → γ} {g : β → γ} (hfg : ∀ a b, R a b → f a = g b)
    (h : List.Forall₂ R l l') : l.map f = l'.map g := by
  induction h with
  | nil => rfl
  | cons hr _ ih => rw [List.map_cons, List.map_cons, hfg _ _ hr, ih]

theorem filterMap_eq_of_forall₂ {f : α → Option γ} {g : β → Option γ}
    (hfg : ∀ a b, R a b → f a = g b) (h : List.Forall₂ R l l') :
    l.filterMap f = l'.filterMap g := by
  induction h with
  | nil => rfl
  | cons hr _ ih => rw [List.filterMap_cons, List.filterMap_cons, hfg _ _ hr, ih]

theorem findSome?_eq_of_forall₂ {f : α → Option γ} {g : β → Option γ}
    (hfg : ∀ a b, R a b → f a = g b) (h : List.Forall₂ R l l') :
    l.findSome? f = l'.findSome? g := by
  induction h with
  | nil => rfl
  | cons hr _ ih => rw [List.findSome?_cons, List.findSome?_cons, hfg _ _ hr, ih]

theorem mapM_eq_of_forall₂ {f : α → Except ε γ} {g : β → Except ε γ}
    (hfg : ∀ a b, R a b → f a = g b) (h : List.Forall₂ R l l') : l.mapM f = l'.mapM g := by
  induction h with
  | nil => rfl
  | cons hr _ ih => rw [List.mapM_cons, List.mapM_cons, hfg _ _ hr, ih]

/-- A run that succeeds gives one result for each member. -/
theorem mapM_eq_ok_iff {f : α → Except ε β} :
    l.mapM f = .ok l' ↔ List.Forall₂ (fun a b => f a = .ok b) l l' := by
  induction l generalizing l' with
  | nil =>
    rw [List.forall₂_nil_left_iff]
    exact ⟨fun h => (Except.ok.inj h).symm, fun h => h ▸ rfl⟩
  | cons a l ih =>
    rw [List.mapM_cons, bind_eq_ok_iff, List.forall₂_cons_left_iff]
    simp only [bind_eq_ok_iff, ih]
    constructor
    · rintro ⟨b, hb, rest, hrest, heq⟩
      exact ⟨b, rest, hb, hrest, (Except.ok.inj heq).symm⟩
    · rintro ⟨b, rest, hb, hrest, rfl⟩
      exact ⟨b, hb, rest, hrest, rfl⟩

theorem mapM_eq_some_of_forall₂ {f : α → Option β}
    (h : List.Forall₂ (fun a b => f a = some b) l l') : l.mapM f = some l' := by
  induction h with
  | nil => rfl
  | cons here _ ih =>
    rw [List.mapM_cons, here, ih]
    rfl

theorem foldlM_eq_of_forall₂ {f : σ → α → Except ε σ} {g : σ → β → Except ε σ}
    (hfg : ∀ s a b, R a b → f s a = g s b) (h : List.Forall₂ R l l') (s : σ) :
    l.foldlM f s = l'.foldlM g s := by
  induction h generalizing s with
  | nil => rfl
  | cons hr _ ih =>
    rw [List.foldlM_cons, List.foldlM_cons, hfg _ _ _ hr]
    exact bind_congr ih

theorem zip_right_unique (hl : l.Nodup) {a : α} {b b' : β} (h : (a, b) ∈ l.zip l')
    (h' : (a, b') ∈ l.zip l') : b = b' := by
  induction l generalizing l' with
  | nil => cases h
  | cons x l ih =>
    cases l' with
    | nil => cases h
    | cons y l' =>
      rcases List.nodup_cons.mp hl with ⟨hx, hl⟩
      rw [List.zip_cons_cons, List.mem_cons] at h h'
      rcases h with heq | h <;> rcases h' with heq' | h'
      · cases heq
        cases heq'
        rfl
      · cases heq
        exact absurd (List.of_mem_zip h').1 hx
      · cases heq'
        exact absurd (List.of_mem_zip h).1 hx
      · exact ih hl h h'

theorem zip_left_unique (hl : l'.Nodup) {a a' : α} {b : β} (h : (a, b) ∈ l.zip l')
    (h' : (a', b) ∈ l.zip l') : a = a' := by
  have hswap : ∀ {x : α}, (x, b) ∈ l.zip l' → (b, x) ∈ l'.zip l := fun hx => by
    rw [← List.zip_swap]
    exact List.mem_map_of_mem hx
  exact zip_right_unique hl (hswap h) (hswap h')

end

/-- A run may pass over what leaves every state as it is. -/
theorem foldlM_filter_eq {f : σ → α → Except ε σ} {p : α → Bool} {l : List α}
    (h : ∀ a ∈ l, p a = false → ∀ s, f s a = .ok s) (s : σ) :
    (l.filter p).foldlM f s = l.foldlM f s := by
  induction l generalizing s with
  | nil => rfl
  | cons a l ih =>
    rcases List.forall_mem_cons.mp h with ⟨ha, hl⟩
    cases hp : p a with
    | true =>
      rw [List.filter_cons_of_pos hp, List.foldlM_cons, List.foldlM_cons]
      exact bind_congr (ih hl)
    | false =>
      rw [List.filter_cons_of_neg (by simp [hp]), List.foldlM_cons, ha hp, ok_bind, ih hl]

theorem find?_filter_eq {p q : α → Bool} {l : List α} (h : ∀ a ∈ l, p a = false → q a = false) :
    (l.filter p).find? q = l.find? q := by
  rw [← List.head?_filter, ← List.head?_filter, List.filter_filter]
  refine congrArg List.head? (List.filter_congr fun a ha => ?_)
  cases hp : p a with
  | true => rw [Bool.and_true]
  | false => rw [h a ha hp, Bool.and_false]

theorem findSome?_filter_eq {f : α → Option γ} {p : α → Bool} {l : List α}
    (h : ∀ a ∈ l, p a = false → f a = none) : (l.filter p).findSome? f = l.findSome? f := by
  induction l with
  | nil => rfl
  | cons a l ih =>
    rcases List.forall_mem_cons.mp h with ⟨ha, hl⟩
    cases hp : p a with
    | true => rw [List.filter_cons_of_pos hp, List.findSome?_cons, List.findSome?_cons, ih hl]
    | false => rw [List.filter_cons_of_neg (by simp [hp]), List.findSome?_cons, ha hp, ih hl]

theorem flatMap_filter_eq {f : α → List γ} {p : α → Bool} {l : List α}
    (h : ∀ a ∈ l, p a = false → f a = []) : (l.filter p).flatMap f = l.flatMap f := by
  induction l with
  | nil => rfl
  | cons a l ih =>
    rcases List.forall_mem_cons.mp h with ⟨ha, hl⟩
    cases hp : p a with
    | true => rw [List.filter_cons_of_pos hp, List.flatMap_cons, List.flatMap_cons, ih hl]
    | false =>
      rw [List.filter_cons_of_neg (by simp [hp]), List.flatMap_cons, ha hp, List.nil_append, ih hl]

/-! ## Runs -/

/-- Two results correspond: both are values that do, or both are the same failure. -/
inductive InStep (R : α → β → Prop) : Except ε α → Except ε β → Prop
  | ok {a : α} {b : β} (h : R a b) : InStep R (.ok a) (.ok b)
  | error (e : ε) : InStep R (.error e) (.error e)

namespace InStep

variable {R : α → β → Prop} {S : γ → δ → Prop}

theorem of_eq {x : Except ε α} : InStep (· = ·) x x := by
  cases x with
  | ok a => exact .ok rfl
  | error e => exact .error e

theorem bind {x : Except ε α} {y : Except ε β} {f : α → Except ε γ} {g : β → Except ε δ}
    (h : InStep R x y) (hfg : ∀ a b, R a b → InStep S (f a) (g b)) :
    InStep S (x >>= f) (y >>= g) := by
  cases h with
  | ok hr => exact hfg _ _ hr
  | error e => exact .error e

/-- A run over lists that correspond comes to states that correspond, when each step does. -/
theorem foldlM {T : σ → τ → Prop} {f : σ → α → Except ε σ} {g : τ → β → Except ε τ}
    {l : List α} {l' : List β} {s : σ} {t : τ}
    (step : ∀ s t a b, T s t → R a b → InStep T (f s a) (g t b))
    (hl : List.Forall₂ R l l') (hst : T s t) : InStep T (l.foldlM f s) (l'.foldlM g t) := by
  induction hl generalizing s t with
  | nil => exact .ok hst
  | cons hr _ ih =>
    rw [List.foldlM_cons, List.foldlM_cons]
    exact (step _ _ _ _ hst hr).bind fun _ _ h => ih h

/-- A run may pass over what leaves every state as it is, and keep step with what is left. -/
theorem foldlM_filter {T : σ → τ → Prop} {f : σ → α → Except ε σ} {g : τ → β → Except ε τ}
    {p : α → Bool} {q : β → Bool} {l : List α} {l' : List β} {s : σ} {t : τ}
    (hp : ∀ a, p a = false → ∀ s, f s a = .ok s) (hq : ∀ b, q b = false → ∀ t, g t b = .ok t)
    (step : ∀ s t a b, T s t → R a b → InStep T (f s a) (g t b))
    (hl : List.Forall₂ R (l.filter p) (l'.filter q)) (hst : T s t) :
    InStep T (l.foldlM f s) (l'.foldlM g t) := by
  have hrun := foldlM step hl hst
  rw [foldlM_filter_eq fun a _ => hp a, foldlM_filter_eq fun b _ => hq b] at hrun
  exact hrun

theorem eq {x y : Except ε α} (h : InStep (· = ·) x y) : x = y := by
  cases h with
  | ok h => rw [h]
  | error e => rfl

end InStep

end SuiteDraft
