import Mathlib.Tactic
import Mathlib.Data.List.Forall2

/-!
# Agreement of two computations that can fail

Two computations agree along `f` if both fail, or both succeed and `f` takes the result of the first to
the result of the second. The errors themselves are not compared.
-/

namespace Rtvbp.Lib

variable {α β γ δ ε ε' : Type}

/-- If a computation succeeds, so does each of its steps. -/
theorem exists_of_bind_eq_ok {x : Except ε α} {k : α → Except ε β} {b : β} (h : x >>= k = .ok b) :
    ∃ a, x = .ok a ∧ k a = .ok b := by
  cases x with
  | error e => cases h
  | ok a => exact ⟨a, rfl, h⟩

/-- Both computations fail, or both succeed with results that correspond along `f`. -/
inductive Agree (f : α → β) : Except ε α → Except ε' β → Prop where
  | error (e : ε) (e' : ε') : Agree f (.error e) (.error e')
  | ok (a : α) : Agree f (.ok a) (.ok (f a))

namespace Agree

variable {f : α → β} {g : γ → δ} {x : Except ε α} {y : Except ε' β}

@[simp] theorem error_error {e : ε} {e' : ε'} : Agree f (.error e) (.error e') := .error e e'

@[simp] theorem ok_ok_iff {a : α} {b : β} :
    Agree f (.ok a : Except ε α) (.ok b : Except ε' β) ↔ b = f a := by
  constructor
  · rintro ⟨⟩
    rfl
  · rintro rfl
    exact .ok a

/-- Agreeing computations can be continued by agreeing continuations. -/
theorem bind {k : α → Except ε γ} {k' : β → Except ε' δ} (h : Agree f x y)
    (hk : ∀ a, Agree g (k a) (k' (f a))) : Agree g (x >>= k) (y >>= k') := by
  cases h with
  | error e e' => exact .error e e'
  | ok a => exact hk a

/-- Agreeing computations can be mapped along a commuting square. -/
theorem map {k : α → γ} {k' : β → δ} (h : Agree f x y) (hk : ∀ a, k' (f a) = g (k a)) :
    Agree g (k <$> x) (k' <$> y) := by
  cases h with
  | error e e' => exact .error e e'
  | ok a => exact ok_ok_iff.2 (hk a)

/-- The second computation succeeds whenever the first does. -/
theorem eq_ok (h : Agree f x y) {a : α} (ha : x = .ok a) : y = .ok (f a) := by
  cases h with
  | error e e' => cases ha
  | ok b =>
    cases ha
    rfl

/-- Computations that succeed on corresponding results under the same condition agree. -/
theorem of_eq_ok_iff {p : Prop} {a : α} (hx : ∀ c, x = .ok c ↔ p ∧ c = a)
    (hy : ∀ d, y = .ok d ↔ p ∧ d = f a) : Agree f x y := by
  cases hxv : x with
  | ok c =>
    obtain ⟨hp, rfl⟩ := (hx c).mp hxv
    rw [(hy _).mpr ⟨hp, rfl⟩]
    exact .ok c
  | error e =>
    cases hyv : y with
    | error e' => exact .error e e'
    | ok d =>
      obtain ⟨hp, -⟩ := (hy d).mp hyv
      rw [(hx a).mpr ⟨hp, rfl⟩] at hxv
      cases hxv

end Agree

end Rtvbp.Lib

/-!
## Computations with fuel

A recursive function without a measure is a function of its fuel. It returns a value when it does so with every
amount of fuel from some point on.
-/

namespace Rtvbp.Lib

variable {α β : Type*}

/-- The computation returns the value with enough fuel, and with any more. -/
def Returns (run : Nat → Option α) (a : α) : Prop := ∃ n, ∀ fuel, n ≤ fuel → run fuel = some a

theorem returns_const (a : α) : Returns (fun _ => some a) a := ⟨0, fun _ _ => rfl⟩

theorem Returns.unique {run : Nat → Option α} {a b : α} (ha : Returns run a) (hb : Returns run b) : a = b := by
  obtain ⟨n, hn⟩ := ha
  obtain ⟨m, hm⟩ := hb
  have han := hn (max n m) (Nat.le_max_left n m)
  rw [hm (max n m) (Nat.le_max_right n m)] at han
  exact (Option.some.inj han).symm

/-- A call that takes one unit of fuel and goes on with the rest. -/
theorem Returns.of_succ {run run' : Nat → Option α} {a : α} (h : Returns run a)
    (hcall : ∀ fuel, run' (fuel + 1) = run fuel) : Returns run' a := by
  obtain ⟨n, hn⟩ := h
  refine ⟨n + 1, fun fuel hle => ?_⟩
  obtain ⟨m, rfl⟩ := Nat.exists_eq_add_of_le' hle
  rw [← Nat.add_assoc, hcall]
  exact hn _ (Nat.le_add_left n m)

theorem Returns.succ {run : Nat → Option α} {a : α} (h : Returns run a) :
    Returns (fun fuel => run (fuel + 1)) a := by
  obtain ⟨n, hn⟩ := h
  exact ⟨n, fun fuel hle => hn (fuel + 1) (Nat.le_succ_of_le hle)⟩

theorem Returns.map {run : Nat → Option α} {a : α} (h : Returns run a) (f : α → β) :
    Returns (fun fuel => (run fuel).map f) (f a) := by
  obtain ⟨n, hn⟩ := h
  refine ⟨n, fun fuel hle => ?_⟩
  simp [hn fuel hle]

/-- Calls on the items of a list return if each of them does. -/
theorem returns_mapM {run : Nat → α → Option β} {Q : α → β → Prop} {l : List α}
    (h : ∀ a ∈ l, ∃ b, Returns (fun fuel => run fuel a) b ∧ Q a b) :
    ∃ bs, Returns (fun fuel => l.mapM (run fuel)) bs ∧ List.Forall₂ Q l bs := by
  induction l with
  | nil => exact ⟨[], returns_const _, .nil⟩
  | cons a l ih =>
    obtain ⟨b, ⟨n, hn⟩, hb⟩ := h a (by simp)
    obtain ⟨bs, ⟨m, hm⟩, hbs⟩ := ih fun a ha => h a (by simp [ha])
    refine ⟨b :: bs, ⟨max n m, fun fuel hle => ?_⟩, .cons hb hbs⟩
    have hhead := hn fuel (Nat.le_trans (Nat.le_max_left n m) hle)
    have htail := hm fuel (Nat.le_trans (Nat.le_max_right n m) hle)
    simp only at hhead htail
    simp [List.mapM_cons, hhead, htail]

end Rtvbp.Lib
