import Rtvbp.Lib.Machine
import Mathlib.Logic.Function.Basic

/-!
# Threads over a shared state

Any number of threads run the same program, each with a local state of its own, and an environment acts
beside them; they meet only in the shared state. An invariant of such a machine has two parts: `K` for
the shared state, and `J` for every thread, which relates its local state to the shared one. By the rule
of this module each step is checked against `K` and the `J` of the thread that makes it, and against the
interference with the `J` of the others, whatever their local states are.
-/

namespace Rtvbp.Lib

/-- A program for the threads `ι` with the shared states `σ`, the local states `τ`, the actions `α` of a
thread and the actions `β` of the environment. -/
structure Threads (ι σ τ α β : Type*) where
  /-- The shared states at the start. -/
  Start : σ → Prop
  /-- The local state of a thread at the start. -/
  new : ι → τ
  act : ι → σ → τ → α → Option (σ × τ)
  env : σ → β → Option σ

namespace Threads

variable {ι σ τ α β : Type*}

/-- The shared state and the local states. -/
structure State (ι σ τ : Type*) where
  shared : σ
  locals : ι → τ

/-- A step of a thread, or of the environment. -/
inductive Action (ι α β : Type*) where
  | act (i : ι) (a : α)
  | env (e : β)

variable [DecidableEq ι] (P : Threads ι σ τ α β)

/-- One step. -/
def step (s : State ι σ τ) : Action ι α β → Option (State ι σ τ)
  | .act i a => (P.act i s.shared (s.locals i) a).map fun r => ⟨r.1, Function.update s.locals i r.2⟩
  | .env e => (P.env s.shared e).map fun shared => { s with shared := shared }

/-- The threads as a machine. -/
def machine : Machine (State ι σ τ) (Action ι α β) where
  Start s := P.Start s.shared ∧ s.locals = P.new
  step := P.step

/-- A condition on the steps of the threads and of the environment. -/
def When (G : ι → σ → τ → α → Prop) (H : σ → β → Prop) (s : State ι σ τ) : Action ι α β → Prop
  | .act i a => G i s.shared (s.locals i) a
  | .env e => H s.shared e

/-- A condition that can be tested on the steps of the threads and of the environment can be tested. -/
instance decidableWhen (G : ι → σ → τ → α → Prop) (H : σ → β → Prop)
    [∀ i s l a, Decidable (G i s l a)] [∀ s e, Decidable (H s e)] (s : State ι σ τ) :
    ∀ a : Action ι α β, Decidable (When G H s a)
  | .act i a => inferInstanceAs (Decidable (G i s.shared (s.locals i) a))
  | .env e => inferInstanceAs (Decidable (H s.shared e))

/-- The shared part and the part of every thread. -/
def Holds (K : σ → Prop) (J : ι → σ → τ → Prop) (s : State ι σ τ) : Prop :=
  K s.shared ∧ ∀ i, J i s.shared (s.locals i)

variable {P} {K : σ → Prop} {J : ι → σ → τ → Prop} {G : ι → σ → τ → α → Prop} {H : σ → β → Prop}

omit [DecidableEq ι] in
/-- The thread of a state satisfies its part. -/
theorem Holds.thread {s : State ι σ τ} (h : Holds K J s) (i : ι) : J i s.shared (s.locals i) := h.2 i

/-- One step keeps the invariant if it keeps the shared part and the part of the thread that makes it,
and does not interfere with the other threads. -/
theorem Holds.step
    (hact : ∀ i s l a s' l', K s → J i s l → G i s l a → P.act i s l a = some (s', l') →
      K s' ∧ J i s' l' ∧ ∀ j m, j ≠ i → J j s m → J j s' m)
    (henv : ∀ s e s', K s → H s e → P.env s e = some s' → K s' ∧ ∀ j m, J j s m → J j s' m)
    {s t : State ι σ τ} {a : Action ι α β} (h : Holds K J s) (hG : When G H s a)
    (hstep : P.step s a = some t) : Holds K J t := by
  obtain ⟨hK, hJ⟩ := h
  cases a with
  | act i a =>
    obtain ⟨⟨shared, l⟩, hr, rfl⟩ := Option.map_eq_some_iff.mp hstep
    obtain ⟨hK', hown, hothers⟩ := hact i _ _ a _ _ hK (hJ i) hG hr
    refine ⟨hK', fun j => ?_⟩
    dsimp only
    by_cases hij : j = i
    · subst hij
      rw [Function.update_self]
      exact hown
    · rw [Function.update_of_ne hij]
      exact hothers j _ hij (hJ j)
  | env e =>
    obtain ⟨shared, hr, rfl⟩ := Option.map_eq_some_iff.mp hstep
    obtain ⟨hK', hothers⟩ := henv _ e _ hK hG hr
    exact ⟨hK', fun j => hothers j _ (hJ j)⟩

/-- The invariant rule for the runs whose steps meet a condition. -/
theorem invariant (hstart : ∀ s, P.Start s → K s ∧ ∀ i, J i s (P.new i))
    (hact : ∀ i s l a s' l', K s → J i s l → G i s l a → P.act i s l a = some (s', l') →
      K s' ∧ J i s' l' ∧ ∀ j m, j ≠ i → J j s m → J j s' m)
    (henv : ∀ s e s', K s → H s e → P.env s e = some s' → K s' ∧ ∀ j m, J j s m → J j s' m)
    {s : State ι σ τ} (h : P.machine.ReachableWhere (When G H) s) : Holds K J s := by
  refine Machine.ReachableWhere.invariant (I := Holds K J) ?_ ?_ h
  · rintro s ⟨hs, hlocals⟩
    obtain ⟨hK, hJ⟩ := hstart s.shared hs
    refine ⟨hK, fun i => ?_⟩
    rw [hlocals]
    exact hJ i
  · intro s a t hs hG hstep
    exact hs.step hact henv hG hstep

/-- The invariant rule for all runs. -/
theorem reachable_invariant (hstart : ∀ s, P.Start s → K s ∧ ∀ i, J i s (P.new i))
    (hact : ∀ i s l a s' l', K s → J i s l → P.act i s l a = some (s', l') →
      K s' ∧ J i s' l' ∧ ∀ j m, j ≠ i → J j s m → J j s' m)
    (henv : ∀ s e s', K s → P.env s e = some s' → K s' ∧ ∀ j m, J j s m → J j s' m)
    {s : State ι σ τ} (h : P.machine.Reachable s) : Holds K J s := by
  refine invariant (G := fun _ _ _ _ => True) (H := fun _ _ => True) hstart
    (fun i s l a s' l' hK hJ _ hstep => hact i s l a s' l' hK hJ hstep)
    (fun s e s' hK _ hstep => henv s e s' hK hstep) ?_
  exact h.mono fun _ a _ => (by cases a <;> trivial)

/-! ## One thread at a time -/

variable (P) in
omit [DecidableEq ι] in
/-- The steps of one thread while the others and the environment make none. -/
def solo (i : ι) (s : σ) (l : τ) : List α → Option (σ × τ)
  | [] => some (s, l)
  | a :: as => (P.act i s l a).bind fun r => solo i r.1 r.2 as

omit [DecidableEq ι] in
theorem solo_cons {i : ι} {s s' : σ} {l l' : τ} {a : α} (h : P.act i s l a = some (s', l')) (as : List α) :
    P.solo i s l (a :: as) = P.solo i s' l' as := by
  rw [solo, h, Option.bind_some]

/-- The steps of one thread alone make a run, if they meet the condition in every state. -/
theorem reachable_solo {i : ι} {as : List α} (hG : ∀ a ∈ as, ∀ s l, G i s l a) {s : State ι σ τ} {s' : σ} {l' : τ}
    (h : P.machine.ReachableWhere (When G H) s) (hsolo : P.solo i s.shared (s.locals i) as = some (s', l')) :
    P.machine.ReachableWhere (When G H) ⟨s', Function.update s.locals i l'⟩ := by
  induction as generalizing s with
  | nil =>
    obtain ⟨rfl, rfl⟩ := Prod.ext_iff.mp (Option.some.inj hsolo)
    simpa using h
  | cons a as ih =>
    obtain ⟨⟨t, l⟩, hact, hrest⟩ := Option.bind_eq_some_iff.mp hsolo
    have hstep : P.machine.step s (.act i a) = some ⟨t, Function.update s.locals i l⟩ := by
      show (P.act i s.shared (s.locals i) a).map _ = _
      rw [hact]
      rfl
    have hnext : P.machine.ReachableWhere (When G H) ⟨t, Function.update s.locals i l⟩ :=
      h.step (l := .act i a) (hG a List.mem_cons_self _ _) hstep
    have hlast := ih (fun b hb => hG b (List.mem_cons_of_mem a hb)) hnext (by simpa using hrest)
    simpa using hlast

end Threads

end Rtvbp.Lib
