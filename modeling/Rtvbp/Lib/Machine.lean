import Mathlib.Logic.Relation
import Mathlib.Data.Option.Basic

/-!
# Labelled machines and their runs

A machine has a set of start states and a partial step function: `step s l` is the state after the
action `l`, or `none` when `l` is not enabled in `s`. All nondeterminism (scheduling, the peer, the
environment) is in the choice of the next label, so that a schedule is a list of labels and can be
evaluated.

Runs are taken relative to a condition `G` on the state before a step and the label of the step:
`Steps G` are the runs all of whose steps meet `G`, and `ReachableWhere G` the states they reach from
a start state. Plain reachability is the case where `G` is always true.
-/

namespace Rtvbp.Lib

/-- A machine with states `σ` and actions `α`. -/
structure Machine (σ α : Type*) where
  /-- The start states. -/
  Start : σ → Prop
  /-- The successor of a state under an action, if the action is enabled. -/
  step : σ → α → Option σ

namespace Machine

variable {σ α : Type*} (M : Machine σ α)

/-- An action is enabled. -/
def Enabled (s : σ) (l : α) : Prop := (M.step s l).isSome

/-- Execute a schedule. -/
def exec (s : σ) : List α → Option σ
  | [] => some s
  | l :: ls => (M.step s l).bind fun t => exec t ls

@[simp] theorem exec_nil (s : σ) : M.exec s [] = some s := rfl

@[simp] theorem exec_cons (s : σ) (l : α) (ls : List α) :
    M.exec s (l :: ls) = (M.step s l).bind fun t => M.exec t ls := rfl

theorem exec_append (s : σ) (ls ls' : List α) :
    M.exec s (ls ++ ls') = (M.exec s ls).bind fun t => M.exec t ls' := by
  induction ls generalizing s with
  | nil => rfl
  | cons l ls ih =>
    rw [List.cons_append, exec_cons, exec_cons, Option.bind_assoc]
    exact Option.bind_congr fun t _ => ih t

/-- Every step of a schedule meets the condition `G`. -/
def Along (G : σ → α → Prop) (s : σ) : List α → Prop
  | [] => True
  | l :: ls => G s l ∧ ∀ t, M.step s l = some t → Along G t ls

/-- A condition that can be tested on a step can be tested along a schedule. -/
instance decidableAlong (G : σ → α → Prop) [∀ s l, Decidable (G s l)] :
    ∀ (s : σ) (ls : List α), Decidable (M.Along G s ls)
  | _, [] => inferInstanceAs (Decidable True)
  | s, l :: ls =>
    match h : M.step s l with
    | none => decidable_of_iff (G s l) (by simp [Along, h])
    | some t =>
      have : Decidable (M.Along G t ls) := decidableAlong G t ls
      decidable_of_iff (G s l ∧ M.Along G t ls) (by simp [Along, h])

/-- Every state of a schedule, the first and the last one included, satisfies `P`. -/
def Throughout (P : σ → Prop) (s : σ) : List α → Prop
  | [] => P s
  | l :: ls => P s ∧ ∀ t, M.step s l = some t → Throughout P t ls

/-- Some step of a schedule meets the condition `G`. -/
def Occurs (G : σ → α → Prop) (s : σ) : List α → Prop
  | [] => False
  | l :: ls => G s l ∨ ∃ t, M.step s l = some t ∧ Occurs G t ls

/-- One step that meets the condition `G`. -/
def StepWhere (G : σ → α → Prop) (s t : σ) : Prop := ∃ l, G s l ∧ M.step s l = some t

/-- Finitely many steps that all meet the condition `G`. -/
def Steps (G : σ → α → Prop) : σ → σ → Prop := Relation.ReflTransGen (M.StepWhere G)

/-- The states reached by the runs all of whose steps meet `G`. -/
def ReachableWhere (G : σ → α → Prop) (s : σ) : Prop := ∃ s₀, M.Start s₀ ∧ M.Steps G s₀ s

/-- The states reached by any run. -/
def Reachable (s : σ) : Prop := M.ReachableWhere (fun _ _ => True) s

variable {M}

theorem ReachableWhere.start {G : σ → α → Prop} {s : σ} (h : M.Start s) : M.ReachableWhere G s :=
  ⟨s, h, .refl⟩

theorem ReachableWhere.step {G : σ → α → Prop} {s t : σ} {l : α} (h : M.ReachableWhere G s)
    (hG : G s l) (hl : M.step s l = some t) : M.ReachableWhere G t := by
  obtain ⟨s₀, h₀, hs⟩ := h
  exact ⟨s₀, h₀, hs.tail ⟨l, hG, hl⟩⟩

/-- A property preserved by the steps meeting `G` is carried along a run of such steps. -/
theorem Steps.invariant {G : σ → α → Prop} {I : σ → Prop}
    (hstep : ∀ s l t, I s → G s l → M.step s l = some t → I t) {s t : σ} (hs : I s)
    (h : M.Steps G s t) : I t := by
  induction h with
  | refl => exact hs
  | tail _ hst ih =>
    obtain ⟨l, hG, hl⟩ := hst
    exact hstep _ l _ ih hG hl

/-- The invariant rule: a property of the start states that every step meeting `G` preserves holds
in every state reached by such steps. -/
theorem ReachableWhere.invariant {G : σ → α → Prop} {I : σ → Prop} (h₀ : ∀ s, M.Start s → I s)
    (hstep : ∀ s l t, I s → G s l → M.step s l = some t → I t) {s : σ}
    (h : M.ReachableWhere G s) : I s := by
  obtain ⟨s₀, hs₀, hs⟩ := h
  exact hs.invariant hstep (h₀ s₀ hs₀)

/-- The invariant rule for all runs. -/
theorem Reachable.invariant {I : σ → Prop} (h₀ : ∀ s, M.Start s → I s)
    (hstep : ∀ s l t, I s → M.step s l = some t → I t) {s : σ} (h : M.Reachable s) : I s :=
  ReachableWhere.invariant h₀ (fun s l t hI _ hl => hstep s l t hI hl) h

/-- A property preserved by the steps meeting `G` is carried along a schedule of such steps. -/
theorem Along.invariant {G : σ → α → Prop} {I : σ → Prop}
    (hstep : ∀ s l t, I s → G s l → M.step s l = some t → I t) {s t : σ} {ls : List α} (hs : I s)
    (halong : M.Along G s ls) (hexec : M.exec s ls = some t) : I t := by
  induction ls generalizing s with
  | nil =>
    obtain rfl : s = t := by simpa using hexec
    exact hs
  | cons l ls ih =>
    obtain ⟨u, hu, hut⟩ := Option.bind_eq_some_iff.mp hexec
    exact ih (hstep s l u hs halong.1 hu) (halong.2 u hu) hut

/-- Two conditions that agree on the actions of a schedule. -/
theorem along_congr {G H : σ → α → Prop} {ls : List α} (h : ∀ l ∈ ls, ∀ s, G s l ↔ H s l) {s : σ} :
    M.Along G s ls ↔ M.Along H s ls := by
  induction ls generalizing s with
  | nil => exact Iff.rfl
  | cons l ls ih =>
    refine and_congr (h l List.mem_cons_self s) (forall₂_congr fun t _ => ?_)
    exact ih fun l' hl' => h l' (List.mem_cons_of_mem l hl')

/-- Two conditions that agree in the states that satisfy an invariant. -/
theorem along_iff {G H : σ → α → Prop} {I : σ → Prop} (hstep : ∀ s l t, I s → M.step s l = some t → I t)
    (h : ∀ s l, I s → (G s l ↔ H s l)) {s : σ} {ls : List α} (hs : I s) : M.Along G s ls ↔ M.Along H s ls := by
  induction ls generalizing s with
  | nil => exact Iff.rfl
  | cons l ls ih =>
    refine and_congr (h s l hs) (forall₂_congr fun t ht => ?_)
    exact ih (hstep s l t hs ht)

/-- An exact condition on the steps for a property of the states: if the steps meeting `G` preserve an
invariant that gives `P`, and a step that does not meet `G` breaks `P` at once, then `P` holds throughout
a schedule exactly if every step of it meets `G`. -/
theorem throughout_iff_along {G : σ → α → Prop} {I P : σ → Prop} (hP : ∀ s, I s → P s)
    (hstep : ∀ s l t, I s → G s l → M.step s l = some t → I t)
    (hbreak : ∀ s l t, I s → ¬ G s l → M.step s l = some t → ¬ P t) {s t : σ} {ls : List α}
    (hs : I s) (hexec : M.exec s ls = some t) : M.Throughout P s ls ↔ M.Along G s ls := by
  induction ls generalizing s with
  | nil => exact ⟨fun _ => trivial, fun _ => hP s hs⟩
  | cons l ls ih =>
    obtain ⟨u, hu, hut⟩ := Option.bind_eq_some_iff.mp hexec
    have hsucc : ∀ v, M.step s l = some v → v = u := fun v hv => Option.some.inj (hv.symm.trans hu)
    simp only [Throughout, Along]
    constructor
    · rintro ⟨-, hall⟩
      have hG : G s l := by
        by_contra hG
        have hPu : P u := by
          have hthrough := hall u hu
          cases ls with
          | nil => exact hthrough
          | cons l' ls' => exact hthrough.1
        exact hbreak s l u hs hG hu hPu
      refine ⟨hG, fun v hv => ?_⟩
      obtain rfl := hsucc v hv
      exact (ih (hstep s l v hs hG hu) hut).mp (hall v hu)
    · rintro ⟨hG, hall⟩
      refine ⟨hP s hs, fun v hv => ?_⟩
      obtain rfl := hsucc v hv
      exact (ih (hstep s l v hs hG hu) hut).mpr (hall v hu)

/-- A property that exactly the steps meeting `G` bring about, and that no step takes away, holds at the
end of a schedule exactly if it held at the beginning or some step of the schedule meets `G`. -/
theorem iff_or_occurs {G : σ → α → Prop} {I P : σ → Prop}
    (hstep : ∀ s l t, I s → M.step s l = some t → I t ∧ (P t ↔ P s ∨ G s l)) {s t : σ} {ls : List α}
    (hs : I s) (hexec : M.exec s ls = some t) : P t ↔ P s ∨ M.Occurs G s ls := by
  induction ls generalizing s with
  | nil =>
    obtain rfl : s = t := by simpa using hexec
    simp [Occurs]
  | cons l ls ih =>
    obtain ⟨u, hu, hut⟩ := Option.bind_eq_some_iff.mp hexec
    obtain ⟨hIu, hPu⟩ := hstep s l u hs hu
    rw [ih hIu hut, hPu, or_assoc]
    simp [Occurs, hu]

/-- The rule for histories: a relation between the actions so far and the state, which holds at the start
and which every step keeps, holds at the end of a schedule. -/
theorem exec_history {P : List α → σ → Prop} {s₀ : σ} (h₀ : P [] s₀)
    (hstep : ∀ ls s l t, P ls s → M.step s l = some t → P (ls ++ [l]) t) {ls : List α} {t : σ}
    (h : M.exec s₀ ls = some t) : P ls t := by
  have hfrom : ∀ (ls done : List α) (s : σ), P done s → M.exec s ls = some t → P (done ++ ls) t := by
    intro ls
    induction ls with
    | nil =>
      intro done s hs hexec
      obtain rfl : s = t := by simpa using hexec
      rwa [List.append_nil]
    | cons l ls ih =>
      intro done s hs hexec
      obtain ⟨u, hu, hut⟩ := Option.bind_eq_some_iff.mp hexec
      have hnext := ih (done ++ [l]) u (hstep done s l u hs hu) hut
      rwa [List.append_assoc] at hnext
  exact hfrom ls [] s₀ h₀ h

/-- Runs under a stronger condition are runs under a weaker one. -/
theorem ReachableWhere.mono {G H : σ → α → Prop} (hGH : ∀ s l, G s l → H s l) {s : σ}
    (h : M.ReachableWhere G s) : M.ReachableWhere H s := by
  obtain ⟨s₀, h₀, hs⟩ := h
  refine ⟨s₀, h₀, Relation.ReflTransGen.mono ?_ _ _ hs⟩
  rintro s t ⟨l, hG, hl⟩
  exact ⟨l, hGH s l hG, hl⟩

/-- A schedule that executes is a run. -/
theorem Steps.of_exec {s t : σ} {ls : List α} (h : M.exec s ls = some t) :
    M.Steps (fun _ _ => True) s t := by
  induction ls generalizing s with
  | nil =>
    obtain rfl : s = t := by simpa using h
    exact .refl
  | cons l ls ih =>
    obtain ⟨u, hu, hut⟩ := Option.bind_eq_some_iff.mp h
    exact .head ⟨l, trivial, hu⟩ (ih hut)

/-- A schedule all of whose steps meet a condition leads to a state reached under it. -/
theorem ReachableWhere.of_exec {G : σ → α → Prop} {s t : σ} {ls : List α} (h₀ : M.Start s)
    (halong : M.Along G s ls) (hexec : M.exec s ls = some t) : M.ReachableWhere G t := by
  have hstart : M.ReachableWhere G s := .start h₀
  exact halong.invariant (fun _ _ _ hs hG hl => hs.step hG hl) hstart hexec

/-- The state a schedule leads to from a start state is reachable. -/
theorem Reachable.of_exec {s t : σ} {ls : List α} (h₀ : M.Start s) (h : M.exec s ls = some t) :
    M.Reachable t :=
  ⟨s, h₀, Steps.of_exec h⟩

end Machine

end Rtvbp.Lib
