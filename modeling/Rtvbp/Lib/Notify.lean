import Mathlib.Data.List.Basic
import Mathlib.Data.List.Nodup
import Mathlib.Logic.Function.Basic

/-!
# Notifications

A source of wakeups for tasks that wait: a notification of one wakes the task that has waited longest, or leaves a permit
for the next one if none waits; a notification of all wakes those that wait, and those that have announced that they
will. A task announces itself by the number of notifications of all so far.
-/

namespace Rtvbp.Lib

/-- The state of a source for the tasks `ι`. A permit is left only when no task waits. -/
structure Notify (ι : Type*) where
  permit : Bool
  /-- How often all were notified. -/
  generation : Nat
  waiters : List ι
  nodup : waiters.Nodup
  permit_idle : permit = true → waiters = []

namespace Notify

variable {ι : Type*}

def new : Notify ι := ⟨false, 0, [], List.nodup_nil, fun _ => rfl⟩

/-- The permit is taken, if there is one. -/
def takePermit (n : Notify ι) : Option (Notify ι) :=
  if n.permit then some { n with permit := false, permit_idle := by simp } else none

/-- A task starts to wait. -/
def register [DecidableEq ι] (n : Notify ι) (i : ι) : Option (Notify ι) :=
  if h : i ∈ n.waiters ∨ n.permit = true then none
  else
    some { n with
      waiters := n.waiters ++ [i]
      nodup := by
        rw [not_or] at h
        refine List.nodup_append.mpr ⟨n.nodup, List.nodup_singleton i, ?_⟩
        rintro a ha b hb rfl
        exact h.1 (List.mem_singleton.mp hb ▸ ha)
      permit_idle := fun hp => absurd (.inr hp) h }

/-- A task stops to wait. -/
def forget [DecidableEq ι] (n : Notify ι) (i : ι) : Notify ι :=
  { n with
    waiters := n.waiters.erase i
    nodup := n.nodup.erase i
    permit_idle := fun hp => by rw [n.permit_idle hp]; rfl }

/-- The task that has waited longest is woken, or a permit is left. -/
def notifyOne (n : Notify ι) : Option ι × Notify ι :=
  match h : n.waiters with
  | [] => (none, { n with permit := true, permit_idle := fun _ => h })
  | i :: rest =>
    (some i, { n with
      waiters := rest
      nodup := (List.nodup_cons.mp (h ▸ n.nodup)).2
      permit_idle := fun hp => by simp [n.permit_idle hp] at h })

/-- All tasks are woken. -/
def notifyWaiters (n : Notify ι) : Notify ι :=
  { n with generation := n.generation + 1, waiters := [], nodup := List.nodup_nil, permit_idle := fun _ => rfl }

variable {n m : Notify ι} {i j : ι}

theorem takePermit_eq_some (h : n.takePermit = some m) :
    n.permit = true ∧ m.permit = false ∧ m.waiters = [] ∧ m.generation = n.generation := by
  unfold takePermit at h
  split_ifs at h with hp
  cases h
  exact ⟨hp, rfl, n.permit_idle hp, rfl⟩

theorem register_eq_some [DecidableEq ι] (h : n.register i = some m) :
    n.permit = false ∧ m.permit = false ∧ m.waiters = n.waiters ++ [i] ∧ m.generation = n.generation := by
  unfold register at h
  split_ifs at h with hi
  cases h
  have hp : n.permit = false := by simpa using (not_or.mp hi).2
  exact ⟨hp, hp, rfl, rfl⟩

@[simp] theorem permit_forget [DecidableEq ι] : (n.forget i).permit = n.permit := rfl

@[simp] theorem generation_forget [DecidableEq ι] : (n.forget i).generation = n.generation := rfl

theorem mem_forget [DecidableEq ι] : j ∈ (n.forget i).waiters ↔ j ≠ i ∧ j ∈ n.waiters := n.nodup.mem_erase_iff

@[simp] theorem waiters_notifyWaiters : n.notifyWaiters.waiters = [] := rfl

@[simp] theorem generation_notifyWaiters : n.notifyWaiters.generation = n.generation + 1 := rfl

@[simp] theorem permit_notifyWaiters : n.notifyWaiters.permit = n.permit := rfl

@[simp] theorem generation_notifyOne : n.notifyOne.2.generation = n.generation := by
  unfold notifyOne
  split <;> rfl

/-- A notification of one wakes a task that waits, or leaves the permit. -/
theorem notifyOne_cases :
    (n.waiters = [] ∧ n.notifyOne.1 = none ∧ n.notifyOne.2.permit = true ∧ n.notifyOne.2.waiters = []) ∨
      ∃ i rest, n.waiters = i :: rest ∧ n.notifyOne.1 = some i ∧ n.notifyOne.2.waiters = rest ∧ i ∉ rest ∧
        n.notifyOne.2.permit = n.permit := by
  unfold notifyOne
  split
  · next h => exact .inl ⟨h, rfl, rfl, h⟩
  · next i rest h => exact .inr ⟨i, rest, h, rfl, rfl, (List.nodup_cons.mp (h ▸ n.nodup)).1, rfl⟩

end Notify

end Rtvbp.Lib
