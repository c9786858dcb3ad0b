import Mathlib.Logic.Basic
import Mathlib.Data.List.Basic

/-!
# Handles that are acquired and released

The ledger of a component that acquires handles one after another (devices, timers, connections) and releases
them by their number: for each handle that was ever acquired, whether it is still live. A component that keeps
the number of one handle in a field leaks none as long as no other handle is live.
-/

namespace Rtvbp.Lib

/-- For each handle, in the order in which they were acquired, whether it is live. -/
abbrev Handles := List Bool

namespace Handles

variable {h : Handles} {current : Option Nat} {n : Nat}

/-- One more handle; its number is the length of the ledger before. -/
def acquire (h : Handles) : Handles := h ++ [true]

/-- Release a handle. -/
def release (h : Handles) (n : Nat) : Handles := h.set n false

/-- Release the handle of a field, if there is one. -/
def releaseCurrent (h : Handles) : Option Nat → Handles
  | some n => h.release n
  | none => h

/-- A handle is live. -/
def Live (h : Handles) (n : Nat) : Prop := h[n]? = some true

/-- No handle is live. -/
def AllReleased (h : Handles) : Prop := ∀ n, ¬ h.Live n

/-- No handle is live but the one of a field. -/
def Only (h : Handles) (current : Option Nat) : Prop := ∀ n, h.Live n → current = some n

/-- It can be tested that no handle is live. -/
instance (h : Handles) : Decidable h.AllReleased :=
  decidable_of_iff (true ∉ h) (by simp only [AllReleased, Live, List.mem_iff_getElem?, not_exists])

theorem allReleased_nil : AllReleased [] := fun n hn => by simp [Live] at hn

theorem AllReleased.only (hall : h.AllReleased) (current : Option Nat) : h.Only current :=
  fun n hn => absurd hn (hall n)

theorem Only.allReleased (honly : h.Only none) : h.AllReleased := by
  intro n hn
  exact absurd (honly n hn) (by simp)

theorem Live.lt_length (hlive : h.Live n) : n < h.length := (List.getElem?_eq_some_iff.mp hlive).1

theorem live_acquire : h.acquire.Live n ↔ h.Live n ∨ n = h.length := by
  unfold Live acquire
  rcases Nat.lt_trichotomy n h.length with hlt | rfl | hgt
  · rw [List.getElem?_append_left hlt]
    have hne : n ≠ h.length := by omega
    simp [hne]
  · simp
  · have hne : n ≠ h.length := by omega
    rw [List.getElem?_eq_none (by simp; omega), List.getElem?_eq_none (by omega)]
    simp [hne]

theorem live_release {m : Nat} : (h.release n).Live m ↔ h.Live m ∧ m ≠ n := by
  unfold Live release
  rw [List.getElem?_set]
  by_cases hmn : m = n
  · subst hmn
    by_cases hlt : m < h.length <;> simp [hlt]
  · rw [if_neg (Ne.symm hmn)]
    simp [hmn]

/-- The only live handle is the last one. -/
theorem AllReleased.acquire (hall : h.AllReleased) : h.acquire.Only (some h.length) := by
  intro n hn
  rcases live_acquire.1 hn with hlive | rfl
  · exact absurd hlive (hall n)
  · rfl

/-- A release makes no handle live. -/
theorem AllReleased.releaseCurrent (hall : h.AllReleased) : (h.releaseCurrent current).AllReleased := by
  cases current with
  | none => exact hall
  | some n => exact fun m hm => hall m (live_release.1 hm).1

/-- The handle of the field is the only one that has to be released. -/
theorem Only.releaseCurrent (honly : h.Only current) : (h.releaseCurrent current).AllReleased := by
  cases current with
  | none => exact honly.allReleased
  | some n =>
    intro m hm
    obtain ⟨hlive, hne⟩ := live_release.1 hm
    exact hne (Option.some.inj (honly m hlive)).symm

end Handles

end Rtvbp.Lib
