import Mathlib.Tactic

/-!
# Pending requests

What a table of pending requests is for, independent of an SDK: every registered request is completed
exactly once, by its response, by its own timeout or cancellation, by a failure to send it or by the
shutdown of the session, and its caller gets that completion.
-/

namespace Rtvbp.Pending

/-- How a request is completed. -/
inductive Completion (ρ ε : Type) where
  | response (response : ρ)
  | cancelled (error : ε)
  | sendError (error : ε)
  | shutdown (error : ε)
  deriving DecidableEq

/-- A call of `Request` as its caller sees it. -/
inductive Outcome (ρ ε : Type) where
  /-- The call has not returned. -/
  | running
  /-- The call was refused before it registered a request. -/
  | refused
  /-- The call has returned the completion of its request. -/
  | completed (completion : Completion ρ ε)

/-- What can be observed of the calls of a session; `ι` are the request ids. -/
structure View (ι ρ ε : Type) where
  /-- The call has registered its request. -/
  registered : ι → Prop
  /-- The request is in the table of pending requests. -/
  pending : ι → Bool
  /-- The completions of the request. -/
  completions : ι → List (Completion ρ ε)
  outcome : ι → Outcome ρ ε
  /-- The shutdown has failed the pending requests. -/
  swept : Prop
  /-- The call completes its request itself, whatever the peer, the caller and the clock do. -/
  selfCompletes : ι → Prop

namespace View

variable {ι ρ ε : Type} (v : View ι ρ ε)

/-- The contract of the pending requests. -/
structure Sound : Prop where
  unregistered : ∀ id, ¬ v.registered id → v.pending id = false ∧ v.completions id = []
  pending : ∀ id, v.pending id = true → v.completions id = []
  exactly_once : ∀ id, v.registered id → v.pending id = false → ∃ c, v.completions id = [c]
  refused : ∀ id, v.outcome id = .refused → ¬ v.registered id
  delivered : ∀ id c, v.outcome id = .completed c →
    v.registered id ∧ v.pending id = false ∧ v.completions id = [c]
  not_left : v.swept → ∀ id, v.pending id = true → v.selfCompletes id

/-- A response frame completes the request with its id if it is pending, and nothing else. -/
def RespondsTo (before after : View ι ρ ε) (id : ι) (response : ρ) : Prop :=
  (∀ other, other ≠ id → after.pending other = before.pending other ∧
    after.completions other = before.completions other) ∧
  (if before.pending id then
    after.pending id = false ∧ after.completions id = before.completions id ++ [.response response]
  else
    after.pending id = false ∧ after.completions id = before.completions id)

variable {v}

/-- The table is empty once every call has returned. -/
theorem Sound.pending_eq_false (h : v.Sound)
    (hreturned : ∀ id, v.registered id → v.outcome id ≠ .running) (id : ι) :
    v.pending id = false := by
  by_cases hr : v.registered id
  · cases ho : v.outcome id with
    | running => exact absurd ho (hreturned id hr)
    | refused => exact absurd hr (h.refused id ho)
    | completed c => exact (h.delivered id c ho).2.1
  · exact (h.unregistered id hr).1

end View

end Rtvbp.Pending
