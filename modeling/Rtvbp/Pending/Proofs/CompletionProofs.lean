import Rtvbp.Go.Proofs.PendingProofs
import Rtvbp.TypeScript.Session.Proofs.PendingProofs

/-!
# Completion of pending requests

The sessions of the Go and the TypeScript SDK keep the contract of `Rtvbp.Pending` in every reachable
state.
-/

namespace Rtvbp.Pending

open Rtvbp.Lib

variable {ι ρ ε : Type} [DecidableEq ι]

/-- In every reachable state of the Go session and of the TypeScript session, every registered request
is pending or completed exactly once, callers get the completion of their own request, no request is left
after the shutdown without its call completing it, the table is empty when all calls have returned, and a
response frame completes at most the request that carries its id. -/
theorem requests_completed_once (closedError : ε) :
    (∀ s : Go.Pending.State ι ρ ε, (Go.Pending.machine closedError).Reachable s →
      (s.view closedError).Sound ∧
      ((∀ id, (s.view closedError).registered id → (s.view closedError).outcome id ≠ .running) →
        ∀ id, (s.view closedError).pending id = false) ∧
      ∀ id response t, Go.Pending.step closedError s (.response id response) = some t →
        View.RespondsTo (s.view closedError) (t.view closedError) id response) ∧
    (∀ s : TypeScript.Pending.State ι ρ ε, (TypeScript.Pending.machine closedError).Reachable s →
      (s.view closedError).Sound ∧
      ((∀ id, (s.view closedError).registered id → (s.view closedError).outcome id ≠ .running) →
        ∀ id, (s.view closedError).pending id = false) ∧
      ∀ id response t, TypeScript.Pending.step closedError s (.response id response) = some t →
        View.RespondsTo (s.view closedError) (t.view closedError) id response) := by
  constructor
  · intro s hs
    have hsound : (s.view closedError).Sound := (Go.Pending.Inv.of_reachable hs).sound
    exact ⟨hsound, hsound.pending_eq_false, fun _ _ _ => Go.Pending.respondsTo⟩
  · intro s hs
    have hsound : (s.view closedError).Sound := (TypeScript.Pending.Inv.of_reachable hs).sound
    exact ⟨hsound, hsound.pending_eq_false, fun _ _ _ => TypeScript.Pending.respondsTo⟩

/-- A call that registers its request after the shutdown has failed the pending ones. -/
def Go.lateRun : List (Rtvbp.Go.Pending.Action Nat String String) :=
  [.connect, .call 0 .check, .call 1 .check, .call 1 .register, .call 1 (.beginSend none),
    .call 1 (.sendReturns none), .beginShutdown, .failPending "closed", .call 0 .register]

/-- Both kinds of session keep the contract in this run, and in a run of the TypeScript session with a
response that arrives twice. -/
theorem requests_completed_once_late :
    (∃ s, (Rtvbp.Go.Pending.machine "closed").exec Rtvbp.Go.Pending.initial Go.lateRun = some s ∧
      (s.view "closed").Sound ∧ (s.view "closed").pending 0 = true) ∧
    ∃ s, (Rtvbp.TypeScript.Pending.machine "closed").exec
        (Rtvbp.TypeScript.Pending.initial : Rtvbp.TypeScript.Pending.State Nat String String)
        [.run, .call 0 none, .response 0 "a", .response 0 "b"] = some s ∧
      (s.view "closed").Sound ∧ (s.view "closed").completions 0 = [.response "a"] :=
  ⟨⟨_, rfl, ((requests_completed_once "closed").1 _
      (@Machine.Reachable.of_exec _ _ (Rtvbp.Go.Pending.machine "closed") _ _ Go.lateRun rfl rfl)).1,
      rfl⟩,
    ⟨_, rfl, ((requests_completed_once "closed").2 _
      (@Machine.Reachable.of_exec _ _ (Rtvbp.TypeScript.Pending.machine "closed") _ _
        [.run, .call 0 none, .response 0 "a", .response 0 "b"] rfl rfl)).1, rfl⟩⟩

end Rtvbp.Pending
