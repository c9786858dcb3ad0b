import Mathlib.Tactic

/-!
# Stop requests

The fields of `Session` (`sdk/typescript/src/session.ts`) that a stop request touches, and
`requestStop`. The abort signal and the promise `#stoppedPromise` settle together, so `aborted` stands
for both.
-/

namespace Rtvbp.TypeScript

/-- `SessionState`. -/
inductive SessionState where
  | inactive
  | connecting
  | active
  | closing
  | closed
  | failed
  deriving DecidableEq

/-- The lifecycle fields of a session; `ε` are the thrown values. -/
structure Lifecycle (ε : Type) where
  state : SessionState
  aborted : Bool
  stopCause : Option ε
  stopFailed : Bool

namespace Lifecycle

variable {ε : Type}

/-- The fields of a new session. -/
def new : Lifecycle ε where
  state := .inactive
  aborted := false
  stopCause := none
  stopFailed := false

/-- `requestStop`. -/
def requestStop (life : Lifecycle ε) (cause : Option ε) (failed : Bool) : Lifecycle ε :=
  if life.aborted then
    if failed then { life with stopCause := life.stopCause.or cause, stopFailed := true } else life
  else
    { state := if life.state = .inactive then .inactive else .closing
      aborted := true
      stopCause := cause
      stopFailed := failed }

/-- What the teardown does with the failure of one of its steps. -/
def recordFailure (life : Lifecycle ε) : Option ε → Lifecycle ε
  | none => life
  | some error => { life with stopCause := life.stopCause.or (some error), stopFailed := true }

/-- The end of `#supervise`. -/
def finish (life : Lifecycle ε) : Lifecycle ε :=
  { life with state := if life.stopFailed then .failed else .closed }

variable {life : Lifecycle ε} {cause : Option ε} {failed : Bool}

@[simp] theorem requestStop_aborted : (life.requestStop cause failed).aborted = true := by
  unfold requestStop
  split_ifs with h <;> simp [h]

/-- Later stop requests do not change the state. -/
theorem requestStop_state_of_aborted (h : life.aborted = true) :
    (life.requestStop cause failed).state = life.state := by
  unfold requestStop
  split_ifs <;> rfl

/-- The first stop request turns every state but `inactive` into `closing`. -/
theorem requestStop_state (h : life.aborted = false) (hs : life.state ≠ .inactive) :
    (life.requestStop cause failed).state = .closing := by
  simp [requestStop, h, hs]

/-- A failure is never forgotten. -/
theorem requestStop_stopFailed (h : life.aborted = true) :
    (life.requestStop cause failed).stopFailed = (life.stopFailed || failed) := by
  cases failed <;> simp [requestStop, h]

theorem requestStop_stopFailed_first (h : life.aborted = false) :
    (life.requestStop cause failed).stopFailed = failed := by
  simp [requestStop, h]

@[simp] theorem recordFailure_aborted (error : Option ε) :
    (life.recordFailure error).aborted = life.aborted := by
  cases error <;> rfl

@[simp] theorem recordFailure_state (error : Option ε) :
    (life.recordFailure error).state = life.state := by
  cases error <;> rfl

@[simp] theorem recordFailure_stopFailed (error : Option ε) :
    (life.recordFailure error).stopFailed = (life.stopFailed || error.isSome) := by
  cases error <;> simp [recordFailure]

/-! ## The stop flags -/

variable {l l' : Lifecycle ε} {p : Prop}

/-- The stop flags only grow, and the first stop is a failure unless `p` holds. -/
def Advances (l l' : Lifecycle ε) (p : Prop) : Prop :=
  (l'.aborted = l.aborted ∧ (l.stopFailed = true → l'.stopFailed = true)) ∨
  (l.aborted = false ∧ l'.aborted = true ∧ (l'.stopFailed = true ∨ p))

theorem Advances.of_eq (haborted : l'.aborted = l.aborted) (hfailed : l'.stopFailed = l.stopFailed) :
    Advances l l' p :=
  .inl ⟨haborted, fun h => hfailed.trans h⟩

theorem Advances.mono {q : Prop} (h : Advances l l' p) (hpq : p → q) : Advances l l' q :=
  h.imp_right fun ⟨h1, h2, h3⟩ => ⟨h1, h2, h3.imp_right hpq⟩

theorem advances_requestStop (l : Lifecycle ε) (cause : Option ε) (failed : Bool) :
    Advances l (l.requestStop cause failed) (failed = false) := by
  cases ha : l.aborted with
  | true =>
    refine .inl ⟨by simp [ha], fun hf => ?_⟩
    rw [requestStop_stopFailed ha, hf]
    rfl
  | false =>
    refine .inr ⟨ha, requestStop_aborted, ?_⟩
    rw [requestStop_stopFailed_first ha]
    cases failed <;> simp

theorem advances_recordFailure (l : Lifecycle ε) (error : Option ε) :
    Advances l (l.recordFailure error) p :=
  .inl ⟨recordFailure_aborted error, fun hf => by simp [hf]⟩

end Lifecycle

end Rtvbp.TypeScript
