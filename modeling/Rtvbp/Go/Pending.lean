import Rtvbp.Lib.Machine
import Rtvbp.Pending.Contract

/-!
# Pending requests of the Go session

`Session.Request` of `sdk/go/session_request.go` for any number of concurrent calls, with the reader's
`completePending`, `requestStop`, and `beginShutdown` of `sdk/go/session.go`. A call is known by the id
that it generates; the ids are distinct, so the entry of the table for an id is kept with its call.
Every access to the closing flag, the table and the result channel is a step of its own.
-/

namespace Rtvbp.Go.Pending

open Rtvbp.Lib Rtvbp.Pending

/-- The program counter of a call of `Request`. -/
inductive Pc (ρ ε : Type) where
  | idle
  /-- `closing` was not set. -/
  | checked
  /-- The request is registered. -/
  | registered
  /-- `sendFrame` has found the session open and is in `control.Send`. -/
  | sending
  /-- Waiting for the result or the context. -/
  | waiting
  /-- `sendFrame` has failed; next is `cancelPending`. -/
  | sendFailed (error : ε)
  /-- The context is done; next is `cancelPending`. -/
  | contextDone (error : ε)
  /-- `cancelPending` has returned false; next is the result. -/
  | draining
  /-- `Request` has returned before it registered the request. -/
  | refused
  /-- `Request` has returned. -/
  | returned (completion : Completion ρ ε)

/-- A call, its entry in the table and its result channel. -/
structure Call (ρ ε : Type) where
  pc : Pc ρ ε
  /-- The request is in the table `pending`. -/
  pending : Bool
  /-- The buffered result. -/
  result : Option (Completion ρ ε)
  /-- The completions so far. -/
  completions : List (Completion ρ ε)

/-- A session with its calls. -/
structure State (ι ρ ε : Type) where
  closing : Bool
  /-- The transport is there, so that `control()` is not nil. -/
  connected : Bool
  /-- The supervisor is past the `closing.Store` of `beginShutdown`. -/
  shutdown : Bool
  /-- `failPending` has run. -/
  swept : Bool
  calls : ι → Call ρ ε

/-- The steps of a call. -/
inductive CallAction (ε : Type) where
  /-- The request is not valid. -/
  | reject
  /-- The first look at `closing`. -/
  | check
  /-- `registerPending`. -/
  | register
  /-- The look at `closing` in `sendFrame`, and the encoding, which may fail. -/
  | beginSend (encodeError : Option ε)
  /-- `control.Send` returns. -/
  | sendReturns (error : Option ε)
  /-- The result arrives. -/
  | receive
  /-- The context of the caller ends, or the request limit passes. -/
  | contextDone (error : ε)
  /-- `cancelPending`. -/
  | cancel
  /-- The result of a call whose request was completed before it could cancel it. -/
  | drain

/-- What can happen next. -/
inductive Action (ι ρ ε : Type) where
  | call (id : ι) (action : CallAction ε)
  /-- The reader resolves a response frame. -/
  | response (id : ι) (response : ρ)
  /-- The transport is created. -/
  | connect
  /-- `requestStop` sets `closing`. -/
  | requestStop
  /-- `beginShutdown` sets `closing`. -/
  | beginShutdown
  /-- `failPending` in `beginShutdown`. -/
  | failPending (cause : ε)

namespace Call

variable {ρ ε : Type} (c : Call ρ ε)

/-- A completion that takes the request out of the table and publishes its result: `completePending`,
and `failPending` for one request. -/
def complete (completion : Completion ρ ε) : Call ρ ε :=
  if c.pending then
    { c with pending := false, result := some completion, completions := c.completions ++ [completion] }
  else c

/-- `cancelPending`, and the return of `Request` or the wait for the result. -/
def cancelPending (completion : Completion ρ ε) : Call ρ ε :=
  if c.pending then
    { c with pending := false, completions := c.completions ++ [completion],
             pc := .returned completion }
  else { c with pc := .draining }

/-- One step of a call; `closedError` is `ErrSessionClosed`. -/
def step (closedError : ε) (closing connected : Bool) : CallAction ε → Option (Call ρ ε)
  | .reject => if c.pc matches .idle then some { c with pc := .refused } else none
  | .check =>
    if c.pc matches .idle then some { c with pc := if closing then .refused else .checked } else none
  | .register =>
    if c.pc matches .checked then some { c with pc := .registered, pending := true } else none
  | .beginSend encodeError =>
    if c.pc matches .registered then
      some
        { c with
          pc :=
            if closing || !connected then .sendFailed closedError
            else
              match encodeError with
              | some error => .sendFailed error
              | none => .sending }
    else none
  | .sendReturns error =>
    if c.pc matches .sending then
      some
        { c with
          pc :=
            match error with
            | some error => .sendFailed error
            | none => .waiting }
    else none
  | .receive =>
    match c.pc, c.result with
    | .waiting, some completion => some { c with pc := .returned completion, result := none }
    | _, _ => none
  | .contextDone error =>
    if c.pc matches .waiting then some { c with pc := .contextDone error } else none
  | .cancel =>
    match c.pc with
    | .sendFailed error => some (c.cancelPending (.sendError error))
    | .contextDone error => some (c.cancelPending (.cancelled error))
    | _ => none
  | .drain =>
    match c.pc, c.result with
    | .draining, some completion => some { c with pc := .returned completion, result := none }
    | _, _ => none

end Call

variable {ι ρ ε : Type} [DecidableEq ι] (closedError : ε)

/-- One call is replaced. -/
def State.setCall (s : State ι ρ ε) (id : ι) (c : Call ρ ε) : State ι ρ ε :=
  { s with calls := Function.update s.calls id c }

/-- One step of the session. -/
def step (s : State ι ρ ε) : Action ι ρ ε → Option (State ι ρ ε)
  | .call id action =>
    ((s.calls id).step closedError s.closing s.connected action).map (s.setCall id)
  | .response id response => some (s.setCall id ((s.calls id).complete (.response response)))
  | .connect => some { s with connected := true }
  | .requestStop => some { s with closing := true }
  | .beginShutdown => some { s with closing := true, shutdown := true }
  | .failPending cause =>
    if s.shutdown ∧ s.swept = false then
      some { s with swept := true, calls := fun id => (s.calls id).complete (.shutdown cause) }
    else none

/-- A call that has not been made. -/
def Call.new : Call ρ ε := { pc := .idle, pending := false, result := none, completions := [] }

/-- A session before its first call. -/
def initial : State ι ρ ε where
  closing := false
  connected := false
  shutdown := false
  swept := false
  calls := fun _ => .new

/-- The runs of the session. -/
def machine : Machine (State ι ρ ε) (Action ι ρ ε) where
  Start s := s = initial
  step := step closedError

/-- The call has registered its request. -/
def Pc.hasRegistered : Pc ρ ε → Bool
  | .idle | .checked | .refused => false
  | _ => true

/-- What the caller sees. -/
def Pc.outcome : Pc ρ ε → Outcome ρ ε
  | .refused => .refused
  | .returned completion => .completed completion
  | _ => .running

/-- A step that the goroutine of the call makes by itself. -/
def CallAction.own : CallAction ε → Prop
  | .beginSend _ | .cancel | .drain => True
  | _ => False

/-- The goroutine of the call completes the request by steps of its own. -/
def State.selfCompletes (s : State ι ρ ε) (id : ι) : Prop :=
  ∃ t, (machine closedError).Steps (fun _ a => ∃ action, a = .call id action ∧ action.own) s t ∧
    (t.calls id).completions ≠ []

/-- What can be observed of the session. -/
def State.view (s : State ι ρ ε) : View ι ρ ε where
  registered id := (s.calls id).pc.hasRegistered
  pending id := (s.calls id).pending
  completions id := (s.calls id).completions
  outcome id := (s.calls id).pc.outcome
  swept := s.swept
  selfCompletes id := s.selfCompletes closedError id

end Rtvbp.Go.Pending
