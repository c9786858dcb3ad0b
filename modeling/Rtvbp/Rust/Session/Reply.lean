import Rtvbp.Rust.Error
import Rtvbp.Lib.Threads

/-!
# The reply to an inbound request

One call of `handle_request` of `sdk/rust/src/session/mod.rs` with its `ReplyState`. The handler, the tasks
it spawns and whoever holds the deferred response may call `respond`, `respond_error`,
`respond_then_close` and `defer_response` at any time and any number of times, also after `handle_request`
has returned; every such call is a thread. The thread `none` is the call of `respond_internal` that
`handle_request` makes itself. Every access to the reply status and the flags of the session is a step of
its own, and a call that waits can be dropped.
-/

namespace Rtvbp.Rust.Reply

open Rtvbp.Lib Rtvbp.Envelope.Rust
open Rtvbp.Envelope (WireError)

/-- The arguments of `respond_internal`. -/
structure Response where
  payload : Option Value
  error : Option WireError
  closeAfter : Bool

/-- The frame of `send_response`. -/
def Response.frame (requestId : String) (response : Response) : ControlFrame :=
  .response requestId response.payload response.error

/-- The status of a `ReplyState`. -/
inductive Status where
  | unclaimed
  | deferred
  | sent
  deriving DecidableEq

/-- What the handler returns: the reply of a registered handler, an error of any middleware, handler or
hook, or the unit of the hook for unknown requests. -/
inductive Outcome where
  | reply (payload : Value) (terminal : Bool)
  | error (error : Error)
  | done

/-- How `handle_request` answers by itself: with the reply of the handler, or in
`respond_handler_error`. -/
inductive Answer where
  | reply (payload : Value) (terminal : Bool)
  | error (wire : WireError)

/-- The arguments of its call of `respond_internal`. -/
def Answer.response : Answer → Response
  | .reply payload terminal => { payload := some payload, error := none, closeAfter := terminal }
  | .error wire => { payload := none, error := some wire, closeAfter := false }

/-- Whether it requests a failure when its call returns this error. -/
def Answer.reports : Answer → Error → Bool
  | .reply _ _, _ => true
  | .error _, err => !err.isSessionClosed

/-- The error for a hook that neither answers nor defers. -/
def errUnanswered : Error := .requestFailed "request handler returned without responding or deferring"

/-- How far `handle_request` has come. -/
inductive Phase where
  /-- In the middleware, the handler or the hook. -/
  | handling
  /-- Before the look at the status that follows on a reply, an error and a unit. -/
  | replied (payload : Value) (terminal : Bool)
  | failed (error : Error)
  | finished
  /-- It calls `respond_internal`, and returns with it. -/
  | answering (answer : Answer)
  /-- It has returned without an answer of its own. -/
  | returned

/-- What the calls and `handle_request` share. -/
structure Shared (ι : Type) where
  status : Status
  closing : Bool
  /-- `stop.requested`. -/
  stop : Bool
  phase : Phase
  /-- The frames handed to `ControlChannel::send`. -/
  handed : List ControlFrame
  /-- History: the call that claimed the reply. -/
  owner : Option ι

/-- A call of `respond_internal`. -/
inductive Call where
  | idle
  /-- In the loop, before the load of the status. -/
  | looking (response : Response)
  /-- In the loop, before `compare_exchange`. -/
  | loaded (response : Response) (status : Status)
  /-- In `send_frame`, before its look at `closing`. -/
  | claimed (response : Response)
  /-- In `send_frame`, before `encode` and `send`. -/
  | encoding (response : Response)
  /-- Waits for `send`. -/
  | sending (closeAfter : Bool)
  /-- Waits for the grace before `request_close`. -/
  | sleeping
  /-- The call of `handle_request`, before `request_failure`. -/
  | failing (error : Error)
  | returned (error : Option Error)
  | dropped

/-- The steps of a call. -/
inductive CallAction where
  /-- `respond`, `respond_error` or `respond_then_close` is called. -/
  | respond (response : Response)
  /-- The same, when the session is gone. -/
  | detached
  /-- `handle_request` calls `respond_internal`. -/
  | answer
  /-- The two steps of the loop, and the look at `closing`. -/
  | load
  | compareExchange
  | look
  /-- `encode`, and the frame is handed to `send`, which returns later. -/
  | send
  | sendReturns (error : Option Error)
  /-- The grace is over. -/
  | wake
  | requestFailure
  /-- The future of the call is dropped. -/
  | drop

/-- The steps of everybody else. -/
inductive EnvAction where
  | handlerReturns (outcome : Outcome)
  /-- `handle_request` looks at the status. -/
  | test
  /-- `defer_response` is called. -/
  | deferResponse
  /-- `request_close` or `request_failure` is called. -/
  | requestStop
  /-- The shutdown sets `closing`. -/
  | beginShutdown

variable {ι : Type}

/-- The call is the one of `handle_request`, and it requests a failure for this error. -/
def reported (i : Option ι) (phase : Phase) (error : Error) : Bool :=
  match i, phase with
  | none, .answering answer => answer.reports error
  | _, _ => false

/-- Where a call goes with an error. -/
def Call.error (i : Option ι) (phase : Phase) (error : Error) : Call :=
  if reported i phase error then .failing error else .returned (some error)

/-- One step of a call; `encode` is `Envelope::encode`. -/
def act {β : Type} (encode : ControlFrame → Except Error β) (requestId : String) (i : Option ι)
    (s : Shared (Option ι)) (c : Call) : CallAction → Option (Shared (Option ι) × Call)
  | .respond response =>
    match i, c with
    | some _, .idle => some (s, .looking response)
    | _, _ => none
  | .detached =>
    match i, c with
    | some _, .idle => some (s, .returned (some .sessionClosed))
    | _, _ => none
  | .answer =>
    match i, c, s.phase with
    | none, .idle, .answering answer => some (s, .looking answer.response)
    | _, _, _ => none
  | .load =>
    match c with
    | .looking response =>
      some (s, if s.status = .sent then .error i s.phase .responseAlreadySent
        else .loaded response s.status)
    | _ => none
  | .compareExchange =>
    match c with
    | .loaded response status =>
      if s.status = status then
        some ({ s with status := .sent, owner := some i }, .claimed response)
      else some (s, .looking response)
    | _ => none
  | .look =>
    match c with
    | .claimed response =>
      some (s, if s.closing then .error i s.phase .sessionClosed else .encoding response)
    | _ => none
  | .send =>
    match c with
    | .encoding response =>
      match encode (response.frame requestId) with
      | .error error => some (s, .error i s.phase error)
      | .ok _ =>
        some ({ s with handed := s.handed ++ [response.frame requestId] },
          .sending response.closeAfter)
    | _ => none
  | .sendReturns error =>
    match c, error with
    | .sending _, some error => some (s, .error i s.phase error)
    | .sending true, none => some (s, .sleeping)
    | .sending false, none => some (s, .returned none)
    | _, _ => none
  | .wake =>
    match c with
    | .sleeping => some ({ s with stop := true }, .returned none)
    | _ => none
  | .requestFailure =>
    match c with
    | .failing error => some ({ s with stop := true }, .returned (some error))
    | _ => none
  | .drop =>
    match c with
    | .sending _ | .sleeping => some (s, .dropped)
    | _ => none

/-- One step of everybody else. -/
def env (s : Shared (Option ι)) : EnvAction → Option (Shared (Option ι))
  | .handlerReturns outcome =>
    match s.phase, outcome with
    | .handling, .reply payload terminal => some { s with phase := .replied payload terminal }
    | .handling, .error error => some { s with phase := .failed error }
    | .handling, .done => some { s with phase := .finished }
    | _, _ => none
  | .test =>
    match s.phase with
    | .replied payload terminal =>
      some { s with
        phase := if s.status = .unclaimed then .answering (.reply payload terminal) else .returned }
    | .failed error =>
      some { s with phase := if s.status = .sent then .returned else .answering (.error error.toWire) }
    | .finished =>
      some { s with phase := if s.status = .unclaimed then .failed errUnanswered else .returned }
    | _ => none
  | .deferResponse =>
    some { s with status := if s.status = .unclaimed then .deferred else s.status }
  | .requestStop => some { s with stop := true }
  | .beginShutdown => if s.stop then some { s with closing := true } else none

/-- The reply when the dispatcher takes a request from its queue. -/
def Start (s : Shared (Option ι)) : Prop :=
  s.status = .unclaimed ∧ s.phase = .handling ∧ s.handed = [] ∧ s.owner = none ∧
    (s.closing = true → s.stop = true)

/-- The calls for one request. -/
def threads {β : Type} (encode : ControlFrame → Except Error β) (requestId : String) :
    Threads (Option ι) (Shared (Option ι)) Call CallAction EnvAction where
  Start := Start
  new _ := .idle
  act := act encode requestId
  env := env

/-- A request with its calls. -/
abbrev State (ι : Type) := Threads.State (Option ι) (Shared (Option ι)) Call

/-! ## What is asked of a run -/

/-- The call is between its claim and `send`, or before `request_failure`. No future is dropped there. -/
def Call.underWay : Call → Bool
  | .claimed _ | .encoding _ | .failing _ => true
  | _ => false

/-- `handle_request` has returned. -/
def State.handled (s : State ι) : Prop :=
  s.shared.phase = .returned ∨
    ∃ answer error, s.shared.phase = .answering answer ∧ s.locals none = .returned error

/-- The call that claimed the reply is under way. -/
def State.underWay (s : State ι) : Prop :=
  ∃ i, s.shared.owner = some i ∧ (s.locals i).underWay = true

/-- The reply obligation: at most one response frame, with the id of the request, is handed to `send`. Once
`handle_request` has returned there is one, or the reply is deferred and unclaimed, or a stop is requested;
and no reply is left marked as sent without a frame while no stop is requested. -/
structure State.Obligation (requestId : String) (s : State ι) : Prop where
  at_most_one : s.shared.handed.length ≤ 1
  addressed : ∀ frame ∈ s.shared.handed, frame.kind = .response ∧ frame.correlationId = requestId
  answered : s.handled → ¬ s.underWay →
    s.shared.handed ≠ [] ∨ s.shared.status = .deferred ∨ s.shared.stop = true
  marked : s.shared.status = .sent → ¬ s.underWay → s.shared.handed ≠ [] ∨ s.shared.stop = true

/-- The condition on a step of a call: a frame that the encoder rejects before a stop is requested is one
for which `handle_request` requests a failure. -/
def Encodes {β : Type} (encode : ControlFrame → Except Error β) (requestId : String) (i : Option ι)
    (s : Shared (Option ι)) (c : Call) : CallAction → Prop
  | .send =>
    match c with
    | .encoding response =>
      match encode (response.frame requestId) with
      | .ok _ => True
      | .error error => s.stop = true ∨ reported i s.phase error = true
    | _ => True
  | _ => True

instance {β : Type} (encode : ControlFrame → Except Error β) (requestId : String) (i : Option ι)
    (s : Shared (Option ι)) (c : Call) (a : CallAction) :
    Decidable (Encodes encode requestId i s c a) := by
  unfold Encodes
  split
  · split
    · split <;> infer_instance
    · infer_instance
  · infer_instance

end Rtvbp.Rust.Reply
