import Rtvbp.TypeScript.Session.Reply

/-!
# Terminal requests

A session of `sdk/typescript/src/session.ts` that issues requests, with `#completePending` and the stop that it
requests, and the peer client that `render_peer` of `emit/typescript.rs` generates. On the other end, the registration
that `render_handlers` generates and `dispatchRequest` of `handler.ts`, for handlers that leave the response to
`#handleRequest`.

The ids that `#nextId` generates are distinct; an id is represented by the number it is made of.
-/

namespace Rtvbp.TypeScript.Terminal

open Rtvbp.Lib
open Rtvbp.TypeScript.Reply (Thrown Dispatched Response responseError)

/-- An operation of the catalog. -/
structure Operation where
  method : String
  terminal : Bool

/-! ## The end that issues requests -/

/-- `RequestOptions`. -/
structure RequestOptions where
  terminal : Option Bool

/-- The options that a generated peer client calls `request` with. -/
def Operation.options (operation : Operation) (options : RequestOptions) : RequestOptions :=
  { options with terminal := some operation.terminal }

/-- `PendingRequest` under its id. -/
structure PendingRequest where
  id : Nat
  terminal : Bool

/-- A response frame. -/
structure ResponseFrame where
  correlationId : Nat
  result : Option WireEncodable
  error : Option WireErrorValue

/-- A session; `ε` are the thrown values. -/
structure State (ε : Type) where
  life : Lifecycle ε
  sequence : Nat
  pending : List PendingRequest
  /-- History: the requests that a response has completed, and whether anybody else has requested a stop. -/
  completed : List (PendingRequest × ResponseFrame)
  stopped : Bool

/-- What can happen next. -/
inductive Action (ε : Type) where
  | run
  | activate
  /-- `request`, directly or by a generated peer client. -/
  | request (method : String) (options : RequestOptions)
  | call (operation : Operation) (options : RequestOptions)
  /-- `#cancelPending`: the timer, the signal of the caller, or `#sendFrame` that throws. -/
  | cancel (id : Nat)
  /-- `#completePending`. -/
  | response (frame : ResponseFrame)
  | requestStop (cause : Option ε) (failed : Bool)
  /-- `#failPending` and the end of `#supervise`. -/
  | failPending
  | finish

variable {ε : Type}

/-- A new session. -/
def initial : State ε where
  life := .new
  sequence := 0
  pending := []
  completed := []
  stopped := false

/-- `request` up to `#sendFrame`. -/
def request (s : State ε) (method : String) (options : RequestOptions) : State ε :=
  if s.life.state ≠ .connecting ∧ s.life.state ≠ .active then s
  else if method.length = 0 then s
  else
    let id := s.sequence + 1
    { s with
      sequence := id
      pending := s.pending ++ [{ id := id, terminal := options.terminal == some true }] }

/-- `#completePending`. -/
def completePending (s : State ε) (frame : ResponseFrame) : State ε :=
  match s.pending.find? fun pending => pending.id = frame.correlationId with
  | none => s
  | some pending =>
    let s := { s with
      pending := s.pending.filter fun other => other.id ≠ frame.correlationId
      completed := s.completed ++ [(pending, frame)] }
    if pending.terminal then { s with life := s.life.requestStop none false } else s

/-- One step. -/
def step (s : State ε) : Action ε → Option (State ε)
  | .run =>
    if s.life.state = .inactive then some { s with life := { s.life with state := .connecting } } else none
  | .activate =>
    if s.life.state = .connecting ∧ s.life.aborted = false then
      some { s with life := { s.life with state := .active } }
    else none
  | .request method options => some (request s method options)
  | .call operation options => some (request s operation.method (operation.options options))
  | .cancel id => some { s with pending := s.pending.filter fun other => other.id ≠ id }
  | .response frame => some (completePending s frame)
  | .requestStop cause failed => some { s with life := s.life.requestStop cause failed, stopped := true }
  | .failPending => if s.life.aborted then some { s with pending := [] } else none
  | .finish => if s.life.aborted then some { s with life := s.life.finish } else none

/-- The runs of a session. -/
def machine (ε : Type) : Machine (State ε) (Action ε) where
  Start s := s = initial
  step := step

/-- A response is a success if it has no error. -/
def ResponseFrame.succeeds (frame : ResponseFrame) : Bool := frame.error.isNone

/-- The session is stopped exactly if somebody else has requested that, or the response to a terminal request was a
success. -/
def State.StopsOnSuccess (s : State ε) : Prop :=
  s.life.aborted = true ↔ s.stopped = true ∨
    ∃ c ∈ s.completed, c.1.terminal = true ∧ c.2.succeeds = true

/-- The response that the step completes a terminal request with, if the session is not stopped yet. -/
def State.finishing? (s : State ε) : Action ε → Option ResponseFrame
  | .response frame =>
    match s.pending.find? fun pending => pending.id = frame.correlationId with
    | some pending => if pending.terminal ∧ s.life.aborted = false then some frame else none
    | none => none
  | _ => none

/-- The step does not complete a terminal request with an error. -/
def Succeeds (s : State ε) (a : Action ε) : Prop := ∀ frame ∈ s.finishing? a, frame.succeeds = true

instance (s : State ε) (a : Action ε) : Decidable (Succeeds s a) :=
  inferInstanceAs (Decidable (∀ frame ∈ s.finishing? a, frame.succeeds = true))

/-! ## The end that handles requests -/

/-- What a handler does with a request. -/
inductive Handled where
  | returns (result : WireEncodable)
  /-- It throws a `ProtocolValidationError`, or anything else. -/
  | invalid (message : String)
  | throws (error : Thrown)

/-- `dispatchRequest` for a registered operation. -/
def dispatchRequest (operation : Operation) : Handled → Except Thrown Dispatched
  | .returns result => .ok { result := some result, terminal := operation.terminal }
  | .invalid message =>
    .error { message := message, wire := some { code := .integer 400, message := message, data := none } }
  | .throws error => .error error

/-- The action of the reply that the outcome of `dispatchRequest` is. -/
def outcome : Except Thrown Dispatched → Reply.Action
  | .ok dispatched => .handlerReturns (some dispatched)
  | .error error => .handlerThrows error

/-- The response of `#handleRequest`. -/
def response : Except Thrown Dispatched → Response
  | .ok dispatched => dispatched.response
  | .error error => .respondError (responseError error)

/-- `#handleRequest` for an operation whose response is sent. -/
def handleRequest (operation : Operation) (handled : Handled) : List Reply.Action :=
  [outcome (dispatchRequest operation handled), .resume, .sendSettles none]

end Rtvbp.TypeScript.Terminal
