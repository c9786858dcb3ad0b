import Rtvbp.Lib.Machine
import Rtvbp.TypeScript.EnvelopeCodec
import Rtvbp.TypeScript.Session.Lifecycle

/-!
# The reply to an inbound request

One call of `#handleRequest` of `sdk/typescript/src/session.ts`, with the `SessionContext` that it hands
to the handler. The handler, and whatever it leaves running, may call the context at any time and in any
order, also after `#handleRequest` has returned. A response entry point runs synchronously up to
`control.send`, so that a call is one step; the promise of `control.send` settles later.
-/

namespace Rtvbp.TypeScript.Reply

open Rtvbp.Lib

/-- The status of a `ReplyState`. -/
inductive Status where
  | unclaimed
  | deferred
  | sent
  deriving DecidableEq

/-- A thrown value: its message, and the wire error of a `ProtocolHandlerError`. -/
structure Thrown where
  message : String
  wire : Option WireErrorValue

/-- The arguments of `#respond`. -/
structure Response where
  result : Option WireEncodable
  error : Option WireErrorValue
  closeAfter : Bool

namespace Response

/-- `respond`. -/
def respond (result : Option WireEncodable) : Response :=
  { result := result, error := none, closeAfter := false }

/-- `respondError`. -/
def respondError (error : WireErrorValue) : Response :=
  { result := none, error := some error, closeAfter := false }

/-- `respondThenClose`. -/
def respondThenClose (result : Option WireEncodable) : Response :=
  { result := result, error := none, closeAfter := true }

end Response

/-- `RequestDispatch`: what a handler returns for a request it has not answered itself. -/
structure Dispatched where
  result : Option WireEncodable
  terminal : Bool

/-- The response of `#handleRequest` to a dispatched request. -/
def Dispatched.response (dispatched : Dispatched) : Response :=
  if dispatched.terminal then .respondThenClose dispatched.result else .respond dispatched.result

/-- `responseError`. -/
def responseError (error : Thrown) : WireErrorValue :=
  error.wire.getD { code := .integer 500, message := error.message, data := none }

/-- The error for a handler that neither answers nor defers. -/
def unanswered : Thrown :=
  { message := "request handler returned without responding or deferring", wire := none }

/-- How far `#handleRequest` has come. -/
inductive Phase where
  /-- Waiting for `dispatchRequest`. -/
  | handling
  /-- `dispatchRequest` has returned. -/
  | dispatched (result : Option Dispatched)
  /-- An error is on its way to the `catch` block. -/
  | caught (error : Thrown)
  /-- Waiting for the automatic response to be sent. -/
  | responding (closeAfter : Bool)
  /-- Waiting for the error response of the `catch` block to be sent. -/
  | respondingError
  /-- The error response has failed, and the stop of the session is about to be requested. -/
  | failing (error : Thrown)
  /-- `#handleRequest` has returned. -/
  | returned

/-- One inbound request of a session. -/
structure State where
  life : Lifecycle Thrown
  status : Status
  phase : Phase
  /-- The responses handed to `control.send`. -/
  handed : List Json

/-- What can happen next. -/
inductive Action where
  /-- `respond`, `respondError` or `respondThenClose` is called on the context or a deferred response. -/
  | call (response : Response)
  /-- `deferResponse` is called. -/
  | deferResponse
  /-- `dispatchRequest` returns or throws. -/
  | handlerReturns (result : Option Dispatched)
  | handlerThrows (error : Thrown)
  /-- `#handleRequest` continues after an `await`. -/
  | resume
  /-- The promise of the `control.send` that `#handleRequest` waits for settles. -/
  | sendSettles (error : Option Thrown)
  /-- `requestStop` is called; a `respondThenClose` of the handler does so when it has been sent. -/
  | stop (cause : Option Thrown) (failed : Bool)
  /-- The supervisor proceeds to `active`, or to the end. -/
  | activate
  | finish

variable (envelope : EnvelopeDescriptor) (requestId : String)

/-- The frame of a response. -/
def Response.frame (response : Response) : ControlFrame :=
  .response requestId response.result response.error

/-- The encoder accepts the frame of a response. -/
def Response.encodes (response : Response) : Prop :=
  ∃ json, envelope.encode (response.frame requestId) = .ok json

/-- The message of an encoder error. -/
def encodeMessage : EnvelopeError → String
  | .message text => text
  | .wireJson text => text
  | .mustEqual id name value => s!"{id}: {name} must equal \"{value}\""

namespace State

variable (s : State)

/-- The states in which `#requireReply` and `#sendFrame` refuse to send. -/
def ended : Bool :=
  match s.life.state with
  | .closing | .closed | .failed => true
  | _ => false

/-- `#sendFrame` of a response: it throws, or hands the encoded frame to `control.send`. -/
def sendFrame (frame : ControlFrame) : State × Option Thrown :=
  if s.life.aborted || s.ended then (s, some { message := "session is closed", wire := none })
  else
    match envelope.encode frame with
    | .error error => (s, some { message := encodeMessage error, wire := none })
    | .ok json => ({ s with handed := s.handed ++ [json] }, none)

/-- `#respond`, up to the promise of `control.send`. -/
def respond (response : Response) : State × Option Thrown :=
  if s.ended then (s, some { message := "session is closed", wire := none })
  else if s.status = .sent then (s, some { message := "response is already sent", wire := none })
  else sendFrame envelope { s with status := .sent } (response.frame requestId)

/-- `deferResponse`. -/
def deferResponse : State :=
  if s.ended then s else if s.status = .unclaimed then { s with status := .deferred } else s

/-- `#handleRequest` after `dispatchRequest` has returned. -/
def afterDispatch (result : Option Dispatched) : State :=
  if s.status = .unclaimed then
    match result with
    | some dispatched =>
      match s.respond envelope requestId dispatched.response with
      | (t, none) => { t with phase := .responding dispatched.response.closeAfter }
      | (t, some error) => { t with phase := .caught error }
    | none => { s with phase := .caught unanswered }
  else { s with phase := .returned }

/-- The `catch` block of `#handleRequest`. -/
def afterCatch (error : Thrown) : State :=
  if s.status = .sent then { s with phase := .returned }
  else
    match s.respond envelope requestId (.respondError (responseError error)) with
    | (t, none) => { t with phase := .respondingError }
    | (t, some error) => { t with phase := .failing error }

/-- The inner `catch` block of `#handleRequest`. -/
def afterFailure (error : Thrown) : State :=
  { s with
    life := if s.life.aborted then s.life else s.life.requestStop (some error) true
    phase := .returned }

end State

/-- One step of the request. -/
def step (s : State) : Action → Option State
  | .call response => some (s.respond envelope requestId response).1
  | .deferResponse => some s.deferResponse
  | .handlerReturns result =>
    match s.phase with
    | .handling => some { s with phase := .dispatched result }
    | _ => none
  | .handlerThrows error =>
    match s.phase with
    | .handling => some { s with phase := .caught error }
    | _ => none
  | .resume =>
    match s.phase with
    | .dispatched result => some (s.afterDispatch envelope requestId result)
    | .caught error => some (s.afterCatch envelope requestId error)
    | .failing error => some (s.afterFailure error)
    | _ => none
  | .sendSettles error =>
    match s.phase, error with
    | .responding closeAfter, none =>
      some
        { s with
          life := if closeAfter then s.life.requestStop none false else s.life
          phase := .returned }
    | .responding _, some error => some { s with phase := .caught error }
    | .respondingError, none => some { s with phase := .returned }
    | .respondingError, some error => some { s with phase := .failing error }
    | _, _ => none
  | .stop cause failed => some { s with life := s.life.requestStop cause failed }
  | .activate =>
    if s.life.state = .connecting ∧ s.life.aborted = false then
      some { s with life := { s.life with state := .active } }
    else none
  | .finish => if s.life.state = .closing then some { s with life := s.life.finish } else none

/-- The dispatcher takes a request from the queue while the session is connecting or active. -/
def Start (s : State) : Prop :=
  (s.life.state = .connecting ∨ s.life.state = .active) ∧ s.life.aborted = false ∧
    s.status = .unclaimed ∧ s.handed = [] ∧ s.phase = .handling

/-- The runs of a request. -/
def machine : Machine State Action where
  Start := Start
  step := step envelope requestId

/-- The reply obligation: at most one response is handed to the channel; when `#handleRequest` has
returned there is one, or the reply is deferred, or the session is stopping; and a reply with status
`sent` has a response, unless the session is stopping or about to be stopped because of it. -/
structure State.Obligation (s : State) : Prop where
  at_most_one : s.handed.length ≤ 1
  answered : s.phase = .returned →
    s.handed ≠ [] ∨ s.status = .deferred ∨ s.life.aborted = true
  not_left : s.status = .sent →
    s.handed ≠ [] ∨ s.life.aborted = true ∨ ∃ error, s.phase = .failing error

/-- The step does not claim the reply with a response that the encoder rejects. The error response of
the `catch` block is not restricted. -/
def State.encodable (s : State) : Action → Prop
  | .call response => s.status ≠ .sent → s.life.aborted = false → response.encodes envelope requestId
  | .resume =>
    ∀ dispatched, s.phase = .dispatched (some dispatched) → s.status = .unclaimed →
      s.life.aborted = false → dispatched.response.encodes envelope requestId
  | _ => True

end Rtvbp.TypeScript.Reply
