import Rtvbp.Envelope.GoCodec
import Rtvbp.Lib.Threads

/-!
# The reply to an inbound request

One call of `handleRequest` of `sdk/go/session_control.go` with the reply state of `sdk/go/handler.go`.
The handler, the goroutines it starts and whoever holds the deferred response may call `Respond`,
`RespondThenClose` and `DeferResponse` at any time and any number of times, also after `handleRequest`
has returned; every such call is a thread. The thread `none` is the call of `Respond` that
`handleRequest` makes itself. Every access to the reply state and the closing flag is a step of its own.
-/

namespace Rtvbp.Go.Reply

open Rtvbp.Lib Rtvbp.Envelope.Go

/-- An error: what `Error` returns, and the wire error of the `HandlerError` that `errors.As` finds. -/
structure Error where
  message : String
  wire : Option WireError

/-- `ErrSessionClosed`. -/
def errSessionClosed : Error := ⟨"rtvbp: session closed", none⟩

/-- `ErrResponseAlreadySent`. -/
def errResponseAlreadySent : Error := ⟨"rtvbp: response already sent", none⟩

/-- The error for a handler that neither answers nor defers. -/
def errUnanswered : Error := ⟨"request handler returned without responding or deferring", none⟩

/-- `wireErrorFrom`. -/
def wireErrorFrom (err : Error) : WireError :=
  err.wire.getD { Code := 500, Message := err.message, Data := .nil }

/-- `Response`. -/
structure Response where
  Payload : RawMessage
  Err : Option WireError

/-- The response that `handleRequest` makes of an error. -/
def Response.ofError (err : Error) : Response := { Payload := .nil, Err := some (wireErrorFrom err) }

/-- The frame of `sendResponse`. -/
def Response.frame (requestID : String) (response : Response) : ControlFrame :=
  { Kind := .response, ID := "", CorrelID := requestID, Method := "", Payload := response.Payload,
    Err := response.Err }

/-- `Encode` of a generated codec, with its error as the session sees it. -/
def encodeWith (tables : Tables) (frame : ControlFrame) : Except Error Json :=
  match tables.encode frame with
  | .ok json => .ok json
  | .error (.text message) => .error ⟨message, none⟩
  | .error (.mustEqual name value) =>
    .error ⟨s!"{tables.envelopeName}: {name} must equal {value.quote}", none⟩

/-- The status of a `replyState`. -/
inductive Status where
  | unclaimed
  | deferred
  | sent
  deriving DecidableEq

/-- How far `handleRequest` has come. -/
inductive Phase where
  /-- In `OnRequest`. -/
  | handling
  /-- `OnRequest` has returned an error; next is `responseSent`. -/
  | failed (err : Error)
  /-- `OnRequest` has returned nil; next is the look at the status. -/
  | finished
  /-- `handleRequest` calls `Respond`, and returns with it. -/
  | answering (response : Response)
  /-- `handleRequest` has returned without an answer of its own. -/
  | returned

/-- What the calls and `handleRequest` share. -/
structure Shared (ι : Type) where
  status : Status
  closing : Bool
  phase : Phase
  /-- The frames handed to `ControlChannel.Send`. -/
  handed : List ControlFrame
  /-- History: the call that claimed the reply. -/
  owner : Option ι

/-- A call of `respond`. -/
inductive Call where
  | idle
  /-- Before the look at `closing`. -/
  | entered (response : Response) (closeAfter : Bool)
  /-- In the loop, before the look at the status. -/
  | looking (response : Response) (closeAfter : Bool)
  /-- In the loop, before `CompareAndSwap`. -/
  | loaded (response : Response) (closeAfter : Bool) (status : Status)
  /-- In `sendFrame`, before its look at `closing`. -/
  | claimed (response : Response) (closeAfter : Bool)
  /-- In `sendFrame`, before `Encode` and `Send`. -/
  | encoding (response : Response) (closeAfter : Bool)
  /-- In `Send`. -/
  | sending (closeAfter : Bool)
  /-- Before `requestStop`; the call returns this error then. -/
  | stopping (err : Option Error)
  | returned (err : Option Error)

/-- The steps of a call. -/
inductive CallAction where
  /-- `Respond` or `RespondThenClose` is called. -/
  | respond (response : Response) (closeAfter : Bool)
  /-- `handleRequest` calls `Respond`. -/
  | answer
  /-- The look at `closing`, the two steps of the loop, and the look at `closing` in `sendFrame`. -/
  | check
  | load
  | compareAndSwap
  | look
  /-- `Encode`, and the frame is handed to `Send`, which returns later. -/
  | send
  | sendReturns (err : Option Error)
  | requestStop

/-- The steps of everybody else. -/
inductive EnvAction where
  /-- `OnRequest` returns. -/
  | handlerReturns (err : Option Error)
  /-- `handleRequest` looks at the status. -/
  | test
  /-- `DeferResponse` is called. -/
  | deferResponse
  /-- `requestStop` is called, or the shutdown begins. -/
  | requestStop
  | beginShutdown

variable {ι : Type}

/-- One step of a call; `encode` is `Encode` of the envelope. -/
def act {β : Type} (encode : ControlFrame → Except Error β) (requestID : String) (i : Option ι)
    (s : Shared (Option ι)) (c : Call) : CallAction → Option (Shared (Option ι) × Call)
  | .respond response closeAfter =>
    match i, c with
    | some _, .idle => some (s, .entered response closeAfter)
    | _, _ => none
  | .answer =>
    match i, c, s.phase with
    | none, .idle, .answering response => some (s, .entered response false)
    | _, _, _ => none
  | .check =>
    match c with
    | .entered response closeAfter =>
      some (s, if s.closing then .returned (some errSessionClosed) else .looking response closeAfter)
    | _ => none
  | .load =>
    match c with
    | .looking response closeAfter =>
      some (s, if s.status = .sent then .returned (some errResponseAlreadySent)
        else .loaded response closeAfter s.status)
    | _ => none
  | .compareAndSwap =>
    match c with
    | .loaded response closeAfter status =>
      if s.status = status then
        some ({ s with status := .sent, owner := some i }, .claimed response closeAfter)
      else some (s, .looking response closeAfter)
    | _ => none
  | .look =>
    match c with
    | .claimed response closeAfter =>
      some (s, if s.closing then .stopping (some errSessionClosed) else .encoding response closeAfter)
    | _ => none
  | .send =>
    match c with
    | .encoding response closeAfter =>
      match encode (response.frame requestID) with
      | .error err => some (s, .stopping (some err))
      | .ok _ =>
        some ({ s with handed := s.handed ++ [response.frame requestID] }, .sending closeAfter)
    | _ => none
  | .sendReturns err =>
    match c, err with
    | .sending _, some err => some (s, .stopping (some err))
    | .sending true, none => some (s, .stopping none)
    | .sending false, none => some (s, .returned none)
    | _, _ => none
  | .requestStop =>
    match c with
    | .stopping err => some ({ s with closing := true }, .returned err)
    | _ => none

/-- One step of everybody else. -/
def env (s : Shared (Option ι)) : EnvAction → Option (Shared (Option ι))
  | .handlerReturns err =>
    match s.phase, err with
    | .handling, some err => some { s with phase := .failed err }
    | .handling, none => some { s with phase := .finished }
    | _, _ => none
  | .test =>
    match s.phase with
    | .failed err =>
      some { s with phase := if s.status = .sent then .returned else .answering (.ofError err) }
    | .finished =>
      some { s with
        phase := if s.status = .unclaimed then .answering (.ofError errUnanswered) else .returned }
    | _ => none
  | .deferResponse =>
    some { s with status := if s.status = .unclaimed then .deferred else s.status }
  | .requestStop => some { s with closing := true }
  | .beginShutdown => some { s with closing := true }

/-- The reply when the dispatcher takes a request from its queue. -/
def Start (s : Shared (Option ι)) : Prop :=
  s.status = .unclaimed ∧ s.phase = .handling ∧ s.handed = [] ∧ s.owner = none

/-- The calls for one request. -/
def threads {β : Type} (encode : ControlFrame → Except Error β) (requestID : String) :
    Threads (Option ι) (Shared (Option ι)) Call CallAction EnvAction where
  Start := Start
  new _ := .idle
  act := act encode requestID
  env := env

/-- A request with its calls. -/
abbrev State (ι : Type) := Threads.State (Option ι) (Shared (Option ι)) Call

/-! ## What is asked of a run -/

/-- The call has claimed the reply and has not returned. -/
def Call.claims : Call → Bool
  | .claimed _ _ | .encoding _ _ | .sending _ | .stopping _ => true
  | _ => false

/-- `handleRequest` has returned. -/
def State.handled (s : State ι) : Prop :=
  s.shared.phase = .returned ∨
    ∃ response err, s.shared.phase = .answering response ∧ s.locals none = .returned err

/-- The reply obligation: at most one response frame, with the id of the request, is handed to `Send`; and
once `handleRequest` has returned there is one, or a call that claimed the reply is under way, or the reply
is deferred and unclaimed, or a stop is requested or the shutdown has begun. -/
structure State.Obligation (requestID : String) (s : State ι) : Prop where
  at_most_one : s.shared.handed.length ≤ 1
  addressed : ∀ frame ∈ s.shared.handed, frame.Kind = .response ∧ frame.CorrelID = requestID
  answered : s.handled → s.shared.handed ≠ [] ∨ (∃ i, (s.locals i).claims = true) ∨
    s.shared.status = .deferred ∨ s.shared.closing = true

end Rtvbp.Go.Reply

/-!
## Typed request handlers

`typedRequestHandler.Handle` of `sdk/go/request.go`, for a handler that leaves the response to it, and the steps of the
reply that follow.
-/

namespace Rtvbp.Go.TypedRequest

open Rtvbp.Lib Rtvbp.Envelope.Go Rtvbp.Go.Reply

/-- `BadRequest`. -/
def BadRequest (cause : String) : Error where
  message := cause
  wire := some { Code := 400, Message := cause, Data := .nil }

/-- What `Handle` meets on its way: the errors of `json.Unmarshal` and of `Validate` of the request, the result of the
handler, and the errors of `Validate` and of `marshalPayload` of the result. -/
structure Course where
  decodeError : Option String
  invalidRequest : Option String
  handlerError : Option Error
  invalidResult : Option Error
  encodeError : Option Error
  payload : RawMessage

/-- The text and the cause of `fmt.Errorf` with `%w`. -/
def wrap (text : String) (err : Error) : Error := { message := text ++ err.message, wire := err.wire }

/-- `Handle` of a handler for a method: the error that it returns, or the response that it gives to `RespondThenClose`,
if `closeAfter` is set, or to `Respond`. -/
def Handle (method : String) (course : Course) : Except Error Response :=
  match course.decodeError with
  | some err => .error (BadRequest ("decode " ++ method ++ " request: " ++ err))
  | none =>
    match course.invalidRequest with
    | some err => .error (BadRequest err)
    | none =>
      match course.handlerError with
      | some err => .error err
      | none =>
        match course.invalidResult with
        | some err => .error (wrap ("validate response for " ++ method ++ ": ") err)
        | none =>
          match course.encodeError with
          | some err => .error (wrap ("encode response for " ++ method ++ ": ") err)
          | none => .ok { Payload := course.payload, Err := none }

/-- The response that is sent. -/
def response : Except Error Response → Response
  | .ok response => response
  | .error err => .ofError err

/-- The steps of a call of `respond` by a thread, whose frame is sent. -/
def respondSteps (i : Option Nat) (closeAfter : Bool) : List (Threads.Action (Option Nat) CallAction EnvAction) :=
  [.act i .check, .act i .load, .act i .compareAndSwap, .act i .look, .act i .send, .act i (.sendReturns none)] ++
    if closeAfter then [.act i .requestStop] else []

/-- The steps of `handleRequest` with the handler, when the response is sent. -/
def handleRequest (closeAfter : Bool) :
    Except Error Response → List (Threads.Action (Option Nat) CallAction EnvAction)
  | .ok response =>
    .act (some 0) (.respond response closeAfter) :: respondSteps (some 0) closeAfter ++
      [.env (.handlerReturns none), .env .test]
  | .error err =>
    [.env (.handlerReturns (some err)), .env .test, .act none .answer] ++ respondSteps none false

/-- A reply when the dispatcher takes the request from its queue. -/
def taken : State Nat where
  shared := { status := .unclaimed, closing := false, phase := .handling, handed := [], owner := none }
  locals _ := .idle

end Rtvbp.Go.TypedRequest
