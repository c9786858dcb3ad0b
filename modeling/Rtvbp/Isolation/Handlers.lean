import Rtvbp.Go.Reply
import Rtvbp.Envelope.Proofs.PeerProofs
import Rtvbp.Lib.Serve
import Rtvbp.Rust.Session.Reply
import Rtvbp.TypeScript.Session.Reply

/-!
# Handlers that fail

The dispatcher of `sdk/go/session_control.go` on a queue of requests whose handlers return errors without
having answered. `Send` succeeds and nobody else stops the session, so that what the peer receives and
whether the session goes on is decided by `wireErrorFrom` and `Encode` alone.
-/

namespace Rtvbp.Go.Isolation

open Rtvbp.Lib Rtvbp.Envelope.Go Rtvbp.Go.Reply

/-- The data of a `WireError`: absent, bytes that are not JSON, or a JSON text. -/
inductive ErrorData where
  | absent
  | invalid
  | json (v : Value)

/-- The `json.RawMessage` of the data. -/
def ErrorData.raw : ErrorData → RawMessage
  | .absent => .nil
  | .invalid => .invalid
  | .json v => .json v.val

/-- The wire error of a `HandlerError`. -/
structure HandlerError where
  Code : Int64
  Message : String
  Data : ErrorData

/-- A request in the dispatch queue, which has an id since it was decoded, and the error that its handler
returns: what `Error` returns, and the `HandlerError` that `errors.As` finds. -/
structure Failing where
  id : String
  id_ne : id ≠ ""
  message : String
  handlerError : Option HandlerError

/-- The error that the handler returns. -/
def Failing.err (request : Failing) : Error where
  message := request.message
  wire := request.handlerError.map fun e => { Code := e.Code, Message := e.Message, Data := e.Data.raw }

variable (tables : Tables)

/-- `sendResponse`. -/
def sendResponse (s : Server Json) (requestID : String) (response : Response) :
    Server Json × Option Error :=
  if s.stopped then (s, some errSessionClosed)
  else
    match encodeWith tables (response.frame requestID) with
    | .error err => (s, some err)
    | .ok json => (s.send json, none)

/-- `respond`, for a reply that nobody has sent. -/
def respond (s : Server Json) (requestID : String) (response : Response) : Server Json :=
  if s.stopped then s
  else
    match sendResponse tables s requestID response with
    | (s, some _) => s.stop
    | (s, none) => s

/-- `handleRequest`, when `OnRequest` returns an error. -/
def handleRequest (s : Server Json) (request : Failing) : Server Json :=
  respond tables s request.id (.ofError request.err)

/-- `dispatchControl`. -/
def dispatchControl : Server Json → List Failing → Server Json × List Failing :=
  Server.serve (handleRequest tables)

/-- The error of the handler as an envelope error, unless its data is not JSON. -/
def Failing.error (request : Failing) : Option Envelope.WireError :=
  match request.handlerError with
  | none => some { code := 500, message := request.message, data := none }
  | some { Code := code, Message := message, Data := .absent } =>
    some { code := code, message := message, data := none }
  | some { Code := code, Message := message, Data := .json v } =>
    some { code := code, message := message, data := some v }
  | some { Data := .invalid, .. } => none

/-- The condition on the error of a handler: it is a message or a wire error with a non-zero code, a
message and JSON data, and the peer takes it. -/
def Failing.Deliverable (json : TypeScript.LosslessJson) (spec : Envelope.EnvelopeSpec)
    (peer : Envelope.Peer) (request : Failing) : Prop :=
  ∃ error, request.error = some error ∧ (error.code ≠ 0 ∧ error.message ≠ "") ∧
    peer.Takes json spec error

/-! ## The calls for such a request -/

/-- The steps of a call in a run where nobody else answers and `Send` succeeds. -/
def QuietCall {ι : Type} (i : Option ι) (_ : Shared (Option ι)) (_ : Call) : CallAction → Prop
  | .sendReturns err => i = none ∧ err = none
  | _ => i = none

/-- The other steps of such a run: the handler returns its error, and may have deferred the response. -/
def QuietEnv {ι : Type} (request : Failing) (_ : Shared (Option ι)) : EnvAction → Prop
  | .handlerReturns err => err = some request.err
  | .test | .deferResponse => True
  | .requestStop | .beginShutdown => False

end Rtvbp.Go.Isolation

/-!
## The Rust dispatcher

The dispatcher of `sdk/rust/src/session/mod.rs` on a queue of requests whose middleware, handlers and
hooks return errors without having answered. `send` succeeds and nobody else stops the session, so that
what the peer receives and whether the session goes on is decided by `respond_handler_error` and `encode`
alone. The flag `closing` is not set before a stop is requested, and the dispatcher takes no request
after that.
-/

namespace Rtvbp.Rust.Isolation

open Rtvbp.Lib Rtvbp.Envelope.Rust Rtvbp.Rust.Reply
open Rtvbp.Envelope (EnvelopeSpec Peer)

/-- A request in the dispatch queue, which has an id since it was decoded, and the error that its handler
returns. -/
structure Failing where
  id : String
  id_ne : id ≠ ""
  error : Error

variable (tables : Tables)

/-- `send_frame`. -/
def sendFrame (s : Server Json) (frame : ControlFrame) : Server Json × Option Error :=
  match encodeWith tables frame with
  | .error error => (s, some error)
  | .ok json => (s.send json, none)

/-- `respond_handler_error`, for a reply that nobody has sent. -/
def respondHandlerError (s : Server Json) (requestId : String) (error : Error) : Server Json :=
  match sendFrame tables s ((Answer.error error.toWire).response.frame requestId) with
  | (s, some error) => if error.isSessionClosed then s else s.stop
  | (s, none) => s

/-- `handle_request`, when the handler returns an error. -/
def handleRequest (s : Server Json) (request : Failing) : Server Json :=
  respondHandlerError tables s request.id request.error

/-- `dispatch_control`. -/
def dispatchControl : Server Json → List Failing → Server Json × List Failing :=
  Server.serve (handleRequest tables)

/-- The condition on the error of a handler: a wire error has a non-zero code and a message, and the peer
takes the error. The text of every other error is not empty. -/
def Failing.Deliverable (json : TypeScript.LosslessJson) (spec : EnvelopeSpec) (peer : Peer)
    (request : Failing) : Prop :=
  (∀ wire, request.error = .handler wire → wire.code ≠ 0 ∧ wire.message ≠ "") ∧
    peer.Takes json spec request.error.toWire

/-! ## The calls for such a request -/

/-- The steps of a call in a run where nobody else answers, `send` succeeds and `handle_request` is not
dropped. -/
def QuietCall {ι : Type} (i : Option ι) (_ : Shared (Option ι)) (_ : Call) : CallAction → Prop
  | .sendReturns error => i = none ∧ error = none
  | .drop => False
  | _ => i = none

/-- The other steps of such a run: the handler returns its error, and may have deferred the response. -/
def QuietEnv {ι : Type} (request : Failing) (_ : Shared (Option ι)) : EnvAction → Prop
  | .handlerReturns outcome => outcome = .error request.error
  | .test | .deferResponse => True
  | .requestStop | .beginShutdown => False

end Rtvbp.Rust.Isolation

/-!
## The TypeScript dispatcher

The dispatcher of `sdk/typescript/src/session.ts` on a queue of requests whose handlers throw without
having answered. `control.send` succeeds and nobody else stops the session, so that what the peer receives
and whether the session goes on is decided by `responseError` and `encode` alone.
-/

namespace Rtvbp.TypeScript.Isolation

open Rtvbp.Lib Rtvbp.TypeScript.Reply

/-- What a handler throws. -/
inductive Raised where
  /-- An `Error`, or a value with the given text. -/
  | thrown (error : Thrown)
  /-- A value that `String` cannot convert, and what `String` throws then. -/
  | unprintable (failure : Thrown)

/-- A request in the dispatch queue, which has an id since it was decoded, and what its handler throws. -/
structure Failing where
  id : String
  id_ne : id ≠ ""
  raised : Raised

variable (envelope : EnvelopeDescriptor)

/-- `#sendFrame`. -/
def sendFrame (s : Server Json) (frame : ControlFrame) : Server Json × Option Thrown :=
  if s.stopped then (s, some { message := "session is closed", wire := none })
  else
    match envelope.encode frame with
    | .error error => (s, some { message := encodeMessage error, wire := none })
    | .ok json => (s.send json, none)

/-- `respondError`, for a reply that nobody has sent. -/
def respondError (s : Server Json) (requestId : String) (error : WireErrorValue) :
    Server Json × Option Thrown :=
  sendFrame envelope s ((Response.respondError error).frame requestId)

/-- `#handleRequest`, when `dispatchRequest` throws. -/
def handleRequest (s : Server Json) (request : Failing) : Server Json :=
  let (s, responseFailure) :=
    match request.raised with
    | .thrown error => respondError envelope s request.id (responseError error)
    | .unprintable failure => (s, some failure)
  match responseFailure with
  | some _ => if s.stopped then s else s.stop
  | none => s

/-- `#dispatchControl`. -/
def dispatchControl : Server Json → List Failing → Server Json × List Failing :=
  Server.serve (handleRequest envelope)

/-- The data of a wire error as JSON, unless the encoder refuses it. -/
def errorData : Option WireEncodable → Option (Option Value)
  | none => some none
  | some data =>
    match encodeWireJson data with
    | .error _ => none
    | .ok json => if h : json.wellFormed = true then some (some ⟨json, h⟩) else none

/-- The wire error as an envelope error, unless its code is not a safe integer or the encoder refuses its
data. -/
def envelopeError (wire : WireErrorValue) : Option Envelope.WireError :=
  match wire.code with
  | .integer n =>
    if Json.isSafeInteger n then
      (errorData wire.data).map fun data =>
        { code := Int64.ofInt n, message := wire.message, data := data }
    else none
  | _ => none

/-- What the handler throws as an envelope error. -/
def Failing.error (request : Failing) : Option Envelope.WireError :=
  match request.raised with
  | .thrown { message := message, wire := none } =>
    some { code := 500, message := message, data := none }
  | .thrown { wire := some wire, .. } => envelopeError wire
  | .unprintable _ => none

/-- The condition on what a handler throws: it is a message or a wire error with a non-zero safe code, a
message and data that the encoder accepts, and the peer takes it. -/
def Failing.Deliverable (json : LosslessJson) (spec : Envelope.EnvelopeSpec) (peer : Envelope.Peer)
    (request : Failing) : Prop :=
  ∃ error, request.error = some error ∧ (error.code ≠ 0 ∧ error.message ≠ "") ∧
    peer.Takes json spec error

/-- The steps of a request in a run where the handler throws this error, nobody else answers, and
`control.send` succeeds; the handler may have deferred the response. -/
def Quiet (error : Thrown) (_ : State) : Action → Prop
  | .handlerThrows thrown => thrown = error
  | .deferResponse | .resume | .activate => True
  | .sendSettles failure => failure = none
  | .call _ | .handlerReturns _ | .stop _ _ | .finish => False

end Rtvbp.TypeScript.Isolation
