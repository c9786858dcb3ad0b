import Rtvbp.Go.Media
import Rtvbp.Go.Reply

/-!
# The voice handler

`VoiceHandler` of `sdk/go/bridge/babelforcev1/handler.go` in a session: `begin` with `initialize`, which the
session runs as `OnBegin` in a goroutine of its own, and `dispatchControl` of `sdk/go/session_control.go`, whose
requests pass the middleware `checkInitialized`. The two meet in `handler.mu`: `initialize` holds it from its
first statement to its return, and the middleware takes it for every catalog request. The section of the
middleware is one step, taken when the mutex is free; `Terminate` and the observer hold the mutex as shortly.

The application peer is the environment. It sends requests and answers `session.initialize` when it likes; some
of its requests it wants answered before it answers.
-/

namespace Rtvbp.Go.VoiceHandler

open Rtvbp.Lib Rtvbp.Go.Reply
open Rtvbp.Go.Media (MediaFormat)

/-! ## Codecs -/

structure AudioCodec where
  ID : String
  Name : String
  SampleRate : Int64
  BitDepth : Int64
  Channels : Int64

/-- `DefaultPTime`, in nanoseconds. -/
def DefaultPTime : Int64 := 20000000

/-- `MediaFormat` of a codec. -/
def mediaFormat (codec : Option AudioCodec) (ptime : Int64) : Except String MediaFormat :=
  match codec with
  | none => .error "audio codec is required"
  | some codec =>
    let format : MediaFormat :=
      { Encoding := codec.Name, SampleRate := codec.SampleRate, BitDepth := codec.BitDepth,
        Channels := codec.Channels, PTime := if ptime = 0 then DefaultPTime else ptime }
    match format.FrameBytes with
    | .error err => .error err
    | .ok _ => .ok format

def audioCodec (format : MediaFormat) : AudioCodec where
  ID := s!"{format.Encoding}/{format.SampleRate.toInt}/{format.Channels.toInt}"
  Name := format.Encoding
  SampleRate := format.SampleRate
  BitDepth := format.BitDepth
  Channels := format.Channels

/-! ## The state -/

/-- What is read of the handler's fields. -/
structure Config where
  /-- The telephony adapter is not nil. -/
  telephony : Bool
  audioFormat : MediaFormat

structure Request where
  ID : String
  Method : String
  deriving DecidableEq

/-- The frames of the dispatch queue. -/
inductive Frame where
  | request (request : Request)
  | event (name : String)

/-- The methods of `VoiceHandlers`. -/
def voiceMethods : List String :=
  ["application.move", "audio.buffer.clear", "call.hangup", "ping", "recording.start", "recording.stop",
    "session.get", "session.set", "session.terminate"]

/-- How far `begin` has come. -/
inductive Begin where
  | absent
  /-- Before `initialize` locks. -/
  | entered
  /-- `initialize` holds the mutex from here on: before the request is handed over, -/
  | requesting
  /-- while it waits for the response, -/
  | waiting
  /-- before it looks at the codec of the response, -/
  | responded (codec : Option AudioCodec)
  /-- in `AcceptAudio`, -/
  | accepting (codec : Option AudioCodec)
  /-- and in the notification of `session.updated`. -/
  | notifying (codec : Option AudioCodec)
  /-- `initialize` has returned a response. -/
  | initialized
  | returned (err : Option Error)

/-- How far the dispatcher has come. -/
inductive Dispatcher where
  | idle
  /-- In `handler.mu.Lock` of the middleware. -/
  | waiting (request : Request)
  /-- `OnRequest` has returned an error, and `handleRequest` responds with it. -/
  | refusing (request : Request) (err : Error)
  /-- In the handler of the method. -/
  | handling (request : Request)
  | stopped

structure State where
  begin : Begin
  initialized : Bool
  queue : List Frame
  dispatcher : Dispatcher
  /-- The requests that the peer wants answered before it answers `session.initialize`. -/
  first : List Request
  /-- History: the responses made for requests, and the catalog requests dispatched before the
  initialization. -/
  answers : List (Request × Response)
  early : List Request

inductive Action where
  /-- `OnBegin` is called. -/
  | begin
  /-- `handler.mu.Lock` of `initialize`. -/
  | lock
  /-- The request is handed to the control channel, or is not. -/
  | send (err : Option Error)
  /-- The peer answers `session.initialize`. -/
  | answer (result : Except Error (Option AudioCodec))
  /-- The wait for the answer ends without one: a timeout, or the end of the session. -/
  | abandon (err : Error)
  /-- The look at the codec. -/
  | select
  | acceptAudio (err : Option Error)
  | notify (err : Option Error)
  /-- The rest of `begin`. -/
  | finish (err : Option Error)
  /-- A frame of the peer comes in; `first` tells whether the peer waits for the answer. -/
  | arrive (frame : Frame) (first : Bool)
  /-- The dispatcher takes a frame, up to the section of the middleware. -/
  | dispatch
  /-- The mutex is handed to the dispatcher that waits for it. -/
  | acquire
  /-- `handleRequest` makes the response of the error. -/
  | respond
  /-- The handler of the method responds. -/
  | handled (response : Response)
  /-- The dispatcher stops. -/
  | stop

/-! ## The steps -/

def errTelephony : Error := ⟨"telephony adapter is required", none⟩

def errInitialized : Error := ⟨"session already initialized", none⟩

/-- The error of the middleware. -/
def errNotInitialized : Error := ⟨"session not initialized", none⟩

/-- `NotImplemented` for an unknown method. -/
def errUnknownMethod (method : String) : Error :=
  ⟨s!"unknown method: {method}", some { Code := 501, Message := s!"unknown method: {method}", Data := .nil }⟩

/-- An error wrapped with a text. -/
def wrap (text : String) (err : Error) : Error := ⟨text ++ ": " ++ err.message, err.wire⟩

/-- `initialize` holds the mutex. -/
def Begin.locked : Begin → Bool
  | .requesting | .waiting | .responded _ | .accepting _ | .notifying _ => true
  | _ => false

/-- The section of the middleware, and what becomes of the request. -/
def State.checkInitialized (s : State) (request : Request) : Dispatcher :=
  if s.initialized then .handling request else .refusing request errNotInitialized

/-- `OnRequest`, up to the section of the middleware. -/
def State.onRequest (s : State) (request : Request) : State :=
  if request.Method ∈ voiceMethods then
    { s with
      dispatcher := if s.begin.locked then .waiting request else s.checkInitialized request
      early := if s.initialized then s.early else s.early ++ [request] }
  else { s with dispatcher := .refusing request (errUnknownMethod request.Method) }

/-- The requests in `first` have been answered. -/
def State.satisfied (s : State) : Bool :=
  s.first.all fun request => s.answers.any fun answer => answer.1 = request

/-- `initialize` ends with an error, or goes on. -/
def State.proceed (s : State) (err : Option Error) (next : State) : State :=
  match err with
  | some err => { s with begin := .returned (some err) }
  | none => next

/-- One step. -/
def step (config : Config) (s : State) : Action → Option State
  | .begin =>
    match s.begin with
    | .absent =>
      some { s with
        begin :=
          if ¬ config.telephony then .returned (some errTelephony)
          else
            match config.audioFormat.FrameBytes with
            | .error err => .returned (some (wrap "invalid configured audio format" ⟨err, none⟩))
            | .ok _ => .entered }
    | _ => none
  | .lock =>
    match s.begin with
    | .entered => some { s with begin := if s.initialized then .returned (some errInitialized) else .requesting }
    | _ => none
  | .send err =>
    match s.begin with
    | .requesting => some (s.proceed err { s with begin := .waiting })
    | _ => none
  | .answer result =>
    match s.begin with
    | .waiting =>
      if s.satisfied then
        match result with
        | .error err => some { s with begin := .returned (some err) }
        | .ok codec => some { s with begin := .responded codec }
      else none
    | _ => none
  | .abandon err =>
    match s.begin with
    | .waiting => some { s with begin := .returned (some err) }
    | _ => none
  | .select =>
    match s.begin with
    | .responded codec =>
      match mediaFormat codec config.audioFormat.PTime with
      | .error err => some { s with begin := .returned (some ⟨err, none⟩) }
      | .ok selected =>
        if selected ≠ config.audioFormat then
          some { s with
            begin := .returned (some ⟨"peer selected unsupported audio format " ++ selected.goString, none⟩) }
        else some { s with begin := .accepting codec }
    | _ => none
  | .acceptAudio err =>
    match s.begin with
    | .accepting codec =>
      some (s.proceed (err.map (wrap "accept negotiated audio"))
        { s with begin := .notifying codec, initialized := true })
    | _ => none
  | .notify err =>
    match s.begin with
    | .notifying _ => some (s.proceed (err.map (wrap "notify session updated")) { s with begin := .initialized })
    | _ => none
  | .finish err =>
    match s.begin with
    | .initialized => some { s with begin := .returned err }
    | _ => none
  | .arrive frame first =>
    some { s with
      queue := s.queue ++ [frame]
      first :=
        match frame with
        | .request request => if first then s.first ++ [request] else s.first
        | .event _ => s.first }
  | .dispatch =>
    match s.dispatcher, s.queue with
    | .idle, .request request :: queue => some ({ s with queue }.onRequest request)
    | .idle, .event _ :: queue => some { s with queue }
    | _, _ => none
  | .acquire =>
    match s.dispatcher with
    | .waiting request => if s.begin.locked then none else some { s with dispatcher := s.checkInitialized request }
    | _ => none
  | .respond =>
    match s.dispatcher with
    | .refusing request err =>
      some { s with dispatcher := .idle, answers := s.answers ++ [(request, .ofError err)] }
    | _ => none
  | .handled response =>
    match s.dispatcher with
    | .handling request =>
      some { s with dispatcher := .idle, answers := s.answers ++ [(request, response)] }
    | _ => none
  | .stop =>
    match s.dispatcher with
    | .idle => some { s with dispatcher := .stopped }
    | _ => none

/-- Before the session begins. -/
def initial : State where
  begin := .absent
  initialized := false
  queue := []
  dispatcher := .idle
  first := []
  answers := []
  early := []

/-- The handler in its session as a machine. -/
def machine (config : Config) : Machine State Action where
  Start s := s = initial
  step := step config

/-! ## What is asked of a run -/

/-- The response to a request before the initialization. -/
def refusal : Response := .ofError errNotInitialized

/-- The response that the dispatcher is about to make, without a look at anything else. -/
def State.pending (s : State) : List (Request × Response) :=
  match s.dispatcher with
  | .refusing request err => [(request, .ofError err)]
  | _ => []

/-- The initialization does not block the dispatcher: it does not wait for a mutex that `initialize` holds, and
the catalog requests dispatched before the initialization are refused, one after the other. -/
structure State.Prompt (s : State) : Prop where
  unblocked : ∀ request, s.dispatcher = .waiting request → s.begin.locked = false
  refused : (s.early.map fun request => (request, refusal)).Sublist (s.answers ++ s.pending)

/-- The wait cycle: `initialize` holds the mutex and waits for the peer, the peer waits for the answer to a
request, and the dispatcher of the request waits for the mutex. -/
structure State.Cycle (s : State) : Prop where
  initialize_waits : s.begin = .waiting
  dispatcher_waits : ∃ request, s.dispatcher = .waiting request ∧ request ∈ s.first ∧
    ∀ answer ∈ s.answers, answer.1 ≠ request

/-- No catalog request is dispatched while `initialize` holds the mutex. -/
def WhenFree (s : State) : Action → Prop
  | .dispatch =>
    match s.dispatcher, s.queue with
    | .idle, .request request :: _ => request.Method ∈ voiceMethods → s.begin.locked = false
    | _, _ => True
  | _ => True

instance (s : State) : DecidablePred (WhenFree s) := fun a => by
  unfold WhenFree
  split <;> (try split) <;> infer_instance

end Rtvbp.Go.VoiceHandler
