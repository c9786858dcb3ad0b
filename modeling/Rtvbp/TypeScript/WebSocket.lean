import Rtvbp.TypeScript.AsyncQueue
import Rtvbp.TypeScript.Session.Supervise

/-!
# A session over a WebSocket transport

`WebSocketTransport` of `sdk/typescript/src/websocket.ts` under the supervisor of a session, with the
workers that report the end of the connection: `#readControl`, `monitorKeepalive`, the reading loop of
`AudioStream` and `#handleRequest`. A rejected promise travels up its chain of `await`s one microtask
turn at a time, so that which worker reports first is a matter of counting: a `Notice` is a rejection
under way, with the number of turns that pass before the turn in which it is reported.

The socket, the writes, the timers, the handler and the callers are the environment. Two fields of the
state are history only: why the connection ended, and whether a stop was requested locally.
-/

namespace Rtvbp.TypeScript.WebSocket

open Rtvbp.Lib

/-! ## Errors and reports -/

/-- A thrown value: a `SessionError` with its code, or anything else with its text. -/
inductive Thrown where
  | session (code : String) (message : String)
  | other (text : String)
  deriving DecidableEq

/-- `asSessionError`. -/
def asSessionError (error : Thrown) (code : String) : Thrown :=
  match error with
  | .session code message => .session code message
  | .other text => .session code text

/-- The error is a `SessionError` with the code `closed`. -/
def Thrown.isClosed : Thrown → Bool
  | .session code _ => code == "closed"
  | .other _ => false

/-- The error of a closed `AsyncQueue`. -/
def queueClosed : Thrown := .session "closed" "queue is closed"

/-- The error of a write to a closed transport. -/
def transportClosed : Thrown := .session "closed" "WebSocket transport is closed"

/-- Who reports an error, and how. -/
inductive Report where
  /-- The `catch` block of `#runWorker`, with the code of the worker. -/
  | worker (code : String) (error : Thrown)
  /-- The `onError` callback of the audio stream. -/
  | audio (error : Thrown)
  /-- The `catch` block of `#handleRequest`, when the error response cannot be sent. -/
  | response (error : Thrown)

/-- What a report does to the session. -/
def Report.deliver (life : Lifecycle Thrown) : Report → Lifecycle Thrown
  | .worker code error =>
    if life.aborted then life
    else if (asSessionError error code).isClosed then life.requestStop none false
    else life.requestStop (some (asSessionError error code)) true
  | .audio error =>
    if (asSessionError error "media_read").isClosed then life.requestStop none false
    else life.requestStop (some (asSessionError error "media_read")) true
  | .response error => if life.aborted then life else life.requestStop (some error) true

/-- The report asks for a failure. -/
def Report.fails : Report → Bool
  | .worker code error => !(asSessionError error code).isClosed
  | .audio error => !(asSessionError error "media_read").isClosed
  | .response _ => true

/-- A rejection under way, with the turns that pass before it is reported. -/
structure Notice where
  turns : Nat
  report : Report

/-! ## Inbound queues -/

/-- The place of the one reader of an inbound queue. -/
inductive ReaderPc where
  | off
  | busy
  | waiting
  | over
  deriving DecidableEq

/-- An inbound queue with its reader. -/
structure Inbox (μ : Type) where
  queue : AsyncQueue μ
  reader : ReaderPc

namespace Inbox

variable {μ : Type} (b : Inbox μ)

/-- `tryPush` of a message; `none` if it is not admitted. -/
def arrive (m : μ) : Option (Inbox μ) :=
  match b.queue.tryPush m with
  | none => none
  | some (q, .handed) => some ⟨q, .busy⟩
  | some (q, _) => some { b with queue := q }

/-- `close` rejects the waiting reader. -/
def finish : Inbox μ where
  queue := b.queue.close
  reader := if b.reader = .waiting then .over else b.reader

/-- The signal of the reader is aborted. -/
def abort : Inbox μ :=
  if b.reader = .waiting then ⟨b.queue.resolveReader, .over⟩ else b

/-- The reader calls `shift`; with whether it is rejected at once. -/
def shift : Inbox μ × Bool :=
  match b.queue.shift with
  | none => ({ b with reader := .over }, true)
  | some (q, .waiting) => (⟨q, .waiting⟩, false)
  | some (q, .value _ _) => (⟨q, .busy⟩, false)

end Inbox

/-! ## The machine -/

/-- The place of the keepalive worker. -/
inductive Keepalive where
  | off
  | sleeping
  | pinging
  /-- Waiting for the pong. -/
  | awaiting
  | over
  deriving DecidableEq

/-- Why the connection ended. -/
inductive End where
  /-- A close that was reported without an error. -/
  | clean
  /-- An inbound overflow, a rejected write, or a close with an error. -/
  | failure
  /-- The transport was closed on this side, or the session was already stopping. -/
  | stopped
  deriving DecidableEq

/-- The state of a session over a WebSocket transport. -/
structure State (μ : Type) where
  session : Supervise.State Thrown
  controls : Inbox μ
  /-- The binary queue; its reader is the audio stream. -/
  binary : Inbox μ
  keepalive : Keepalive
  /-- `#closed`. -/
  closed : Bool
  /-- The listeners on the socket are attached. -/
  attached : Bool
  notices : List Notice
  /-- History: why the connection ended. -/
  ended : Option End
  /-- History: a stop was requested locally, before any other. -/
  stoppedLocally : Bool

/-- What can happen next. -/
inductive Action (μ : Type) where
  /-- A step of the supervisor; its `stop` is a stop request by anybody but the workers. -/
  | session (action : Supervise.Action Thrown)
  /-- One turn of the microtask queue. -/
  | turn
  /-- A text or binary message arrives. -/
  | text (m : μ)
  | binary (m : μ)
  /-- The socket reports its close. -/
  | closes (error : Option Thrown)
  /-- `close` of the transport is called by its owner, and later finishes. -/
  | closeTransport
  | socketCloses
  /-- A write is rejected; `responding` if it is the error response of `#handleRequest`. -/
  | sendTextRejects (error : Thrown) (responding : Bool)
  | sendBinaryRejects (error : Thrown)
  /-- `#handleRequest` finds the transport closed when it sends an error response. -/
  | responseRefused
  /-- The readers call `shift`, the audio stream is bound, and a frame has the wrong length. -/
  | readControl
  | bindAudio
  | readFrame
  | frameRejected
  /-- The steps of the keepalive worker. -/
  | keepaliveWakes
  | pingFulfills
  | pingRejects (error : Thrown)
  | pongResult
  | keepaliveTimesOut

namespace State

variable {μ : Type} (s : State μ)

/-- The abort signal of the session. -/
def aborted : Bool := s.session.life.aborted

/-- Record why the connection ended, once. -/
def endBy (reason : End) : State μ :=
  if s.ended.isSome then s else { s with ended := some (if s.aborted then .stopped else reason) }

/-- A rejection starts its way to the session. -/
def notify (turns : Nat) (report : Report) : State μ :=
  { s with notices := s.notices ++ [⟨turns, report⟩] }

/-- The rejections that closing the queues sends on their way. -/
def closureNotices : List Notice :=
  (if s.controls.reader = .waiting then [⟨5, .worker "control_read" queueClosed⟩] else []) ++
  (if s.binary.reader = .waiting then [⟨4, .audio queueClosed⟩] else []) ++
  (if s.keepalive = .awaiting then [⟨5, .worker "keepalive" queueClosed⟩] else [])

/-- `#finishQueues`. -/
def finishQueues : State μ :=
  if s.attached then
    { s with
      closed := true
      attached := false
      controls := s.controls.finish
      binary := s.binary.finish
      keepalive := if s.keepalive = .awaiting then .over else s.keepalive
      notices := s.notices ++ s.closureNotices }
  else s

/-- `#finish`: its error is not used. -/
def finish (_error : Thrown) : State μ :=
  if s.closed then s else (s.endBy .failure).finishQueues

/-- The `onMessage` listener, with the queue that admits the message. -/
def receive (admitted : Option (State μ)) : State μ :=
  match admitted with
  | some t => t
  | none => s.finish (.session "inbound_overflow" "WebSocket inbound queue is full")

/-- One turn: the notices that are due are delivered, in their order. -/
def turn : State μ :=
  let due := s.notices.filter (·.turns = 0)
  { s with
    session.life := due.foldl (fun life n => n.report.deliver life) s.session.life
    notices := (s.notices.filter (·.turns ≠ 0)).map fun n => { n with turns := n.turns - 1 } }

/-- The control reader leaves when the session is aborted. -/
def leaveAborted : State μ := if s.aborted then { s with controls := s.controls.abort } else s

/-- The workers that the supervisor starts. -/
def startWorkers (config : Supervise.Config) : State μ :=
  let monitored := match s.session.transport with
    | some t => t.supportsKeepalive && config.keepalive && t.monitorKeepalive
    | none => false
  { s with
    controls := { s.controls with reader := .busy }
    keepalive := if monitored then .sleeping else .off }

/-- The supervisor has closed the audio stream, or closes the transport. -/
def tearDown : State μ :=
  match s.session.pc with
  | .closingAudio => { s with binary := s.binary.abort }
  | .closingTransport => { s.endBy .stopped with closed := true }
  | _ => s

end State

/-- What a step of the supervisor does to the transport and the workers. -/
def State.follow {μ : Type} (config : Supervise.Config) (s : State μ)
    (a : Supervise.Action Thrown) (session : Supervise.State Thrown) : State μ :=
  let t := { s with
    session := session
    stoppedLocally := s.stoppedLocally || (!s.aborted && s.session.stopsLocally a) }
  match a with
  | .start _ => (t.startWorkers config).leaveAborted.tearDown
  | .transportCloses none => (t.endBy .stopped).finishQueues
  | _ => t.leaveAborted.tearDown

variable {μ : Type} (config : Supervise.Config)

/-- `SessionError("closed", "session stopped while starting")`. -/
def stoppedWhileStarting : Thrown := .session "closed" "session stopped while starting"

/-- The error about a transport that declares keepalive without a monitor. -/
def missingMonitor : Thrown :=
  .session "configuration" "transport declares keepalive without a monitor"

/-- One step of the session over its transport. -/
def step (s : State μ) : Action μ → Option (State μ)
  | .session a =>
    (Supervise.step config stoppedWhileStarting missingMonitor s.session a).map (s.follow config a)
  | .turn => if s.notices ≠ [] then some s.turn.leaveAborted else none
  | .text m =>
    if s.attached then
      some (s.receive ((s.controls.arrive m).map fun b => { s with controls := b }))
    else none
  | .binary m =>
    if s.attached then some (s.receive ((s.binary.arrive m).map fun b => { s with binary := b }))
    else none
  | .closes error =>
    if s.attached then some (s.endBy (if error.isSome then .failure else .clean)).finishQueues
    else none
  | .closeTransport =>
    some { s.endBy .stopped with
      closed := true
      stoppedLocally := s.stoppedLocally || (!s.aborted && s.ended.isNone) }
  | .socketCloses => if s.closed then some s.finishQueues else none
  | .sendTextRejects error responding =>
    let t := s.finish error
    some (if responding then t.notify 6 (.response error) else t)
  | .sendBinaryRejects error => some (s.finish error)
  | .responseRefused => if s.closed then some (s.notify 6 (.response transportClosed)) else none
  | .readControl =>
    if s.controls.reader = .busy ∧ ¬ s.aborted then
      let t := { s with controls := s.controls.shift.1 }
      some (if s.controls.shift.2 then t.notify 4 (.worker "control_read" queueClosed) else t)
    else none
  | .bindAudio =>
    if s.binary.reader = .off ∧ ¬ s.aborted then some { s with binary := { s.binary with reader := .busy } }
    else none
  | .readFrame =>
    if s.binary.reader = .busy then
      let t := { s with binary := s.binary.shift.1 }
      some (if s.binary.shift.2 then t.notify 3 (.audio queueClosed) else t)
    else none
  | .frameRejected =>
    if s.binary.reader = .busy then
      some ({ s with binary := { s.binary with reader := .over } }.notify 1
        (.audio (.session "media_frame" "received media frame has the wrong byte length")))
    else none
  | .keepaliveWakes =>
    if s.keepalive = .sleeping ∧ ¬ s.aborted then
      some (if s.closed then
        { s with keepalive := .over }.notify 2 (.worker "keepalive" transportClosed)
      else { s with keepalive := .pinging })
    else none
  | .pingFulfills =>
    if s.keepalive = .pinging then some { s with keepalive := .awaiting } else none
  | .pingRejects error =>
    if s.keepalive = .pinging then
      some ({ s.finish error with keepalive := .over }.notify 2 (.worker "keepalive" error))
    else none
  | .pongResult => if s.keepalive = .awaiting then some { s with keepalive := .sleeping } else none
  | .keepaliveTimesOut =>
    if s.keepalive = .awaiting then
      some ({ s with keepalive := .over }.notify 1
        (.worker "keepalive" (.session "keepalive_timeout" "WebSocket keepalive timed out")))
    else none

/-- A new session on an open transport. -/
def initial (capacity : Nat) (h : 0 < capacity) : State μ where
  session := Supervise.initial
  controls := ⟨.new capacity h, .off⟩
  binary := ⟨.new capacity h, .off⟩
  keepalive := .off
  closed := false
  attached := true
  notices := []
  ended := none
  stoppedLocally := false

/-- The session over its transport as a machine. -/
def machine (capacity : Nat) (h : 0 < capacity) : Machine (State μ) (Action μ) where
  Start s := s = initial capacity h
  step := step config

/-! ## What is asked of a run -/

/-- The terminal state fits the end of the connection: a transport failure before any stop is `failed`,
and only a clean close or a local stop is `closed`. -/
def Classified (s : State μ) : Prop :=
  (s.ended = some .failure → s.session.life.state = .failed) ∧
  (s.session.life.state = .closed → s.ended = some .clean ∨ s.stoppedLocally = true)

/-- The step drops a transport failure: an inbound overflow, a rejected text or binary write or a close
with an error ends the connection before a stop; or a rejected ping does, with an error that says
`closed`; or a local stop overtakes the report of a rejected ping. -/
def DropsFailure (s : State μ) (a : Action μ) : Prop :=
  s.aborted = false ∧
    match a with
    | .text m => s.ended = none ∧ s.controls.arrive m = none
    | .binary m => s.ended = none ∧ s.binary.arrive m = none
    | .closes error => s.ended = none ∧ error.isSome
    | .sendTextRejects _ _ | .sendBinaryRejects _ => s.ended = none
    | .pingRejects error => s.ended = none ∧ error.isClosed
    | .session a => s.ended = some .failure ∧ s.session.stopsLocally a
    | _ => False

instance (s : State μ) : (a : Action μ) → Decidable (DropsFailure s a)
  | .text _ | .binary _ | .closes _ | .pingRejects _ | .session _ =>
    inferInstanceAs (Decidable (_ ∧ _ ∧ _))
  | .sendTextRejects _ _ | .sendBinaryRejects _ => inferInstanceAs (Decidable (_ ∧ _ = _))
  | .turn | .closeTransport | .socketCloses | .responseRefused | .readControl | .bindAudio
  | .readFrame | .frameRejected | .keepaliveWakes | .pingFulfills | .pongResult
  | .keepaliveTimesOut => inferInstanceAs (Decidable (_ ∧ False))

end Rtvbp.TypeScript.WebSocket
