import Rtvbp.Go.Pending
import Rtvbp.Go.Supervise
import Rtvbp.Go.WebSocket

/-!
# The session over its WebSocket transport

The supervisor, the pending requests and the WebSocket transport put together with the workers that run
between them: the control reader and the dispatcher of `sdk/go/session_control.go`, the two audio pumps of
`sdk/go/session_media.go` and the worker of the keepalive monitor. The components take their steps in any
order.

The handlers are the environment; whatever they do with the session is a call of `Request`, a message sent
or a stop request. So are the ring buffers of the audio stream: in blocking mode they move at least one
byte, and fail only after they were closed.
-/

namespace Rtvbp.Go.Session

open Rtvbp.Lib Rtvbp.Go.WebSocket Rtvbp.Go.Supervise

/-- What `Decode` reads from a text message: a response, or a request or an event for the dispatcher. -/
inductive Frame (ι ρ φ : Type) where
  | response (id : ι) (response : ρ)
  | dispatched (frame : φ)

/-- The program counter of the control reader. -/
inductive ReaderPc (ε : Type) where
  | off
  /-- In `control.Recv`. -/
  | receiving
  | holding (text : Bytes)
  /-- `readControl` has returned. -/
  | ended (err : Err ε)
  /-- The error is reported, or dropped. -/
  | returned

/-- The message that the reader has taken and not handled. -/
def ReaderPc.held {ε : Type} : ReaderPc ε → List Bytes
  | .holding text => [text]
  | _ => []

/-- The program counter of the dispatcher. -/
inductive DispatcherPc (φ : Type) where
  | off
  | popping
  | handling (frame : φ)
  | returned

/-- The program counter of `pumpAudioInbound`. -/
inductive InboundPc (ε : Type) where
  | off
  | reading
  | buffering (remaining : Bytes)
  /-- Before `handleAudioPumpError`, with its operation. -/
  | failed (operation : String) (err : Err ε)
  | returned

/-- The program counter of `pumpAudioOutbound`. -/
inductive OutboundPc (ε : Type) where
  | off
  | reading
  | writing (data : Bytes)
  | failed (operation : String) (err : Err ε)
  | returned

/-- `dispatchQueue`. -/
structure DispatchQueue (φ : Type) where
  frames : List φ
  closed : Bool

/-- How far the supervisor has come after its commit. -/
inductive ShutdownPc where
  | open
  /-- Past `closing.Store` of `beginShutdown`. -/
  | begun
  | requestsFailed
  | audioClosed
  | tasksCanceled
  | dispatchClosed
  deriving DecidableEq

/-- `audio.Close` has run. -/
def ShutdownPc.isAudioClosed : ShutdownPc → Bool
  | .audioClosed | .tasksCanceled | .dispatchClosed => true
  | _ => false

/-- `cancelTasks` has run. -/
def ShutdownPc.isCanceled : ShutdownPc → Bool
  | .tasksCanceled | .dispatchClosed => true
  | _ => false

/-- The error of a request: the errors that were joined. -/
abbrev Causes (ε : Type) := List (Cause (Err ε))

/-- A session with its transport; `ι` are the ids of requests, `ρ` the responses and `φ` the frames for the
dispatcher. -/
structure State (ι ρ φ ε : Type) where
  sup : Supervise.State (Err ε)
  calls : Pending.State ι ρ (Causes ε)
  transport : Transport ε
  shutdown : ShutdownPc
  reader : ReaderPc ε
  dispatch : DispatchQueue φ
  dispatcher : DispatcherPc φ
  inbound : InboundPc ε
  outbound : OutboundPc ε
  /-- The text messages that the read pump has put into the inbox, each with whether it is a response to a
  request that was pending then. -/
  delivered : List (Bytes × Bool)
  /-- The text messages that the control reader has handled, each with whether it is a response to a
  request that was pending then. -/
  handled : List (Bytes × Bool)

inductive ReaderAction where
  /-- `control.Recv` returns a message, the error of the closed inbox, or that of the context. -/
  | recv
  | recvEnds
  | recvCanceled
  /-- The message is decoded and handled. -/
  | handle
  /-- The worker reports why the reader has stopped. -/
  | report

inductive DispatcherAction where
  | pop
  | popEnds
  /-- The handler returns. -/
  | handled

inductive InboundAction (ε : Type) where
  /-- `ReadFrame` returns. -/
  | read
  | readEnds
  /-- `writeInbound` takes this many bytes, or fails. -/
  | buffer (n : Nat)
  | bufferFails (err : Err ε)
  /-- `handleAudioPumpError`. -/
  | report

inductive OutboundAction (ε : Type) where
  /-- `io.ReadFull` fills a frame, or fails. -/
  | read (data : Bytes)
  | readFails (err : Err ε)
  /-- `WriteFrame`. -/
  | write
  /-- `handleAudioPumpError`. -/
  | report

/-- What can happen next. -/
inductive Action (ι ε : Type) where
  | socket (action : SocketAction ε)
  | monitor (action : MonitorAction ε)
  /-- The worker of the monitor reports its result. -/
  | reportMonitor
  | reader (action : ReaderAction)
  | dispatcher (action : DispatcherAction)
  | inbound (action : InboundAction ε)
  | outbound (action : OutboundAction ε)
  /-- A step of a call of `Request`. -/
  | call (id : ι) (action : Pending.CallAction (Causes ε))
  /-- A response or an event is sent. -/
  | send
  /-- A stop request of a handler or of `Close`. -/
  | stop (request : StopRequest (Err ε))
  /-- `finishAudioBind` starts the pumps. -/
  | bindAudio
  | supervisor (action : Supervise.Action (Err ε))
  /-- The rest of `beginShutdown`, and the two statements after it. -/
  | failPending
  | closeAudio
  | cancelTasks
  | closeDispatch
  /-- `Transport.Close` of the supervisor enters `closeOnce`, or its time is over. -/
  | closeTransport
  | closeTimeout (err : Err ε)

variable {ι ρ φ ε : Type}

/-- A session before anything has happened. -/
def initial : State ι ρ φ ε where
  sup := Supervise.initial
  calls := Pending.initial
  transport := .initial
  shutdown := .open
  reader := .off
  dispatch := ⟨[], false⟩
  dispatcher := .off
  inbound := .off
  outbound := .off
  delivered := []
  handled := []

/-- `stopFromTransport`. -/
def stopFromTransport : Err ε → StopRequest (Err ε)
  | .eof => .empty
  | err => .failure (.wrapped "receive control: " err)

/-- What the worker of the monitor reports. -/
def stopFromMonitor : Option (Err ε) → StopRequest (Err ε)
  | none => .failure (.message "rtvbp: keepalive monitor stopped without an error")
  | some err => .failure (.given err)

/-- The error with which `beginShutdown` fails the pending requests. -/
def pendingError (terminal : StopRequest (Err ε)) : Causes ε :=
  if terminal.cause.isEmpty then [.given .sessionClosed] else terminal.cause

namespace State

variable (s : State ι ρ φ ε)

/-- `requestStop`. -/
def requestStop (request : StopRequest (Err ε)) : State ι ρ φ ε :=
  { s with sup := s.sup.requestStop request, calls := { s.calls with closing := true } }

/-- `handleAudioPumpError`. -/
def handleAudioPumpError (operation : String) (err : Err ε) : State ι ρ φ ε :=
  if s.calls.closing then s
  else
    match err with
    | .eof | .closedPipe => s
    | err => s.requestStop (.failure (.wrapped ("audio media " ++ operation ++ ": ") err))

/-- The workers that `supervise` starts once there is a transport. -/
def startWorkers (config : Config) : State ι ρ φ ε :=
  { s with
    calls := { s.calls with connected := true }
    reader := .receiving
    dispatcher := .popping
    transport := { s.transport with
      monitor := if config.keepalive.enabled then .acquiring else .off } }

/-- Every worker has returned. -/
def workersReturned : Bool :=
  s.reader matches .returned ∧ s.dispatcher matches .returned ∧ s.sup.beginResult.isSome ∧
    (s.transport.monitor matches .off | .returned) ∧ (s.inbound matches .off | .returned) ∧
    (s.outbound matches .off | .returned)

/-- The text is a response to a pending request. -/
def answers (decode : Bytes → Option (Frame ι ρ φ)) (text : Bytes) : Bool :=
  match decode text with
  | some (.response id _) => (s.calls.calls id).pending
  | _ => false

/-- `readPump` pushes a text message; a closed inbox drops it. -/
def deliver (decode : Bytes → Option (Frame ι ρ φ)) (text : Bytes) : List (Bytes × Bool) :=
  if s.transport.control.closed.isSome then s.delivered
  else s.delivered ++ [(text, s.answers decode text)]

variable [DecidableEq ι]

/-- One turn of the loop in `readControl`, from `Decode` on. -/
def handleText (decode : Bytes → Option (Frame ι ρ φ)) (text : Bytes) : State ι ρ φ ε :=
  let handled := s.handled ++ [(text, s.answers decode text)]
  match decode text with
  | none => { s with reader := .receiving, handled }
  | some (.response id response) =>
    { s with
      calls := s.calls.setCall id ((s.calls.calls id).complete (.response response))
      reader := .receiving
      handled }
  | some (.dispatched frame) =>
    if s.dispatch.closed then { s with reader := .ended .eof, handled }
    else
      { s with
        dispatch := { s.dispatch with frames := s.dispatch.frames ++ [frame] }
        reader := .receiving
        handled }

/-- One step of the control reader and its worker. -/
def readerStep (decode : Bytes → Option (Frame ι ρ φ)) : ReaderAction → Option (State ι ρ φ ε)
  | .recv =>
    match s.reader, s.transport.control.items with
    | .receiving, text :: rest =>
      some { s with
        reader := .holding text
        transport := { s.transport with control := { s.transport.control with items := rest } } }
    | _, _ => none
  | .recvEnds =>
    match s.reader, s.transport.control with
    | .receiving, ⟨[], some err⟩ => some { s with reader := .ended err }
    | _, _ => none
  | .recvCanceled =>
    if s.reader matches .receiving ∧ s.shutdown.isCanceled then some { s with reader := .ended .canceled }
    else none
  | .handle =>
    match s.reader with
    | .holding text => some (s.handleText decode text)
    | _ => none
  | .report =>
    match s.reader with
    | .ended err =>
      if s.shutdown.isCanceled then some { s with reader := .returned }
      else some { s.requestStop (stopFromTransport err) with reader := .returned }
    | _ => none

omit [DecidableEq ι] in
/-- One step of the dispatcher. -/
def dispatcherStep : DispatcherAction → Option (State ι ρ φ ε)
  | .pop =>
    match s.dispatcher, s.dispatch with
    | .popping, ⟨frame :: rest, false⟩ =>
      some { s with dispatcher := .handling frame, dispatch := ⟨rest, false⟩ }
    | _, _ => none
  | .popEnds =>
    if s.dispatcher matches .popping ∧ (s.shutdown.isCanceled ∨ s.dispatch.closed) then
      some { s with dispatcher := .returned }
    else none
  | .handled => if s.dispatcher matches .handling _ then some { s with dispatcher := .popping } else none

/-- The inbound pump, with this much of a frame left to buffer. -/
def bufferInbound (remaining : Bytes) : InboundPc ε :=
  if remaining.isEmpty then .reading else .buffering remaining

omit [DecidableEq ι] in
/-- One step of `pumpAudioInbound`. -/
def inboundStep : InboundAction ε → Option (State ι ρ φ ε)
  | .read =>
    match s.inbound, s.transport.media.items with
    | .reading, data :: rest =>
      some { s with
        inbound := bufferInbound data
        transport := { s.transport with media := { s.transport.media with items := rest } } }
    | _, _ => none
  | .readEnds =>
    match s.inbound, s.transport.media with
    | .reading, ⟨[], some err⟩ => some { s with inbound := .failed "read" err }
    | _, _ => none
  | .buffer n =>
    match s.inbound with
    | .buffering remaining =>
      if 0 < n ∧ n ≤ remaining.length then some { s with inbound := bufferInbound (remaining.drop n) }
      else none
    | _ => none
  | .bufferFails err =>
    if s.inbound matches .buffering _ ∧ s.shutdown.isAudioClosed then
      some { s with inbound := .failed "buffer inbound" err }
    else none
  | .report =>
    match s.inbound with
    | .failed operation err => some { s.handleAudioPumpError operation err with inbound := .returned }
    | _ => none

omit [DecidableEq ι] in
/-- One step of `pumpAudioOutbound`. -/
def outboundStep : OutboundAction ε → Option (State ι ρ φ ε)
  | .read data => if s.outbound matches .reading then some { s with outbound := .writing data } else none
  | .readFails err =>
    if s.outbound matches .reading ∧ s.shutdown.isAudioClosed then
      some { s with outbound := .failed "buffer outbound" err }
    else none
  | .write =>
    if s.outbound matches .writing _ then
      if s.transport.media.closed.isSome then some { s with outbound := .failed "write" .closedPipe }
      else
        match s.transport.enqueue .binary with
        | some transport => some { s with transport, outbound := .reading }
        | none => some { s with outbound := .failed "write" .closedPipe }
    else none
  | .report =>
    match s.outbound with
    | .failed operation err => some { s.handleAudioPumpError operation err with outbound := .returned }
    | _ => none

/-- One step of a call of `Request`. What it sends goes to the outgoing queue. -/
def callStep (id : ι) (action : Pending.CallAction (Causes ε)) : Option (State ι ρ φ ε) :=
  (Pending.step [.given .sessionClosed] s.calls (.call id action)).bind fun calls =>
    match action with
    | .sendReturns none =>
      (s.transport.enqueue .text).map fun transport => { s with calls, transport }
    | _ => some { s with calls }

/-- One step of the supervisor, with what it does to the other components. -/
def supervisorStep [DecidableEq ε] (config : Config) (a : Supervise.Action (Err ε)) :
    Option (State ι ρ φ ε) :=
  let step := Supervise.step config (· == ·) .canceled s.sup a
  match a with
  -- every caller of `requestStop` has a step of its own
  | .requestStop _ => none
  | .factoryReturns result =>
    if result.transport → s.transport.opened then step.map fun sup => { s with sup } else none
  | .created =>
    step.map fun sup =>
      if sup.transport then { s with sup }.startWorkers config else { s with sup }
  | .commit =>
    step.map fun sup =>
      { s with sup, calls := { s.calls with closing := true, shutdown := true }, shutdown := .begun }
  | .mediaCloses err =>
    if s.shutdown = .dispatchClosed ∧ err = none then
      step.map fun sup =>
        if s.inbound matches .off then { s with sup }
        else { s with sup, transport := { s.transport with media := s.transport.media.close .eof } }
    else none
  | .transportCloses err =>
    if s.transport.Closes err then step.map fun sup => { s with sup } else none
  | .workersDone => if s.workersReturned then step.map fun sup => { s with sup } else none
  | _ => step.map fun sup => { s with sup }

end State

variable [DecidableEq ι] [DecidableEq ε]

/-- One step of the session with its transport; `decode` is `Decode` of the envelope. -/
def step (config : Config) (decode : Bytes → Option (Frame ι ρ φ)) (s : State ι ρ φ ε) :
    Action ι ε → Option (State ι ρ φ ε)
  | .socket action =>
    (s.transport.step action).map fun transport =>
      match action with
      | .text text => { s with transport, delivered := s.deliver decode text }
      | _ => { s with transport }
  | .monitor action =>
    (s.transport.monitorStep config.keepalive.maxMisses s.shutdown.isCanceled action).map fun transport =>
      { s with transport }
  | .reportMonitor =>
    match s.transport.monitor with
    | .ended result =>
      let t := { s with transport := { s.transport with monitor := .returned } }
      some (if s.shutdown.isCanceled then t else t.requestStop (stopFromMonitor result))
    | _ => none
  | .reader action => s.readerStep decode action
  | .dispatcher action => s.dispatcherStep action
  | .inbound action => s.inboundStep action
  | .outbound action => s.outboundStep action
  | .call id action => s.callStep id action
  | .send => (s.transport.enqueue .text).map fun transport => { s with transport }
  | .stop request => some (s.requestStop request)
  | .bindAudio =>
    if s.sup.transport ∧ s.calls.closing = false ∧ s.inbound matches .off then
      some { s with inbound := .reading, outbound := .reading }
    else none
  | .supervisor action => s.supervisorStep config action
  | .failPending =>
    if s.shutdown = .begun then
      (Pending.step [.given .sessionClosed] s.calls (.failPending (pendingError s.sup.terminal))).map
        fun calls => { s with calls, shutdown := .requestsFailed }
    else none
  | .closeAudio => if s.shutdown = .requestsFailed then some { s with shutdown := .audioClosed } else none
  | .cancelTasks => if s.shutdown = .audioClosed then some { s with shutdown := .tasksCanceled } else none
  | .closeDispatch =>
    if s.shutdown = .tasksCanceled then some { s with shutdown := .dispatchClosed, dispatch := ⟨[], true⟩ }
    else none
  | .closeTransport =>
    if s.sup.pc = .closingTransport ∧ s.transport.closeOnce = false ∧ s.transport.finishPc ≠ .done then
      some { s with transport := s.transport.closeCommand }
    else none
  | .closeTimeout err =>
    if s.sup.transport ∧ s.transport.closeOnce then
      (Supervise.step config (· == ·) .canceled s.sup (.transportCloses (some err))).map fun sup =>
        { s with sup, transport := s.transport.finish err }
    else none

/-- The session as a machine. -/
def machine (config : Config) (decode : Bytes → Option (Frame ι ρ φ)) :
    Machine (State ι ρ φ ε) (Action ι ε) where
  Start s := s = initial
  step := step config decode

/-! ## What is asked of a run -/

/-- The socket ends in an orderly way: the peer closes it normally or goes away, or it is closed here, and
no message fails to be written but for that. -/
def OrderlySocket : Action ι ε → Prop
  | .socket (.readFails err) | .socket (.writes (some err)) => normalizeSocketError err = .eof
  | _ => True

/-- The monitor does not give up on the peer. -/
def Alive (config : Config) (s : State ι ρ φ ε) : Action ι ε → Prop
  | .monitor .timeout => (s.transport.misses + 1 : Nat) < config.keepalive.maxMisses
  | _ => True

/-- Neither a handler nor `Close` nor the parent context stops the session. -/
def NoLocalStop : Action ι ε → Prop
  | .stop _ | .supervisor (.parentEnds _) => False
  | _ => True

/-- `OnBegin` does not fail. -/
def BeginSucceeds (s : State ι ρ φ ε) : Action ι ε → Prop
  | .supervisor .beginReceived => s.sup.beginResult = some none
  | _ => True

/-- Nothing but the socket ends the session with an error: no stop request has one, and no step of the
supervisor fails. -/
def NoFailure (config : Config) (s : State ι ρ φ ε) : Action ι ε → Prop
  | .stop request => request = .empty
  | .supervisor action => ¬ Fails config (· == ·) s.sup action
  | .closeTimeout _ => False
  | _ => True

/-- The socket ends in an orderly way and nothing else fails. -/
def OrderlyClose (config : Config) (s : State ι ρ φ ε) (a : Action ι ε) : Prop :=
  OrderlySocket a ∧ Alive config s a ∧ NoFailure config s a

/-- The monitor reports to a supervisor that is past its commit. -/
def MonitorLate (s : State ι ρ φ ε) : Action ι ε → Prop
  | .reportMonitor => s.sup.stopCommit = true
  | _ => True

/-- A session that has finished is closed, without an error. -/
def ClosedCleanly (s : State ι ρ φ ε) : Prop :=
  s.sup.pc = .finished → s.sup.state = .closed ∧ s.sup.done = [[]]

instance : DecidablePred (OrderlySocket : Action ι ε → Prop) := fun a => by
  unfold OrderlySocket
  split <;> infer_instance

instance (config : Config) (s : State ι ρ φ ε) : DecidablePred (Alive config s) := fun a => by
  unfold Alive
  split <;> infer_instance

instance : DecidablePred (NoLocalStop : Action ι ε → Prop) := fun a => by
  unfold NoLocalStop
  split <;> infer_instance

instance (s : State ι ρ φ ε) : DecidablePred (BeginSucceeds s) := fun a => by
  unfold BeginSucceeds
  split <;> infer_instance

instance (s : State ι ρ φ ε) : DecidablePred (MonitorLate s) := fun a => by
  unfold MonitorLate
  split <;> infer_instance

/-- Every response that the read pump delivered has reached its request before the pending requests are
failed. -/
structure Drained (decode : Bytes → Option (Frame ι ρ φ)) (s : State ι ρ φ ε) : Prop where
  /-- The reader has handled every message of the read pump before the shutdown of the requests begins. -/
  handled : s.calls.shutdown = true → s.handled.map Prod.fst = s.delivered.map Prod.fst
  /-- A response that finds its request pending completes it. -/
  completed : ∀ text id response, (text, true) ∈ s.handled →
    decode text = some (.response id response) → (s.calls.calls id).completions = [.response response]
  /-- The shutdown does not fail a request that was pending when a response to it was delivered. -/
  kept : ∀ text id response cause, (text, true) ∈ s.delivered →
    decode text = some (.response id response) → .shutdown cause ∉ (s.calls.calls id).completions
  /-- The shutdown does not fail any request before the control reader has seen the end of its inbox,
  whatever has become of the media. -/
  readerFirst : ∀ id cause, .shutdown cause ∈ (s.calls.calls id).completions →
    s.reader = .returned ∧ s.transport.control = ⟨[], some .eof⟩

end Rtvbp.Go.Session
