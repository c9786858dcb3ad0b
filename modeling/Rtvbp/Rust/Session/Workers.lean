import Rtvbp.Rust.Session.Pending
import Rtvbp.Rust.WebSocket

/-!
# The Rust session over its WebSocket transport

`run`, the pending requests and the WebSocket transport put together with the tasks that `run` spawns in
`sdk/rust/src/session/mod.rs`: `read_control`, `dispatch_control`, the keepalive monitor and the two audio
pumps. The components take their steps in any order.

The handlers are the environment; whatever they do with the session is a request, a message sent or a stop
request. So are the buffers of the audio stream, which anybody can close.
-/

namespace Rtvbp.Rust.Workers

open Rtvbp.Lib Rtvbp.Rust.WebSocket
open Rtvbp.Envelope.Rust (ControlFrame)

/-- The program counter of `read_control`. -/
inductive ReaderPc where
  | off
  /-- In `control.recv`. -/
  | receiving
  | holding (data : Bytes)
  /-- In `resolve_pending`, between `remove` and `send`. -/
  | resolving
  | ended (result : Except Run.Error Unit)

/-- The message that the reader has taken and not handled. -/
def ReaderPc.held : ReaderPc → List Bytes
  | .holding data => [data]
  | _ => []

/-- The program counter of `dispatch_control`. -/
inductive DispatcherPc where
  | off
  | receiving
  | handling (frame : ControlFrame)
  | returned

/-- The program counter of the inbound audio pump. -/
inductive InboundPc where
  | off
  | reading
  | pushing (data : Bytes)
  | returned

/-- The program counter of the outbound audio pump. -/
inductive OutboundPc where
  | off
  | reading
  | writing (data : Bytes)
  | returned

/-- A session with its transport; `ι` are the calls of `request_value`. -/
structure State (ι : Type) where
  run : Run.State
  calls : Pending.State ι
  /-- `fail_pending` has run. -/
  swept : Bool
  transport : Transport
  reader : ReaderPc
  dispatch : List ControlFrame
  dispatcher : DispatcherPc
  inbound : InboundPc
  outbound : OutboundPc
  /-- The text messages that the read pump has put into the inbox, each with the call that it answers. -/
  delivered : List (Bytes × Option ι)
  /-- The text messages that `read_control` has handled, each with the call that it completes. -/
  handled : List (Bytes × Option ι)

inductive ReaderAction where
  /-- `control.recv` returns a message, or the error of the closed inbox. -/
  | recv
  | recvEnds
  /-- The message is decoded and handled, up to the `send` of `resolve_pending`. -/
  | handle
  | deliver

inductive DispatcherAction where
  | recv
  /-- The handler returns. -/
  | handled

inductive InboundAction where
  /-- `read_frame` returns. -/
  | read
  | readEnds
  /-- `push_inbound_frame` returns. -/
  | pushed
  | pushFails

inductive OutboundAction where
  /-- `read_outbound_frame` returns. -/
  | read (data : Bytes)
  | readEnds
  /-- `write_frame`. -/
  | write

/-- What can happen next. -/
inductive Action (ι : Type) where
  | socket (action : SocketAction)
  | monitor (action : MonitorAction)
  | reader (action : ReaderAction)
  | dispatcher (action : DispatcherAction)
  | inbound (action : InboundAction)
  | outbound (action : OutboundAction)
  /-- A step of a request. -/
  | call (i : ι) (action : Pending.CallAction)
  /-- A response or an event is sent. -/
  | send
  /-- `finish_audio_bind` spawns the pumps. -/
  | bindAudio
  /-- A step of `run`, or a stop request of a handler or of `close`. -/
  | run (action : Run.Action)
  | failPending
  /-- `transport.close` of the shutdown. -/
  | closeTransport

variable {ι : Type}

/-- A session before anything has happened. -/
def initial : State ι where
  run := Run.initial
  calls :=
    { shared := { closing := false, pending := [], channel := fun _ => .empty, taken := none }
      locals := fun _ => .idle }
  swept := false
  transport := .initial
  reader := .off
  dispatch := []
  dispatcher := .off
  inbound := .off
  outbound := .off
  delivered := []
  handled := []

/-- What joining a task that has returned gives. -/
def joined : Except Run.Error Unit → Run.Joined
  | .ok () => .ok
  | .error error => .error error

namespace State

variable (s : State ι)

/-- `request_failure` of a worker. -/
def requestFailure (message : String) : State ι :=
  { s with run := (s.run.pushFailure message).pending }

/-- A pump that ends with an error reports it, unless the channel is closed. -/
def reportPump (operation : String) : Run.Error → State ι
  | .closed => s
  | error => s.requestFailure (operation ++ error.display)

/-- The tasks that `run` spawns once there is a transport. -/
def spawn (keepalive : Run.KeepalivePolicy) : State ι :=
  { s with
    reader := .receiving
    dispatcher := .receiving
    transport := { s.transport with monitor := if keepalive.enabled then .sleeping else .off } }

/-- `run` has taken a step; its flag `closing` is that of the requests. -/
def setRun (run : Run.State) : State ι :=
  { s with
    run
    calls := { s.calls with shared := { s.calls.shared with closing := run.closing } } }

/-- The call that a message answers: it is a response, and the map has an entry for it. -/
def awaited (decode : Bytes → Option ControlFrame) (data : Bytes) : Option ι :=
  match decode data with
  | some frame =>
    if frame.kind = .response then s.calls.shared.pending.lookup frame.correlationId else none
  | none => none

/-- The read pump has received a text message; a closed inbox drops it. -/
def deliver (decode : Bytes → Option ControlFrame) (data : Bytes) : List (Bytes × Option ι) :=
  if s.transport.control.closed.isSome then s.delivered
  else s.delivered ++ [(data, s.awaited decode data)]

/-- One turn of the loop in `read_control`, from `decode` on. -/
def handleText (decode : Bytes → Option ControlFrame) (data : Bytes) : State ι :=
  let s := { s with handled := s.handled ++ [(data, s.awaited decode data)] }
  match decode data with
  | none => { s with reader := .receiving }
  | some frame =>
    if frame.kind = .response then
      match s.calls.shared.pending.lookup frame.correlationId with
      | some i =>
        { s with
          calls := { s.calls with
            shared := { s.calls.shared.remove frame.correlationId with taken := some (i, frame) } }
          reader := .resolving }
      | none => { s with reader := .receiving }
    else
      match s.dispatcher with
      | .returned => { s with reader := .ended (.ok ()) }
      | _ => { s with dispatch := s.dispatch ++ [frame], reader := .receiving }

/-- One step of `read_control`. -/
def readerStep [DecidableEq ι] (decode : Bytes → Option ControlFrame) : ReaderAction → Option (State ι)
  | .recv =>
    match s.reader, s.transport.control.items with
    | .receiving, data :: rest =>
      some { s with
        reader := .holding data
        transport := { s.transport with control := { s.transport.control with items := rest } } }
    | _, _ => none
  | .recvEnds =>
    match s.reader, s.transport.control with
    | .receiving, ⟨[], some terminal⟩ => some { s with reader := .ended (.error terminal.error) }
    | _, _ => none
  | .handle =>
    match s.reader with
    | .holding data => some (s.handleText decode data)
    | _ => none
  | .deliver =>
    match s.reader with
    | .resolving =>
      (Pending.env s.calls.shared .deliver).map fun shared =>
        { s with calls := { s.calls with shared }, reader := .receiving }
    | _ => none

/-- One step of `dispatch_control`. -/
def dispatcherStep : DispatcherAction → Option (State ι)
  | .recv =>
    match s.dispatcher, s.dispatch with
    | .receiving, frame :: rest =>
      some { s with
        dispatch := rest
        dispatcher := if s.run.stop.requested || s.run.closing then .returned else .handling frame }
    | _, _ => none
  | .handled =>
    match s.dispatcher with
    | .handling _ => some { s with dispatcher := .receiving }
    | _ => none

/-- One step of the inbound audio pump. -/
def inboundStep : InboundAction → Option (State ι)
  | .read =>
    match s.inbound, s.transport.media.items with
    | .reading, data :: rest =>
      some { s with
        inbound := .pushing data
        transport := { s.transport with media := { s.transport.media with items := rest } } }
    | _, _ => none
  | .readEnds =>
    match s.inbound, s.transport.media with
    | .reading, ⟨[], some terminal⟩ =>
      some { s.reportPump "audio read: " terminal.error with inbound := .returned }
    | _, _ => none
  | .pushed => if s.inbound matches .pushing _ then some { s with inbound := .reading } else none
  | .pushFails => if s.inbound matches .pushing _ then some { s with inbound := .returned } else none

/-- One step of the outbound audio pump. -/
def outboundStep : OutboundAction → Option (State ι)
  | .read data => if s.outbound matches .reading then some { s with outbound := .writing data } else none
  | .readEnds => if s.outbound matches .reading then some { s with outbound := .returned } else none
  | .write =>
    if s.outbound matches .writing _ then
      if s.transport.media.closed.isSome then some { s with outbound := .returned }
      else
        match s.transport.enqueue .binary with
        | some transport => some { s with transport, outbound := .reading }
        | none =>
          some { s.reportPump "audio write: " s.transport.closedError with outbound := .returned }
    else none

/-- One step of a request. What it sends goes to the outgoing queue. -/
def callStep [DecidableEq ι] {β : Type} (encode : ControlFrame → Except Error β) (i : ι)
    (action : Pending.CallAction) : Option (State ι) :=
  ((Pending.threads encode).step s.calls (.act i action)).bind fun calls =>
    match action with
    | .sendReturns none =>
      (s.transport.enqueue .text).map fun transport => { s with calls, transport }
    | _ => some { s with calls }

/-- The result that a step of `run` takes from a task or from the transport is the one it has. -/
def Offers : Run.Action → Prop
  | .connect (.ok ()) => s.transport.started = true
  | .readerReturns result =>
    match s.reader with
    | .ended r => result = joined r
    | _ => False
  | .keepaliveReturns result =>
    match s.transport.monitor with
    | .ended r => result = joined r
    | _ => False
  | .mediaCloses error => s.swept = true ∧ error = none
  | .transportCloses result => s.transport.Closes result
  | _ => True

instance : DecidablePred s.Offers := fun a => by
  unfold Offers
  split
  · infer_instance
  · split <;> infer_instance
  · split <;> infer_instance
  · infer_instance
  · infer_instance
  · infer_instance

/-- `fail_pending`. -/
def failPending [DecidableEq ι] : State ι :=
  { s with
    calls := { s.calls with
      shared := (Pending.env s.calls.shared .failPending).getD s.calls.shared }
    swept := true }

/-- What a step of `run` does to the other components. `finish_without_transport` fails the pending requests
before `run` returns. -/
def afterRun [DecidableEq ι] (keepalive : Run.KeepalivePolicy) (a : Run.Action) (run : Run.State) :
    State ι :=
  match a with
  | .connect (.ok ()) => (s.setRun run).spawn keepalive
  | .mediaCloses _ =>
    if s.inbound matches .off then s.setRun run
    else { s.setRun run with transport := { s.transport with media := s.transport.media.close .orderly } }
  | _ => if run.pc = .returned ∧ s.swept = false then (s.setRun run).failPending else s.setRun run

end State

variable [DecidableEq ι] {β : Type}

/-- One step of the session with its transport; `encode` and `decode` are those of the envelope. -/
def step (keepalive : Run.KeepalivePolicy) (encode : ControlFrame → Except Error β)
    (decode : Bytes → Option ControlFrame) (s : State ι) : Action ι → Option (State ι)
  | .socket action =>
    (s.transport.step action).map fun transport =>
      match action with
      | .text data => { s with transport, delivered := s.deliver decode data }
      | _ => { s with transport }
  | .monitor action =>
    (s.transport.monitorStep keepalive.maxMisses action).map fun transport => { s with transport }
  | .reader action => s.readerStep decode action
  | .dispatcher action => s.dispatcherStep action
  | .inbound action => s.inboundStep action
  | .outbound action => s.outboundStep action
  | .call i action => s.callStep encode i action
  | .send => (s.transport.enqueue .text).map fun transport => { s with transport }
  | .bindAudio =>
    if s.run.spawned ∧ s.inbound matches .off then
      some { s with inbound := .reading, outbound := .reading }
    else none
  | .run action =>
    if s.Offers action then (Run.step keepalive s.run action).map (s.afterRun keepalive action) else none
  | .failPending => if s.run.pc = .closingMedia ∧ s.swept = false then some s.failPending else none
  | .closeTransport =>
    if s.run.pc = .closingTransport ∧ s.transport.terminal = none ∧ s.transport.closeAck = .idle then
      some { s with transport := s.transport.close }
    else none

/-- The session as a machine. -/
def machine (keepalive : Run.KeepalivePolicy) (encode : ControlFrame → Except Error β)
    (decode : Bytes → Option ControlFrame) : Machine (State ι) (Action ι) where
  Start s := s = initial
  step := step keepalive encode decode

/-! ## What is asked of a run -/

/-- The socket ends in an orderly way: the peer closes it, or it is closed here, and no message fails to be
written but for that. -/
def OrderlySocket : Action ι → Prop
  | .socket (.readFails error) => normalizeSocketError error = .orderly
  | .socket (.writes (some message)) => normalizeErrorMessage message = .orderly
  | _ => True

/-- The monitor does not give up on the peer. -/
def Alive (keepalive : Run.KeepalivePolicy) (s : State ι) : Action ι → Prop
  | .monitor .timeout => s.transport.misses + 1 < keepalive.maxMisses
  | _ => True

/-- Neither a handler nor `close` stops the session. -/
def NoLocalStop : Action ι → Prop
  | .run .close | .run .requestClose => False
  | _ => True

/-- Nothing but the socket ends the session with an error. -/
def NoFailure (keepalive : Run.KeepalivePolicy) : Action ι → Prop
  | .run .run => keepalive.validate = .ok ()
  | .run (.requestFailure _) => False
  | .run (.connect result) => result = .ok ()
  | .run (.beginReturns result) => result = .ok
  | .run (.transportCloses result) => result = .ok
  | _ => True

/-- The socket ends in an orderly way and nothing else fails. -/
def OrderlyClose (keepalive : Run.KeepalivePolicy) (s : State ι) (a : Action ι) : Prop :=
  OrderlySocket a ∧ Alive keepalive s a ∧ NoFailure keepalive a

/-- The `select!` of `run` does not take the branch of the keepalive monitor. -/
def MonitorIgnored : Action ι → Prop
  | .run (.keepaliveReturns _) => False
  | _ => True

instance : DecidablePred (OrderlySocket : Action ι → Prop) := fun a => by
  unfold OrderlySocket
  split <;> infer_instance

instance (keepalive : Run.KeepalivePolicy) (s : State ι) : DecidablePred (Alive keepalive s) := fun a => by
  unfold Alive
  split <;> infer_instance

instance : DecidablePred (NoLocalStop : Action ι → Prop) := fun a => by
  unfold NoLocalStop
  split <;> infer_instance

instance (result : Except Run.Error Unit) : Decidable (result = .ok ()) :=
  match result with
  | .ok () => .isTrue rfl
  | .error _ => .isFalse nofun

instance (keepalive : Run.KeepalivePolicy) : DecidablePred (NoFailure keepalive : Action ι → Prop) :=
  fun a => by
    unfold NoFailure
    split <;> infer_instance

instance (keepalive : Run.KeepalivePolicy) (s : State ι) : DecidablePred (OrderlyClose keepalive s) :=
  fun a => inferInstanceAs (Decidable (OrderlySocket a ∧ Alive keepalive s a ∧ NoFailure keepalive a))

instance : DecidablePred (MonitorIgnored : Action ι → Prop) := fun a => by
  unfold MonitorIgnored
  split <;> infer_instance

/-- A session that has returned is closed, without an error. -/
def ClosedCleanly (s : State ι) : Prop :=
  s.run.pc = .returned → s.run.state = .closed ∧ s.run.finalError = none

/-- Every response that the read pump delivered has reached its request before the pending requests are
failed. -/
structure Drained (decode : Bytes → Option ControlFrame) (s : State ι) : Prop where
  /-- The reader has handled every message of the read pump before `fail_pending`. -/
  handled : s.swept = true → s.handled.map Prod.fst = s.delivered.map Prod.fst
  /-- A response that finds its request pending completes it. -/
  completed : ∀ data i frame, (data, some i) ∈ s.handled → decode data = some frame →
    s.calls.shared.taken = some (i, frame) ∨ s.calls.shared.channel i = .sent (.response frame)
  /-- The shutdown does not fail a request that was pending when a response to it was delivered. -/
  kept : ∀ data i, (data, some i) ∈ s.delivered → s.calls.shared.channel i ≠ .sent .shutdown
  /-- The shutdown does not fail any request before the control reader has seen the end of its inbox. -/
  readerFirst : ∀ i, s.calls.shared.channel i = .sent .shutdown →
    (∃ result, s.reader = .ended result) ∧ s.transport.control = ⟨[], some .orderly⟩

end Rtvbp.Rust.Workers
