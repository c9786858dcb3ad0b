import Rtvbp.Lib.Mailbox
import Rtvbp.Lib.Outbox

/-!
# The WebSocket transport

`Transport` of `sdk/go/transport/ws/semantic_transport.go`: the read pump, the write pump, the keepalive
monitor, `finish` and `Close`. The two inboxes and the outgoing queue have a mutex each, and `finish`
closes them one after the other, so each of its statements is a step. The first caller of `finish` runs it
and the others wait for it.

The socket is the environment: it delivers messages, and a read or a write fails with any error, at any
time. The data of an outgoing message is left out, as nothing here reads it.
-/

namespace Rtvbp.Go.WebSocket

open Rtvbp.Lib

/-- The data of a message. -/
abbrev Bytes := List UInt8

/-- An error, by what `errors.Is` and `errors.As` find in it. -/
inductive Err (ε : Type) where
  /-- `io.EOF`. -/
  | eof
  /-- `io.ErrClosedPipe`. -/
  | closedPipe
  /-- `net.ErrClosed`. -/
  | netClosed
  /-- `websocket.ErrCloseSent`. -/
  | closeSent
  /-- `websocket.CloseError` with its code. -/
  | closeError (code : Nat)
  /-- `ErrKeepaliveTimeout`. -/
  | keepaliveTimeout
  /-- `ErrSessionClosed`. -/
  | sessionClosed
  /-- `context.Canceled`. -/
  | canceled
  | other (err : ε)
  deriving DecidableEq

variable {α ε : Type}

/-- `normalizeSocketError`; 1000 is `CloseNormalClosure` and 1001 is `CloseGoingAway`. -/
def normalizeSocketError : Err ε → Err ε
  | .netClosed | .closeSent | .closeError 1000 | .closeError 1001 => .eof
  | err => err

/-- `closeResult`. -/
def closeResult : Option (Err ε) → Option (Err ε)
  | none | some .eof | some .netClosed | some .closeSent => none
  | some err => some err

/-- `keepaliveCloseResult`. -/
def keepaliveCloseResult : Option (Err ε) → Option (Err ε)
  | none | some .eof => none
  | some err => some err

/-- `inbox`; the error of a closed one is in `closed`. -/
abbrev Inbox (α ε : Type) := Mailbox α (Err ε)

/-- `outboundMessage`. Only a ping asks for an acknowledgement. -/
inductive OutboundMessage where
  | text
  | binary
  | ping
  | close
  deriving DecidableEq

/-- `outboundQueue`. -/
structure OutboundQueue where
  items : List OutboundMessage
  closed : Bool

namespace OutboundQueue

/-- `outboundQueue.push`; `none` is `io.ErrClosedPipe`. -/
def push (q : OutboundQueue) (message : OutboundMessage) : Option OutboundQueue :=
  if q.closed then none else some { q with items := q.items ++ [message] }

/-- `outboundQueue.closeWith`; `none` is false. -/
def closeWith (q : OutboundQueue) (message : OutboundMessage) : Option OutboundQueue :=
  if q.closed then none else some ⟨q.items ++ [message], true⟩

/-- `outboundQueue.shutdown`. -/
def shutdown (q : OutboundQueue) : OutboundQueue := { q with closed := true }

end OutboundQueue

/-- How far `finish` has come. -/
inductive FinishPc where
  | idle
  /-- The terminal error is set. -/
  | recorded
  | outgoingShutDown
  | controlClosed
  | mediaClosed
  /-- The context of the transport is canceled. -/
  | canceled
  | connClosed
  | done
  deriving DecidableEq

/-- The context of the transport is canceled. -/
def FinishPc.ctxDone : FinishPc → Bool
  | .canceled | .connClosed | .done => true
  | _ => false

/-- The program counter of the write pump. -/
inductive WritePc (ε : Type) where
  | popping
  | writing (message : OutboundMessage)
  /-- In `finish`, with what is to be sent to `closeAck` after it. -/
  | finishing (ack : Option (Option (Err ε)))
  | stopped

/-- The program counter of `MonitorKeepalive`. -/
inductive MonitorPc (ε : Type) where
  /-- There is no monitor. -/
  | off
  /-- In the select for the token of the monitor. -/
  | acquiring
  /-- In the select for the interval. -/
  | idle
  /-- Before the push of `enqueueAcknowledged`. -/
  | pinging
  /-- The outgoing queue was closed; waiting for the end of the transport. -/
  | refused
  /-- Waiting for the ping to be written. -/
  | writing
  /-- Waiting for the pong. -/
  | waitForPong
  /-- In `finish`, after too many misses. -/
  | finishing
  /-- `MonitorKeepalive` has returned. -/
  | ended (result : Option (Err ε))
  /-- The result is reported, or dropped. -/
  | returned

/-- The monitor is in a select that has `t.done` and `ctx.Done` among its cases. -/
def MonitorPc.selecting : MonitorPc ε → Bool
  | .acquiring | .idle | .refused | .writing | .waitForPong => true
  | _ => false

/-- `Transport`. -/
structure Transport (ε : Type) where
  /-- `NewTransport` has started the pumps. -/
  opened : Bool
  control : Inbox Bytes ε
  media : Inbox Bytes ε
  outgoing : OutboundQueue
  /-- The read pump runs. -/
  reading : Bool
  writePump : WritePc ε
  finishPc : FinishPc
  terminalErr : Option (Err ε)
  closeOnce : Bool
  closeAck : Option (Option (Err ε))
  monitor : MonitorPc ε
  misses : Nat
  /-- The acknowledgement of the ping. -/
  written : Option (Option (Err ε))

/-- The steps of the pumps and of `finish`. -/
inductive SocketAction (ε : Type) where
  /-- `NewTransport`. -/
  | newTransport
  /-- The read pump receives a message. -/
  | text (data : Bytes)
  | binary (data : Bytes)
  /-- The read pump fails. -/
  | readFails (err : Err ε)
  /-- `outgoing.pop` returns a message, or an error. -/
  | pop
  | popEnds
  /-- `writeMessage` returns. -/
  | writes (err : Option (Err ε))
  /-- The `finish` that the write pump waits for is done. -/
  | writeFinished
  /-- The next statement of `finish`. -/
  | finish

/-- The steps of `MonitorKeepalive`. -/
inductive MonitorAction (ε : Type) where
  | acquire
  | interval
  | ping
  /-- The acknowledgement of the ping arrives. -/
  | acknowledged
  /-- A pong arrives, with the payload of the ping or another one. -/
  | pong (matched : Bool)
  | timeout
  /-- The `finish` that the monitor waits for is done. -/
  | finished
  /-- A select takes `t.done`, or `ctx.Done`. -/
  | transportDone
  | ctxDone

namespace Transport

/-- No transport yet. -/
def initial : Transport ε where
  opened := false
  control := .empty
  media := .empty
  outgoing := ⟨[], false⟩
  reading := false
  writePump := .popping
  finishPc := .idle
  terminalErr := none
  closeOnce := false
  closeAck := none
  monitor := .off
  misses := 0
  written := none

/-- The begin of `finish`: the first caller records the error. -/
def finish (t : Transport ε) (err : Err ε) : Transport ε :=
  if t.finishPc = .idle then { t with finishPc := .recorded, terminalErr := some err } else t

/-- The next statement of `finish`. -/
def finishStep (t : Transport ε) : Option (Transport ε) :=
  match t.finishPc with
  | .idle | .done => none
  | .recorded => some { t with outgoing := t.outgoing.shutdown, finishPc := .outgoingShutDown }
  | .outgoingShutDown =>
    some { t with control := t.control.close (t.terminalErr.getD .eof), finishPc := .controlClosed }
  | .controlClosed =>
    some { t with media := t.media.close (t.terminalErr.getD .eof), finishPc := .mediaClosed }
  | .mediaClosed => some { t with finishPc := .canceled }
  | .canceled => some { t with finishPc := .connClosed }
  | .connClosed => some { t with finishPc := .done }

/-- `message.written <- err`. -/
def acknowledge (t : Transport ε) (message : OutboundMessage) (err : Option (Err ε)) : Transport ε :=
  if message = .ping then { t with written := some err } else t

/-- The write pump after `writeMessage`. -/
def afterWrite (t : Transport ε) (message : OutboundMessage) (err : Option (Err ε)) : Transport ε :=
  match message, err with
  | .close, none => { t.finish .eof with writePump := .finishing (some none) }
  | .close, some e => { t.finish (normalizeSocketError e) with writePump := .finishing (some (some e)) }
  | _, some e => { t.finish (normalizeSocketError e) with writePump := .finishing none }
  | _, none => { t with writePump := .popping }

/-- One step of the pumps and of `finish`. -/
def step (t : Transport ε) : SocketAction ε → Option (Transport ε)
  | .newTransport => if t.opened then none else some { t with opened := true, reading := true }
  | .text data => if t.reading then some { t with control := t.control.push data } else none
  | .binary data => if t.reading then some { t with media := t.media.push data } else none
  | .readFails err =>
    if t.reading then some { t.finish (normalizeSocketError err) with reading := false } else none
  | .pop =>
    match t.opened, t.writePump, t.outgoing.items with
    | true, .popping, message :: rest =>
      some { t with writePump := .writing message, outgoing := { t.outgoing with items := rest } }
    | _, _, _ => none
  | .popEnds =>
    match t.opened, t.writePump, t.outgoing.items with
    | true, .popping, [] =>
      if t.outgoing.closed ∨ t.finishPc.ctxDone then some { t with writePump := .stopped } else none
    | _, _, _ => none
  | .writes err =>
    match t.writePump with
    | .writing message => some ((t.acknowledge message err).afterWrite message err)
    | _ => none
  | .writeFinished =>
    match t.writePump with
    | .finishing ack =>
      if t.finishPc = .done then some { t with writePump := .stopped, closeAck := ack.or t.closeAck }
      else none
    | _ => none
  | .finish => t.finishStep

/-- The push of a message into the outgoing queue; `none` is `io.ErrClosedPipe`. -/
def enqueue (t : Transport ε) (message : OutboundMessage) : Option (Transport ε) :=
  (t.outgoing.push message).map fun outgoing => { t with outgoing }

/-- The part of `Close` in `closeOnce`. -/
def closeCommand (t : Transport ε) : Transport ε :=
  match t.outgoing.closeWith .close with
  | some outgoing => { t with closeOnce := true, outgoing }
  | none => { t with closeOnce := true, closeAck := some t.terminalErr }

/-- `Close` can return this error: the transport is done, or its close is acknowledged. -/
def Closes (t : Transport ε) (err : Option (Err ε)) : Prop :=
  t.finishPc = .done ∧ err = closeResult t.terminalErr ∨
    ∃ ack, t.closeAck = some ack ∧ err = closeResult ack

instance [DecidableEq ε] (t : Transport ε) (err : Option (Err ε)) : Decidable (t.Closes err) :=
  match h : t.closeAck with
  | none => decidable_of_iff (t.finishPc = .done ∧ err = closeResult t.terminalErr) (by simp [Closes, h])
  | some ack =>
    decidable_of_iff (t.finishPc = .done ∧ err = closeResult t.terminalErr ∨ err = closeResult ack)
      (by simp [Closes, h])

/-- One more pong is missing. -/
def miss (maxMisses : Int) (t : Transport ε) : Transport ε :=
  if maxMisses ≤ (t.misses + 1 : Nat) then
    { t.finish .keepaliveTimeout with misses := t.misses + 1, monitor := .finishing }
  else { t with misses := t.misses + 1, monitor := .idle }

/-- One step of the monitor; `canceled` says whether its context is. -/
def monitorStep (maxMisses : Int) (canceled : Bool) (t : Transport ε) :
    MonitorAction ε → Option (Transport ε)
  | .acquire =>
    if t.monitor matches .acquiring then some { t with monitor := .idle, misses := 0 } else none
  | .interval => if t.monitor matches .idle then some { t with monitor := .pinging } else none
  | .ping =>
    if t.monitor matches .pinging then
      if canceled then some { t with monitor := .ended (some .canceled) }
      else
        match t.enqueue .ping with
        | some t => some { t with monitor := .writing, written := none }
        | none => some { t with monitor := .refused }
    else none
  | .acknowledged =>
    match t.monitor, t.written with
    | .writing, some none => some { t with monitor := .waitForPong }
    | .writing, some (some err) => some { t with monitor := .ended (some err) }
    | _, _ => none
  | .pong matched =>
    if t.monitor matches .waitForPong then
      some (if matched then { t with monitor := .idle, misses := 0 } else t)
    else none
  | .timeout => if t.monitor matches .waitForPong then some (t.miss maxMisses) else none
  | .finished =>
    if t.monitor matches .finishing ∧ t.finishPc = .done then
      some { t with monitor := .ended (some .keepaliveTimeout) }
    else none
  | .transportDone =>
    if t.monitor.selecting ∧ t.finishPc = .done then
      some { t with monitor := .ended (keepaliveCloseResult t.terminalErr) }
    else none
  | .ctxDone =>
    if t.monitor.selecting ∧ canceled then some { t with monitor := .ended (some .canceled) } else none

end Transport

end Rtvbp.Go.WebSocket

/-!
## What the WebSocket transport sends

The transport of `sdk/go/transport/ws/semantic_transport.go` with the data of its outgoing messages, for
any number of senders and of `Close` calls. The transport decides what is admitted and when it is written;
the outbox beside it holds the messages themselves and the history of the socket.
-/

namespace Rtvbp.Go.Flush

open Rtvbp.Lib
open Rtvbp.Go.WebSocket

/-- An outgoing message with its data. -/
structure Message (δ : Type) where
  kind : OutboundMessage
  data : δ
  deriving DecidableEq

/-- The transport and the messages in its outgoing queue. -/
structure State (ε δ : Type) where
  transport : Transport ε
  outbox : Outbox (Message δ)

/-- What can happen next. -/
inductive Action (ε δ : Type) where
  | socket (a : SocketAction ε)
  /-- A step of `MonitorKeepalive`, with the payload of a ping; `canceled` says whether its context is. -/
  | monitor (a : MonitorAction ε) (canceled : Bool) (payload : δ)
  /-- `Send` of the control channel, and `WriteFrame` of the media channel. -/
  | send (data : δ)
  | writeFrame (data : δ)
  /-- A call of `Close` that has not found the transport done comes to `closeOnce`. -/
  | close (data : δ)
  /-- The context of a `Close` call is done. -/
  | closeTimesOut (err : Err ε)

variable {ε δ : Type}

/-- A message is pushed into the outgoing queue; the sender gets `io.ErrClosedPipe` if it is refused. -/
def State.enqueue (s : State ε δ) (m : Message δ) : State ε δ :=
  match s.transport.enqueue m.kind with
  | some transport => ⟨transport, s.outbox.push m⟩
  | none => s

/-- What a step of the pumps does to the messages; a message whose write fails is not written. -/
def follow (t : Transport ε) (b : Outbox (Message δ)) : SocketAction ε → Outbox (Message δ)
  | .pop => b.take
  | .writes none => b.wrote
  | .finish => if t.finishPc matches .recorded then b.shutdown else b
  | _ => b

/-- A step of the monitor pushes a ping if it goes on to wait for it. -/
def followMonitor (t : Transport ε) (b : Outbox (Message δ)) (payload : δ) :
    MonitorAction ε → Outbox (Message δ)
  | .ping => if t.monitor matches .writing then b.push ⟨.ping, payload⟩ else b
  | _ => b

/-- One step of the transport. -/
def step (maxMisses : Int) (s : State ε δ) : Action ε δ → Option (State ε δ)
  | .socket a => (s.transport.step a).map fun t => ⟨t, follow s.transport s.outbox a⟩
  | .monitor a canceled payload =>
    (s.transport.monitorStep maxMisses canceled a).map fun t => ⟨t, followMonitor t s.outbox payload a⟩
  | .send data => some (s.enqueue ⟨.text, data⟩)
  | .writeFrame data => some (s.enqueue ⟨.binary, data⟩)
  | .close data =>
    some (if s.transport.closeOnce then s
      else ⟨s.transport.closeCommand, s.outbox.closeWith ⟨.close, data⟩⟩)
  | .closeTimesOut err => some { s with transport := s.transport.finish err }

/-- A transport whose pumps have been started, with or without a monitor. -/
def Start (s : State ε δ) : Prop :=
  ∃ monitor : MonitorPc ε, (monitor = .off ∨ monitor = .acquiring) ∧
    ({ Transport.initial with monitor } : Transport ε).step .newTransport = some s.transport ∧
    s.outbox = .empty

/-- The transport as a machine. -/
def machine (maxMisses : Int) : Machine (State ε δ) (Action ε δ) where
  Start := Start
  step := step maxMisses

/-! ## What is asked of a run -/

/-- The message is the close frame. -/
def Message.isClose (m : Message δ) : Prop := m.kind = .close

/-- The step is one of the write pump, and the socket accepts what it writes. -/
def Action.isWriter : Action ε δ → Prop
  | .socket .pop | .socket (.writes none) => True
  | _ => False

/-- The socket does not fail, the peer does not close it, and no `Close` call times out. -/
def NoFailure (_ : State ε δ) : Action ε δ → Prop
  | .socket (.readFails _) | .socket (.writes (some _)) | .closeTimesOut _ => False
  | _ => True

instance (s : State ε δ) : DecidablePred (NoFailure s) := fun a => by
  unfold NoFailure
  split <;> infer_instance

end Rtvbp.Go.Flush
