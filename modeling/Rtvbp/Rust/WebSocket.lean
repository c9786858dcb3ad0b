import Rtvbp.Lib.Mailbox
import Rtvbp.Rust.Session.Run
import Rtvbp.Lib.Outbox

/-!
# The WebSocket transport of the Rust SDK

`WsTransport` of `sdk/rust/src/transport/ws.rs`: the read pump, the write pump, `finish`, `close` and
`monitor_keepalive`. `finish` records the terminal state under its mutex, and only then closes the outgoing
queue, the control inbox and the media inbox, so each of these is a step of its own; a later caller of
`finish` returns at once.

The socket is the environment: it delivers messages, and a read or a write fails with any error, at any
time. The data of an outgoing message is left out, as nothing here reads it.
-/

namespace Rtvbp.Rust.WebSocket

open Rtvbp.Lib

/-- The data of a message. -/
abbrev Bytes := List UInt8

/-- `Terminal`. -/
inductive Terminal where
  | orderly
  | failed (message : String)
  deriving DecidableEq

/-- `Error::Transport`. -/
def transportError (message : String) : Run.Error := .other ("transport: " ++ message)

/-- `Terminal::result`. -/
def Terminal.result : Terminal → Except Run.Error Unit
  | .orderly => .ok ()
  | .failed message => .error (transportError message)

/-- `Terminal::error`. -/
def Terminal.error : Terminal → Run.Error
  | .orderly => .closed
  | .failed message => transportError message

/-- The errors of the socket that `normalize_socket_error` tells apart, with the text of all others. -/
inductive SocketError where
  | connectionClosed
  | alreadyClosed
  | resetWithoutClosingHandshake
  | other (text : String)

/-- `normalize_socket_error`. -/
def normalizeSocketError : SocketError → Terminal
  | .connectionClosed | .alreadyClosed | .resetWithoutClosingHandshake => .orderly
  | .other text => .failed text

/-- `str::contains`. -/
def contains (text pattern : String) : Bool := pattern.toList <:+: text.toList

/-- `normalize_error_message`. -/
def normalizeErrorMessage (message : String) : Terminal :=
  if contains message "Connection closed" || contains message "closed" then .orderly
  else .failed message

/-- `Inbox`. -/
abbrev Inbox := Mailbox Bytes Terminal

/-- `Outbound`. Only a ping and the close ask for an acknowledgement. -/
inductive Outbound where
  | text
  | binary
  | ping
  | close
  deriving DecidableEq

/-- The `oneshot` channel of an acknowledgement. -/
inductive Ack where
  /-- Nobody waits for it. -/
  | idle
  | pending
  | written
  | failed (message : String)
  | dropped
  deriving DecidableEq

/-- The sender is dropped, if it is still there. -/
def Ack.drop : Ack → Ack
  | .pending => .dropped
  | ack => ack

/-- The sender reports the result of the write. -/
def Ack.report : Option String → Ack
  | none => .written
  | some message => .failed message

/-- How far `finish` has come. -/
inductive FinishPc where
  | idle
  /-- `terminal` is set. -/
  | recorded
  | senderTaken
  | controlClosed
  | mediaClosed
  | done

/-- The program counter of the write pump. -/
inductive WritePc where
  | receiving
  | writing (command : Outbound)
  | stopped
  deriving DecidableEq

/-- The program counter of `monitor_keepalive`. -/
inductive MonitorPc where
  /-- There is no monitor. -/
  | off
  /-- In the `select!` for the interval. -/
  | sleeping
  /-- Before the command of `enqueue_acknowledged`. -/
  | pinging
  /-- Waiting for the ping to be written. -/
  | writing
  /-- In the `select!` for the pong. -/
  | waiting
  | ended (result : Except Run.Error Unit)

/-- The monitor is in a `select!` with `wait_closed`. -/
def MonitorPc.selecting : MonitorPc → Bool
  | .sleeping | .pinging | .writing | .waiting => true
  | _ => false

/-- `WsTransport`. -/
structure Transport where
  /-- `start` has spawned the pumps. -/
  started : Bool
  control : Inbox
  media : Inbox
  /-- The sender of `OutgoingState` is there. -/
  sender : Bool
  outgoing : List Outbound
  /-- The read pump runs. -/
  reading : Bool
  writePump : WritePc
  terminal : Option Terminal
  finishPc : FinishPc
  /-- The acknowledgements of the ping and of the close. -/
  pingAck : Ack
  closeAck : Ack
  monitor : MonitorPc
  misses : Nat

/-- The steps of the pumps and of `finish`. -/
inductive SocketAction where
  | start
  /-- The read pump receives a message. -/
  | text (data : Bytes)
  | binary (data : Bytes)
  /-- The read pump receives a close message or the end of the stream, or fails. -/
  | readCloses
  | readFails (error : SocketError)
  /-- The write pump receives a command, or the end of the queue. -/
  | receive
  | receiveEnds
  /-- `writer.send` returns. -/
  | writes (error : Option String)
  /-- The next statement of `finish`. -/
  | finish

/-- The steps of `monitor_keepalive`. -/
inductive MonitorAction where
  | interval
  | ping
  | acknowledged
  | pong
  | timeout
  /-- A `select!` takes `wait_closed`. -/
  | closed

namespace Transport

/-- No transport yet. -/
def initial : Transport where
  started := false
  control := .empty
  media := .empty
  sender := false
  outgoing := []
  reading := false
  writePump := .receiving
  terminal := none
  finishPc := .idle
  pingAck := .idle
  closeAck := .idle
  monitor := .off
  misses := 0

/-- The begin of `finish`: the first caller records the terminal state. -/
def finish (t : Transport) (terminal : Terminal) : Transport :=
  if t.terminal.isSome then t else { t with terminal := some terminal, finishPc := .recorded }

/-- The next statement of `finish`. -/
def finishStep (t : Transport) : Option Transport :=
  match t.finishPc with
  | .idle | .done => none
  | .recorded => some { t with sender := false, finishPc := .senderTaken }
  | .senderTaken =>
    some { t with control := t.control.close (t.terminal.getD .orderly), finishPc := .controlClosed }
  | .controlClosed =>
    some { t with media := t.media.close (t.terminal.getD .orderly), finishPc := .mediaClosed }
  | .mediaClosed => some { t with finishPc := .done }

/-- `closed_error`. -/
def closedError (t : Transport) : Run.Error := (t.terminal.getD .orderly).error

/-- `enqueue_command`; `none` is an error, which is `closed_error`. -/
def enqueue (t : Transport) (command : Outbound) : Option Transport :=
  if t.sender ∧ t.writePump ≠ .stopped then some { t with outgoing := t.outgoing ++ [command] } else none

/-- The write pump returns: what is left in the queue is dropped. -/
def stopWriting (t : Transport) : Transport :=
  { t with writePump := .stopped, outgoing := [], pingAck := t.pingAck.drop, closeAck := t.closeAck.drop }

/-- `written.send`. -/
def acknowledge (t : Transport) (command : Outbound) (error : Option String) : Transport :=
  match command with
  | .ping => { t with pingAck := .report error }
  | .close => { t with closeAck := .report error }
  | .text | .binary => t

/-- The write pump after `writer.send`. -/
def afterWrite (t : Transport) (command : Outbound) (error : Option String) : Transport :=
  match command, error with
  | .close, none => (t.finish .orderly).stopWriting
  | _, some message => (t.finish (normalizeErrorMessage message)).stopWriting
  | _, none => { t with writePump := .receiving }

/-- One step of the pumps and of `finish`. -/
def step (t : Transport) : SocketAction → Option Transport
  | .start => if t.started then none else some { t with started := true, sender := true, reading := true }
  | .text data => if t.reading then some { t with control := t.control.push data } else none
  | .binary data => if t.reading then some { t with media := t.media.push data } else none
  | .readCloses => if t.reading then some { t.finish .orderly with reading := false } else none
  | .readFails error =>
    if t.reading then some { t.finish (normalizeSocketError error) with reading := false } else none
  | .receive =>
    match t.started, t.writePump, t.outgoing with
    | true, .receiving, command :: rest => some { t with writePump := .writing command, outgoing := rest }
    | _, _, _ => none
  | .receiveEnds =>
    match t.started, t.writePump, t.outgoing with
    | true, .receiving, [] => if t.sender then none else some t.stopWriting
    | _, _, _ => none
  | .writes error =>
    match t.writePump with
    | .writing command => some ((t.acknowledge command error).afterWrite command error)
    | _ => none
  | .finish => t.finishStep

/-- `close`, up to where it waits. -/
def close (t : Transport) : Transport :=
  if t.sender ∧ t.writePump ≠ .stopped then
    { t with sender := false, outgoing := t.outgoing ++ [.close], closeAck := .pending }
  else { t with sender := false, closeAck := .dropped }

/-- The result of a terminal state as that of closing the transport. -/
def closeResult : Terminal → Run.CloseResult
  | .orderly => .ok
  | .failed message => .error (transportError message)

/-- `close` within its timeout can give this result. -/
def Closes (t : Transport) : Run.CloseResult → Prop
  | .timedOut => t.closeAck ≠ .idle
  | result =>
    match t.closeAck with
    | .written => result = .ok
    | .failed message => result = .error (transportError message)
    | .idle | .dropped => t.terminal.map closeResult = some result
    | .pending => False

instance (t : Transport) : DecidablePred t.Closes := fun result => by
  unfold Closes
  split
  · infer_instance
  · split <;> infer_instance

/-- What the monitor returns after an error of the ping. -/
def pingError (t : Transport) (error : Run.Error) : Except Run.Error Unit :=
  t.terminal.elim (.error error) Terminal.result

/-- One more pong is missing. -/
def miss (maxMisses : Nat) (t : Transport) : Transport :=
  if maxMisses ≤ t.misses + 1 then
    { t.finish (.failed "keepalive timed out") with
      misses := t.misses + 1
      monitor := .ended (.error (.other "keepalive timed out")) }
  else { t with misses := t.misses + 1, monitor := .sleeping }

/-- One step of the monitor. -/
def monitorStep (maxMisses : Nat) (t : Transport) : MonitorAction → Option Transport
  | .interval => if t.monitor matches .sleeping then some { t with monitor := .pinging } else none
  | .ping =>
    if t.monitor matches .pinging then
      match t.enqueue .ping with
      | some t => some { t with monitor := .writing, pingAck := .pending }
      | none => some { t with monitor := .ended (t.pingError t.closedError) }
    else none
  | .acknowledged =>
    match t.monitor, t.pingAck with
    | .writing, .written => some { t with monitor := .waiting }
    | .writing, .failed message => some { t with monitor := .ended (t.pingError (transportError message)) }
    | .writing, .dropped => some { t with monitor := .ended (t.pingError t.closedError) }
    | _, _ => none
  | .pong =>
    if t.monitor matches .waiting then some { t with monitor := .sleeping, misses := 0 } else none
  | .timeout => if t.monitor matches .waiting then some (t.miss maxMisses) else none
  | .closed =>
    match t.terminal with
    | some terminal =>
      if t.monitor.selecting then some { t with monitor := .ended terminal.result } else none
    | none => none

end Transport

end Rtvbp.Rust.WebSocket

/-!
## What the WebSocket transport of the Rust SDK sends

The transport of `sdk/rust/src/transport/ws.rs` with the data of its outgoing messages, for any number of
senders and of `close` calls. The transport decides what is admitted and when it is written; the outbox
beside it holds the messages themselves and the history of the socket.
-/

namespace Rtvbp.Rust.Flush

open Rtvbp.Lib
open Rtvbp.Rust.WebSocket

/-- An outgoing message with its data. -/
structure Message (δ : Type) where
  kind : Outbound
  data : δ

/-- The transport and the messages in its outgoing queue. -/
structure State (δ : Type) where
  transport : Transport
  outbox : Outbox (Message δ)

/-- What can happen next. -/
inductive Action (δ : Type) where
  | socket (a : SocketAction)
  /-- A step of `monitor_keepalive`, with the payload of a ping. -/
  | monitor (a : MonitorAction) (payload : δ)
  /-- `send` of the control channel, and `write_frame` of the media channel. -/
  | send (data : δ)
  | writeFrame (data : δ)
  /-- A call of `close` that has found no terminal state takes the sender. -/
  | close (data : δ)

variable {δ : Type}

/-- A message is sent to the write pump; the caller gets an error if it is refused. -/
def State.enqueue (s : State δ) (m : Message δ) : State δ :=
  match s.transport.enqueue m.kind with
  | some transport => ⟨transport, s.outbox.push m⟩
  | none => s

/-- What a step of the pumps does to the messages; a message whose write fails is not written. -/
def follow (t : Transport) (b : Outbox (Message δ)) : SocketAction → Outbox (Message δ)
  | .receive => b.take
  | .writes none => b.wrote
  | .finish => if t.finishPc matches .recorded then b.shutdown else b
  | _ => b

/-- A step of the monitor sends a ping if it goes on to wait for it. -/
def followMonitor (t : Transport) (b : Outbox (Message δ)) (payload : δ) :
    MonitorAction → Outbox (Message δ)
  | .ping => if t.monitor matches .writing then b.push ⟨.ping, payload⟩ else b
  | _ => b

/-- The sender is taken; the close message is admitted if the write pump can still receive it. -/
def State.close (s : State δ) (data : δ) : State δ :=
  if s.transport.sender ∧ s.transport.writePump ≠ .stopped then
    ⟨s.transport.close, s.outbox.closeWith ⟨.close, data⟩⟩
  else ⟨{ s.transport with sender := false }, s.outbox.shutdown⟩

/-- One step of the transport. -/
def step (maxMisses : Nat) (s : State δ) : Action δ → Option (State δ)
  | .socket a => (s.transport.step a).map fun t => ⟨t, follow s.transport s.outbox a⟩
  | .monitor a payload =>
    (s.transport.monitorStep maxMisses a).map fun t => ⟨t, followMonitor t s.outbox payload a⟩
  | .send data => some (s.enqueue ⟨.text, data⟩)
  | .writeFrame data => some (s.enqueue ⟨.binary, data⟩)
  | .close data => some (s.close data)

/-- A transport whose pumps have been spawned, with or without a monitor. -/
def Start (s : State δ) : Prop :=
  ∃ monitor : MonitorPc, (monitor = .off ∨ monitor = .sleeping) ∧
    ({ Transport.initial with monitor } : Transport).step .start = some s.transport ∧ s.outbox = .empty

/-- The transport as a machine. -/
def machine (maxMisses : Nat) : Machine (State δ) (Action δ) where
  Start := Start
  step := step maxMisses

/-! ## What is asked of a run -/

/-- The message is the close frame. -/
def Message.isClose (m : Message δ) : Prop := m.kind = .close

/-- The step is one of the write pump, and the socket accepts what it writes. -/
def Action.isWriter : Action δ → Prop
  | .socket .receive | .socket (.writes none) => True
  | _ => False

/-- The socket does not fail, and the peer does not close it. -/
def NoFailure (_ : State δ) : Action δ → Prop
  | .socket .readCloses | .socket (.readFails _) | .socket (.writes (some _)) => False
  | _ => True

instance (s : State δ) : DecidablePred (NoFailure s) := fun a => by
  unfold NoFailure
  split <;> infer_instance

end Rtvbp.Rust.Flush
