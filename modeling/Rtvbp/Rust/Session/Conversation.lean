import Rtvbp.Rust.Session.Pending
import Rtvbp.Rust.Session.Reply
import Rtvbp.Lib.Mailbox

/-!
# A Rust session at a transport

A session of `sdk/rust/src/session/mod.rs` between a wire out of it and a wire into it, whoever is at the other end:
`request_value` and `notify`, the tasks `read_control` and `dispatch_control`, and `handle_request` with the calls of
`respond_internal`. The tasks take their steps in any order, and `ControlChannel::send` puts its message on the wire at
any time between its call and its return.

A call is known by the id that the id generator returns to it, which never returns an id twice.
-/

namespace Rtvbp.Rust.Conversation

open Rtvbp.Lib Rtvbp.Envelope.Rust
open Rtvbp.Rust.Reply (Call CallAction EnvAction)

/-- What a call of `request_value` asks. -/
structure Asked where
  method : String
  payload : Value

/-- The frame of `request_value`. -/
def Asked.frame (id : String) (asked : Asked) : ControlFrame := .request id asked.method (some asked.payload)

/-- The program counter of `read_control`. -/
inductive ReaderPc (β : Type) where
  | receiving
  | holding (data : β)
  | ended

/-- The program counter of `dispatch_control`. -/
inductive DispatcherPc where
  | receiving
  | handlingEvent
  /-- In `handle_request` for this one of the inbound requests. -/
  | handlingRequest (index : Nat)
  | ended
  deriving DecidableEq

/-- A request that the dispatcher has taken. -/
structure Inbound (κ : Type) where
  frame : ControlFrame
  reply : Reply.State κ
  /-- `send` has put its response on the wire. -/
  pushed : Bool

/-- A session; `β` are the messages on the wire, and `κ` the calls of `respond_internal` for a request. -/
structure Peer (κ β : Type) where
  calls : Pending.State String
  /-- `send` has put the frame of the call on the wire. -/
  pushed : String → Bool
  /-- `stop.requested`. -/
  stop : Bool
  reader : ReaderPc β
  dispatch : Wire ControlFrame
  dispatcher : DispatcherPc
  inbound : List (Inbound κ)

/-- What can happen next in a session. -/
inductive PeerAction (κ : Type) where
  | call (id : String) (action : Pending.CallAction)
  /-- `send` of a call of `request_value`, of `notify`, and of the response to an inbound request, by the call of
  `respond_internal` that has claimed it. -/
  | push (id : String)
  | notify (id event : String) (payload : Value)
  | pushReply (index : Nat) (i : Option κ)
  /-- `recv` returns a message, or an error; the message is handled, and the sender of its response is told. -/
  | recv
  | recvEnds
  | handle
  | deliver
  /-- The dispatcher receives a frame and looks at the flags; its handler returns; it ends, or is aborted. -/
  | pop
  | handled
  | dispatcherEnds
  | reply (index : Nat) (action : Threads.Action (Option κ) CallAction EnvAction)
  /-- `request_close` or `request_failure`, and the shutdown. -/
  | requestStop
  | beginShutdown
  | failPending

variable {κ β : Type} [DecidableEq κ]

/-- The steps that a call takes; `send` succeeds only if the frame is on the wire. -/
def callStep (id : String) (asked : Asked) (pushed : Bool) : Pending.CallAction → Option Pending.CallAction
  | .call _ _ => some (.call asked.method asked.payload)
  | .insert _ => some (.insert id)
  | .sendReturns none => if pushed then some (.sendReturns none) else none
  | action => some action

/-- The calls for a request may take this step, where the dispatcher is in `handle_request` for it or not. The flags of
the session are its own. -/
def mayReply (pushed handling : Bool) : Threads.Action (Option κ) CallAction EnvAction → Bool
  | .act none (.sendReturns none) => pushed && handling
  | .act none _ => handling
  | .act (some _) (.sendReturns none) => pushed
  | .act (some _) _ => true
  | .env (.handlerReturns _) | .env .test => handling
  | .env .deferResponse => true
  | .env .requestStop | .env .beginShutdown => false

/-- The call of `respond_internal` is in `send`. -/
def inSend : Call → Bool
  | .sending _ => true
  | _ => false

/-- `handle_request` has returned. -/
def hasReturned (reply : Reply.State κ) : Bool :=
  match reply.shared.phase, reply.locals none with
  | .returned, _ => true
  | .answering _, .returned _ => true
  | _, _ => false

/-- `handle_request` waits. -/
def waits (reply : Reply.State κ) : Bool :=
  match reply.shared.phase, reply.locals none with
  | .handling, _ => true
  | .answering _, .sending _ => true
  | .answering _, .sleeping => true
  | _, _ => false

/-- A reply sees the flags of its session. -/
def sync (closing stop : Bool) (reply : Reply.State κ) : Reply.State κ :=
  { reply with shared := { reply.shared with closing := closing, stop := stop } }

/-- A request that the dispatcher takes. -/
def Inbound.take (frame : ControlFrame) : Inbound κ where
  frame := frame
  reply :=
    { shared :=
        { status := .unclaimed, closing := false, stop := false, phase := .handling, handed := [], owner := none }
      locals := fun _ => .idle }
  pushed := false

namespace Peer

variable (encode : ControlFrame → Except Error β) (decode : β → Option ControlFrame) (asked : String → Asked)

/-- A frame is put on the wire. -/
def put (out : Wire β) (frame : ControlFrame) : Option (Wire β) :=
  match encode frame with
  | .ok data => out.send data
  | .error _ => none

/-- The message is decoded and handled; a frame that does not decode is dropped. -/
def handleData (peer : Peer κ β) (data : β) : Option (Peer κ β) :=
  match decode data with
  | none => some { peer with reader := .receiving }
  | some frame =>
    if frame.kind = .response then
      (Pending.env peer.calls.shared (.resolve frame)).map fun shared =>
        { peer with calls := { peer.calls with shared := shared }, reader := .receiving }
    else
      match peer.dispatch.send frame with
      | some dispatch => some { peer with dispatch := dispatch, reader := .receiving }
      | none => some { peer with reader := .ended }

/-- The dispatcher takes a frame. -/
def take (peer : Peer κ β) (frame : ControlFrame) (dispatch : Wire ControlFrame) : Peer κ β :=
  match frame.kind with
  | .request =>
    { peer with
      dispatch := dispatch
      dispatcher := .handlingRequest peer.inbound.length
      inbound := peer.inbound ++ [.take frame] }
  | .event => { peer with dispatch := dispatch, dispatcher := .handlingEvent }
  | .response => { peer with dispatch := dispatch }

/-- The dispatcher can end: it is aborted where it waits, or the reader has gone and nothing is left. -/
def mayEnd (peer : Peer κ β) : Bool :=
  match peer.dispatcher with
  | .receiving => peer.calls.shared.closing || (peer.reader matches .ended && peer.dispatch.pending.isEmpty)
  | .handlingEvent => peer.calls.shared.closing
  | .handlingRequest index =>
    peer.calls.shared.closing && (peer.inbound[index]?).any fun entry => waits entry.reply
  | .ended => false

/-- The dispatcher has ended, and its end of the queue is gone. -/
def endDispatcher (peer : Peer κ β) : Peer κ β :=
  { peer with dispatch := peer.dispatch.discard, dispatcher := .ended }

/-- A step of the calls for an inbound request. -/
def replyStep (peer : Peer κ β) (index : Nat) (action : Threads.Action (Option κ) CallAction EnvAction) :
    Option (Peer κ β) :=
  match peer.inbound[index]? with
  | none => none
  | some entry =>
    if mayReply entry.pushed (peer.dispatcher = .handlingRequest index) action then
      ((Reply.threads encode entry.frame.id).step (sync peer.calls.shared.closing peer.stop entry.reply) action).map
        fun reply =>
          { peer with
            stop := reply.shared.stop
            inbound := peer.inbound.set index { entry with reply := reply } }
    else none

/-- The response of an inbound request is put on the wire. -/
def pushReply (peer : Peer κ β) (out : Wire β) (index : Nat) (i : Option κ) : Option (Peer κ β × Wire β) :=
  match peer.inbound[index]? with
  | none => none
  | some entry =>
    match entry.reply.shared.handed with
    | [frame] =>
      if entry.pushed = false ∧ inSend (entry.reply.locals i) ∧ (i.isSome ∨ peer.dispatcher = .handlingRequest index) then
        (put encode out frame).map fun out =>
          ({ peer with inbound := peer.inbound.set index { entry with pushed := true } }, out)
      else none
    | _ => none

/-- A step of everybody else in the table of the calls. -/
def pendingStep (peer : Peer κ β) (action : Pending.EnvAction) : Option (Peer κ β) :=
  (Pending.env peer.calls.shared action).map fun shared => { peer with calls := { peer.calls with shared := shared } }

/-- One step of a session between the wire out and the wire in. -/
def step (peer : Peer κ β) (out inc : Wire β) : PeerAction κ → Option (Peer κ β × Wire β × Wire β)
  | .call id action =>
    (callStep id (asked id) (peer.pushed id) action).bind fun action =>
      ((Pending.threads encode).step peer.calls (.act id action)).map fun calls => ({ peer with calls := calls }, out, inc)
  | .push id =>
    if peer.pushed id = false ∧ peer.calls.locals id matches .sending _ then
      (put encode out ((asked id).frame id)).map fun out =>
        ({ peer with pushed := Function.update peer.pushed id true }, out, inc)
    else none
  | .notify id event payload => (put encode out (.event id event (some payload))).map fun out => (peer, out, inc)
  | .pushReply index i => (pushReply encode peer out index i).map fun r => (r.1, r.2, inc)
  | .recv =>
    match peer.reader, peer.calls.shared.taken with
    | .receiving, none => inc.recv.map fun r => ({ peer with reader := .holding r.1 }, out, r.2)
    | _, _ => none
  | .recvEnds =>
    match peer.reader, peer.calls.shared.taken with
    | .receiving, none => some ({ peer with reader := .ended }, out, inc)
    | _, _ => none
  | .handle =>
    match peer.reader with
    | .holding data => (handleData decode peer data).map fun peer => (peer, out, inc)
    | _ => none
  | .deliver => (peer.pendingStep .deliver).map fun peer => (peer, out, inc)
  | .pop =>
    match peer.dispatcher with
    | .receiving =>
      peer.dispatch.recv.map fun r =>
        (if peer.stop || peer.calls.shared.closing then peer.endDispatcher else peer.take r.1 r.2, out, inc)
    | _ => none
  | .handled =>
    match peer.dispatcher with
    | .receiving | .ended => none
    | .handlingEvent => some ({ peer with dispatcher := .receiving }, out, inc)
    | .handlingRequest index =>
      match peer.inbound[index]? with
      | some entry =>
        if hasReturned entry.reply then some ({ peer with dispatcher := .receiving }, out, inc) else none
      | none => none
  | .dispatcherEnds => if peer.mayEnd then some (peer.endDispatcher, out, inc) else none
  | .reply index action => (replyStep encode peer index action).map fun peer => (peer, out, inc)
  | .requestStop => some ({ peer with stop := true }, out, inc)
  | .beginShutdown =>
    if peer.stop then (peer.pendingStep .beginShutdown).map fun peer => (peer, out, inc) else none
  | .failPending => (peer.pendingStep .failPending).map fun peer => (peer, out, inc)

/-- A session before anything has happened. -/
def initial : Peer κ β where
  calls := { shared := { closing := false, pending := [], channel := fun _ => .empty, taken := none }, locals := fun _ => .idle }
  pushed _ := false
  stop := false
  reader := .receiving
  dispatch := .empty
  dispatcher := .receiving
  inbound := []

end Peer

/-! ## What is asked of a run -/

/-- What the session relies on of an envelope codec: a frame that was encoded is decoded to one of its kind that carries
its id, and a response that of its request. -/
structure Carries (encode : ControlFrame → Except Error β) (decode : β → Option ControlFrame) : Prop where
  request : ∀ id (asked : Asked) data, encode (asked.frame id) = .ok data →
    ∃ frame, decode data = some frame ∧ frame.kind = .request ∧ frame.id = id
  event : ∀ id event payload data, encode (.event id event (some payload)) = .ok data →
    ∃ frame, decode data = some frame ∧ frame.kind = .event
  response : ∀ sent data, sent.kind = .response → encode sent = .ok data →
    ∃ frame, decode data = some frame ∧ frame.kind = .response ∧ frame.correlationId = sent.correlationId

/-- `encode` of a generated codec, for the declarations in which no names clash. -/
def encodeText (tables : Tables) (frame : ControlFrame) : Except Error Value :=
  match encodeWith tables frame with
  | .error err => .error err
  | .ok json => if h : json.wellFormed = true then .ok ⟨json, h⟩ else .error (.envelope "a key is repeated")

/-- `decode` of a generated codec. -/
def decodeText (tables : Tables) (data : Value) : Option ControlFrame :=
  data.asObject.bind fun object => (tables.decode object).toOption

end Rtvbp.Rust.Conversation
