import Rtvbp.Go.Pending
import Rtvbp.Go.Reply
import Rtvbp.Lib.Mailbox

/-!
# Two sessions

Two sessions of the Go SDK at the ends of one transport. Each makes requests of the other and handles those of the
other, with the pending requests of `sdk/go/session_request.go`, the reader and the dispatcher of
`sdk/go/session_control.go`, and the replies of `sdk/go/handler.go`. The goroutines of both sides take their steps in
any order, and a `Send` puts its frame on the wire at any time between its call and its return.

A call is known by the id that its id generator returned, which never returns an id twice.
-/

namespace Rtvbp.Go.Conversation

open Rtvbp.Lib Rtvbp.Envelope.Go
open Rtvbp.Go.Reply (Error Response Call CallAction EnvAction)

/-- What a call of `Request` asks. -/
structure Asked where
  method : String
  payload : RawMessage

/-- The frame of `Request`. -/
def Asked.frame (id : String) (asked : Asked) : ControlFrame :=
  { Kind := .request, ID := id, CorrelID := "", Method := asked.method, Payload := asked.payload, Err := none }

/-- The frame of `EventDispatch`. -/
def eventFrame (id name : String) (payload : RawMessage) : ControlFrame :=
  { Kind := .event, ID := id, CorrelID := "", Method := name, Payload := payload, Err := none }

/-- The response that `resolvePending` makes of a frame. -/
def responseOf (frame : ControlFrame) : Response := { Payload := frame.Payload, Err := frame.Err }

/-- The program counter of `readControl`. -/
inductive ReaderPc (β : Type) where
  | receiving
  | holding (data : β)
  | ended

/-- The program counter of `dispatchControl`. -/
inductive DispatcherPc where
  | popping
  | handlingEvent
  /-- In `handleRequest` for this one of the inbound requests. -/
  | handlingRequest (index : Nat)

/-- A request that the dispatcher has taken. -/
structure Inbound (κ : Type) where
  frame : ControlFrame
  reply : Reply.State κ
  /-- `Send` has put its response on the wire. -/
  pushed : Bool

/-- A session; `β` are the messages on the wire, and `κ` the calls of `Respond` for a request. -/
structure Peer (κ β : Type) where
  calls : Pending.State String Response Error
  /-- `Send` has put the frame of the call on the wire. -/
  pushed : String → Bool
  reader : ReaderPc β
  dispatch : Wire ControlFrame
  dispatcher : DispatcherPc
  inbound : List (Inbound κ)

/-- What can happen next in a session. -/
inductive PeerAction (κ : Type) where
  | call (id : String) (action : Pending.CallAction Error)
  /-- `Send` of a call of `Request`, of `EventDispatch`, and of the response to an inbound request, by the call of
  `Respond` that has claimed it. -/
  | push (id : String)
  | notify (id name : String) (payload : RawMessage)
  | pushReply (index : Nat) (i : Option κ)
  /-- `Recv` returns a message, or an error; the message is handled. -/
  | recv
  | recvEnds
  | handle
  /-- The dispatcher pops a frame, and its handler returns. -/
  | pop
  | handled
  | reply (index : Nat) (action : Threads.Action (Option κ) CallAction EnvAction)
  /-- The supervisor and the callers of `requestStop`. -/
  | connect
  | requestStop
  | beginShutdown
  | failPending (cause : Error)
  | closeDispatch

variable {κ β : Type} [DecidableEq κ]

/-- `handleRequest` has returned. -/
def hasReturned (reply : Reply.State κ) : Bool :=
  match reply.shared.phase, reply.locals none with
  | .returned, _ => true
  | .answering _, .returned _ => true
  | _, _ => false

/-- A reply sees the closing flag of its session. -/
def sync (closing : Bool) (reply : Reply.State κ) : Reply.State κ :=
  if closing then { reply with shared := { reply.shared with closing := true } } else reply

/-- A request that the dispatcher takes. -/
def Inbound.take (closing : Bool) (frame : ControlFrame) : Inbound κ where
  frame := frame
  reply :=
    { shared := { status := .unclaimed, closing := closing, phase := .handling, handed := [], owner := none }
      locals := fun _ => .idle }
  pushed := false

/-- The error with which `Encode` refuses a frame. -/
def encodeError? (encode : ControlFrame → Except Error β) (frame : ControlFrame) : Option Error :=
  match encode frame with
  | .error err => some err
  | .ok _ => none

/-- The step of a call of `Request` whose frame is on the wire or not: `Encode` decides how `sendFrame` begins, and
`Send` succeeds if the frame is on the wire. -/
def callStep (encode : ControlFrame → Except Error β) (frame : ControlFrame) (pushed : Bool) :
    Pending.CallAction Error → Option (Pending.CallAction Error)
  | .beginSend _ => some (.beginSend (encodeError? encode frame))
  | .sendReturns err => if err.isNone = pushed then some (.sendReturns err) else none
  | action => some action

/-- The calls of `Respond` for a request may take this step: `Send` succeeds if the frame is on the wire. -/
def mayReply (pushed : Bool) : Threads.Action (Option κ) CallAction EnvAction → Bool
  | .act _ (.sendReturns err) => err.isNone = pushed
  | _ => true

/-- The call of `Respond` is in `Send`. -/
def inSend : Call → Bool
  | .sending _ => true
  | _ => false

namespace Peer

variable (encode : ControlFrame → Except Error β) (decode : β → Option ControlFrame) (asked : String → Asked)

/-- A frame is put on the wire. -/
def put (out : Wire β) (frame : ControlFrame) : Option (Wire β) :=
  match encode frame with
  | .ok data => out.send data
  | .error _ => none

/-- The message is decoded and handled; a frame that does not decode is dropped. -/
def handleData (peer : Peer κ β) (data : β) : Option (Peer κ β) :=
  match decode data with
  | none => some { peer with reader := .receiving }
  | some frame =>
    if frame.Kind = .response then
      (Pending.step Reply.errSessionClosed peer.calls (.response frame.CorrelID (responseOf frame))).map
        fun calls => { peer with calls := calls, reader := .receiving }
    else
      match peer.dispatch.send frame with
      | some dispatch => some { peer with dispatch := dispatch, reader := .receiving }
      | none => some { peer with reader := .ended }

/-- The dispatcher takes a frame. -/
def take (peer : Peer κ β) (frame : ControlFrame) (dispatch : Wire ControlFrame) : Peer κ β :=
  if frame.Kind = .request then
    { peer with
      dispatch := dispatch
      dispatcher := .handlingRequest peer.inbound.length
      inbound := peer.inbound ++ [.take peer.calls.closing frame] }
  else { peer with dispatch := dispatch, dispatcher := .handlingEvent }

/-- A step of the calls for an inbound request. -/
def replyStep (peer : Peer κ β) (index : Nat) (action : Threads.Action (Option κ) CallAction EnvAction) :
    Option (Peer κ β) :=
  match peer.inbound[index]? with
  | none => none
  | some entry =>
    if mayReply entry.pushed action then
      ((Reply.threads encode entry.frame.ID).step (sync peer.calls.closing entry.reply) action).map fun reply =>
        { peer with
          calls := { peer.calls with closing := peer.calls.closing || reply.shared.closing }
          inbound := peer.inbound.set index { entry with reply := reply } }
    else none

/-- The response of an inbound request is put on the wire. -/
def pushReply (peer : Peer κ β) (out : Wire β) (index : Nat) (i : Option κ) : Option (Peer κ β × Wire β) :=
  match peer.inbound[index]? with
  | none => none
  | some entry =>
    match entry.reply.shared.handed with
    | [frame] =>
      if entry.pushed = false ∧ inSend (entry.reply.locals i) then
        (put encode out frame).map fun out =>
          ({ peer with inbound := peer.inbound.set index { entry with pushed := true } }, out)
      else none
    | _ => none

/-- One step of a session between the wire out and the wire in. -/
def step (peer : Peer κ β) (out inc : Wire β) : PeerAction κ → Option (Peer κ β × Wire β × Wire β)
  | .call id action =>
    (callStep encode ((asked id).frame id) (peer.pushed id) action).bind fun action =>
      (Pending.step Reply.errSessionClosed peer.calls (.call id action)).map fun calls =>
        ({ peer with calls := calls }, out, inc)
  | .push id =>
    if peer.pushed id = false ∧ (peer.calls.calls id).pc matches .sending then
      (put encode out ((asked id).frame id)).map fun out =>
        ({ peer with pushed := Function.update peer.pushed id true }, out, inc)
    else none
  | .notify id name payload => (put encode out (eventFrame id name payload)).map fun out => (peer, out, inc)
  | .pushReply index i => (pushReply encode peer out index i).map fun r => (r.1, r.2, inc)
  | .recv =>
    match peer.reader with
    | .receiving => inc.recv.map fun r => ({ peer with reader := .holding r.1 }, out, r.2)
    | _ => none
  | .recvEnds =>
    match peer.reader with
    | .receiving =>
      if inc.ended || peer.calls.shutdown then some ({ peer with reader := .ended }, out, inc) else none
    | _ => none
  | .handle =>
    match peer.reader with
    | .holding data => (handleData decode peer data).map fun peer => (peer, out, inc)
    | _ => none
  | .pop =>
    match peer.dispatcher with
    | .popping =>
      if peer.dispatch.closed then none
      else peer.dispatch.recv.map fun r => (take peer r.1 r.2, out, inc)
    | _ => none
  | .handled =>
    match peer.dispatcher with
    | .popping => none
    | .handlingEvent => some ({ peer with dispatcher := .popping }, out, inc)
    | .handlingRequest index =>
      match peer.inbound[index]? with
      | some entry =>
        if hasReturned entry.reply then some ({ peer with dispatcher := .popping }, out, inc) else none
      | none => none
  | .reply index action => (replyStep encode peer index action).map fun peer => (peer, out, inc)
  | .connect =>
    (Pending.step Reply.errSessionClosed peer.calls .connect).map fun calls =>
      ({ peer with calls := calls }, out, inc)
  | .requestStop =>
    (Pending.step Reply.errSessionClosed peer.calls .requestStop).map fun calls =>
      ({ peer with calls := calls }, out, inc)
  | .beginShutdown =>
    (Pending.step Reply.errSessionClosed peer.calls .beginShutdown).map fun calls =>
      ({ peer with calls := calls }, out, inc)
  | .failPending cause =>
    (Pending.step Reply.errSessionClosed peer.calls (.failPending cause)).map fun calls =>
      ({ peer with calls := calls }, out, inc)
  | .closeDispatch => some ({ peer with dispatch := peer.dispatch.discard }, out, inc)

/-- A session before anything has happened. -/
def initial : Peer κ β where
  calls := Pending.initial
  pushed _ := false
  reader := .receiving
  dispatch := .empty
  dispatcher := .popping
  inbound := []

end Peer

/-! ## Both sessions -/

/-- Two sessions, and the wires out of them. -/
structure State (κ β : Type) where
  peer : Bool → Peer κ β
  wire : Bool → Wire β

/-- What can happen next. -/
inductive Action (κ : Type) where
  | peer (p : Bool) (action : PeerAction κ)
  /-- `Close` of the transport of either side closes a wire. -/
  | closeWire (p : Bool)

/-- One step: a session sends on its own wire, and receives on that of the other. -/
def step (encode : ControlFrame → Except Error β) (decode : β → Option ControlFrame) (asked : Bool → String → Asked)
    (s : State κ β) : Action κ → Option (State κ β)
  | .peer p action =>
    ((s.peer p).step encode decode (asked p) (s.wire p) (s.wire !p) action).map fun r =>
      { peer := Function.update s.peer p r.1
        wire := Function.update (Function.update s.wire p r.2.1) (!p) r.2.2 }
  | .closeWire p => some { s with wire := Function.update s.wire p (s.wire p).close }

/-- Both sessions before anything has happened. -/
def initial : State κ β where
  peer _ := .initial
  wire _ := .empty

/-- The runs of both sessions. -/
def machine (encode : ControlFrame → Except Error β) (decode : β → Option ControlFrame)
    (asked : Bool → String → Asked) : Machine (State κ β) (Action κ) where
  Start s := s = initial
  step := step encode decode asked

/-! ## What is asked of a run -/

/-- What the sessions rely on of an envelope codec: a frame that was encoded is decoded to one of its kind that
carries its id, and a response that of its request. -/
structure Carries (encode : ControlFrame → Except Error β) (decode : β → Option ControlFrame) : Prop where
  request : ∀ id (asked : Asked) data, encode (asked.frame id) = .ok data →
    ∃ frame, decode data = some frame ∧ frame.Kind = .request ∧ frame.ID = id
  event : ∀ id name payload data, encode (eventFrame id name payload) = .ok data →
    ∃ frame, decode data = some frame ∧ frame.Kind = .event
  response : ∀ sent data, sent.Kind = .response → encode sent = .ok data →
    ∃ frame, decode data = some frame ∧ frame.Kind = .response ∧ frame.CorrelID = sent.CorrelID

/-- `Encode` of a generated codec, for the frames in whose raw messages no object repeats a key. -/
def encodeText (tables : Tables) (frame : ControlFrame) : Except Error Value :=
  match Reply.encodeWith tables frame with
  | .error err => .error err
  | .ok json => if h : json.wellFormed = true then .ok ⟨json, h⟩ else .error ⟨"a key is repeated", none⟩

/-- `Decode` of a generated codec. -/
def decodeText (tables : Tables) (data : Value) : Option ControlFrame :=
  data.asObject.bind fun object => (tables.decode object).toOption

/-- The frames for the dispatcher in these messages. -/
def dispatchable (decode : β → Option ControlFrame) (data : List β) : List ControlFrame :=
  (data.filterMap decode).filter fun frame => frame.Kind ≠ .response

/-- The ids of the requests in these messages. -/
def requestIds (decode : β → Option ControlFrame) (data : List β) : List String :=
  ((data.filterMap decode).filter fun frame => frame.Kind = .request).map ControlFrame.ID

/-- The ids of the requests that the responses in these messages answer. -/
def responseIds (decode : β → Option ControlFrame) (data : List β) : List String :=
  ((data.filterMap decode).filter fun frame => frame.Kind = .response).map ControlFrame.CorrelID

/-- The response is what the peer reads in the frame that a call of `Respond` for this request has handed to `Send`. -/
def Inbound.Gives (encode : ControlFrame → Except Error β) (decode : β → Option ControlFrame) (entry : Inbound κ)
    (response : Response) : Prop :=
  ∃ sent data frame, entry.reply.shared.handed = [sent] ∧ encode sent = .ok data ∧ decode data = some frame ∧
    response = responseOf frame

/-- What holds between a session that makes requests and the one that handles them, with the wires out of them. -/
structure Sound (encode : ControlFrame → Except Error β) (decode : β → Option ControlFrame) (asked : String → Asked)
    (caller responder : Peer κ β) (requests responses : Wire β) : Prop where
  /-- The dispatcher takes the requests and events in the order in which they were sent, and leaves none out. -/
  in_order : responder.dispatch.received <+: dispatchable decode requests.sent
  /-- Every request that is handled is what the call of its id asked, as the peer reads it. -/
  authentic : ∀ entry ∈ responder.inbound, caller.pushed entry.frame.ID = true ∧ ∃ data,
    encode ((asked entry.frame.ID).frame entry.frame.ID) = .ok data ∧ decode data = some entry.frame
  /-- No request is handled twice, and at most one response to it is sent. -/
  handled_once : (responder.inbound.map fun entry => entry.frame.ID).Nodup
  answered_once : (responseIds decode responses.sent).Nodup
  /-- A call that returns a response returns that of the one handling of its own request. -/
  answered : ∀ id response, (caller.calls.calls id).pc = .returned (.response response) →
    ∃! entry, entry ∈ responder.inbound ∧ entry.frame.ID = id ∧ entry.Gives encode decode response

end Rtvbp.Go.Conversation
