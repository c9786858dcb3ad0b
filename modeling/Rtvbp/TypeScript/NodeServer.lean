import Rtvbp.TypeScript.WebSocket
import Mathlib.Logic.Function.Basic

/-!
# The Node server

`NodeWebSocketServer` of `sdk/typescript/src/node.ts`: `#accept` for every connection, with the session over
its transport, and any number of calls of `close`. The code between two `await`s is one step. An event of
a socket is seen by the listeners that are attached when it is emitted: those of `NodeSocketAdapter` are
attached after `createHandler` has settled, and an `error` without a listener is thrown.

The application settles the promise of `createHandler` when it likes. The sockets, the application and the
tasks of the sessions are the environment; `WebSocketServer.close` stops accepting and leaves the sockets of
the clients alone.
-/

namespace Rtvbp.TypeScript.NodeServer

open Rtvbp.Lib

/-! ## The state -/

/-- The part of `NodeWebSocketServerConfig` that is read here. -/
structure Config where
  allowHeaderless : Bool
  /-- The audio format passes `mediaFrameBytes`, or there is none. -/
  validFormat : Bool

/-- `#accept` of a connection. -/
inductive Accept where
  | absent
  /-- The headerless socket has been closed. -/
  | refused
  /-- The promise of `createHandler` is pending. -/
  | creating
  /-- It is fulfilled, or rejected, and `#accept` has not gone on. -/
  | created
  | rejected
  /-- The session runs. -/
  | running
  /-- `onSession` has thrown: the session is registered and does not run. -/
  | unrun
  /-- There is no session, and the socket has been closed. -/
  | failed
  deriving DecidableEq

/-- `createHandler` has not been answered. -/
def Accept.early : Accept → Bool
  | .creating | .created | .rejected => true
  | _ => false

/-- There is a session over its transport. -/
def Accept.hasSession : Accept → Bool
  | .running | .unrun => true
  | _ => false

/-- A message with its data. -/
inductive Message (μ : Type) where
  | text (m : μ)
  | binary (m : μ)

/-- What a socket emits. -/
inductive Event (μ : Type) where
  | message (m : Message μ)
  | pong
  | error (error : WebSocket.Thrown)
  | close

/-- A connection. -/
structure Connection (μ : Type) where
  accept : Accept
  session : WebSocket.State μ
  /-- The socket has emitted `close`. -/
  socketClosed : Bool
  /-- History: the messages that the socket emitted while there was no transport or an open one, and those
  that went to a queue. -/
  emitted : List (Message μ)
  delivered : List (Message μ)
  /-- History: an `error` was emitted during `createHandler`, and nobody listened. -/
  unhandled : Bool

/-- A call of `close`, with the sessions that it waits for. -/
inductive Caller (κ : Type) where
  | idle
  | waiting (sessions : List κ)
  /-- Waiting for `server.close`. -/
  | closingServer
  | returned

/-- The server with the connections `κ` and the calls `ι` of `close`. -/
structure State (ι κ μ : Type) where
  /-- The listener accepts connections. -/
  accepting : Bool
  /-- `#sessions`, in the order of insertion. -/
  sessions : List κ
  connection : κ → Connection μ
  caller : ι → Caller κ
  /-- History: a call of `close` has taken its snapshot. -/
  closing : Bool

inductive Action (ι κ μ : Type) where
  /-- The `connection` event of a socket, with a profile or without. -/
  | connect (k : κ) (headerless : Bool)
  /-- The promise of `createHandler` settles. -/
  | resolve (k : κ)
  | reject (k : κ)
  /-- `#accept` goes on after `createHandler`; `throws` tells whether `onSession` does. -/
  | accept (k : κ) (throws : Bool)
  /-- The `catch` block of `#accept`. -/
  | fail (k : κ)
  | emit (k : κ) (event : Event μ)
  /-- A step of a session, other than `run` and the events of its socket. -/
  | session (k : κ) (a : WebSocket.Action μ)
  /-- The promise of `run` has settled, and the session is deleted. -/
  | forget (k : κ)
  /-- `close` is called: the snapshot. -/
  | close (i : ι)
  /-- The sessions of the snapshot have settled, and `server.close` is called. -/
  | settled (i : ι)
  | serverClosed (i : ι)

/-! ## The steps -/

/-- The transport of a session and its keepalive, which the server leaves off. -/
def sessionConfig : Supervise.Config := ⟨some ⟨true, true, false⟩, false⟩

variable {ι κ μ : Type}

/-- The capacity of the queues of a transport. -/
def inboundCapacity : Nat := 256

/-- A session over a new transport. -/
def newSession : WebSocket.State μ := WebSocket.initial inboundCapacity (by decide)

/-- A session after a step that is possible. -/
def after (s : WebSocket.State μ) (a : WebSocket.Action μ) : WebSocket.State μ :=
  (WebSocket.step sessionConfig s a).getD s

/-- The step of a session is not one of the server or of the socket. -/
def ofSession : WebSocket.Action μ → Bool
  | .session .run | .text _ | .binary _ | .closes _ => false
  | _ => true

/-- The step of the transport for a message. -/
def Message.action : Message μ → WebSocket.Action μ
  | .text m => .text m
  | .binary m => .binary m

namespace Connection

variable (c : Connection μ)

/-- The transport takes the messages of the socket. -/
def listens : Bool := c.accept.hasSession && c.session.attached

/-- The queue of the message admits it. -/
def admits : Message μ → Bool
  | .text m => (c.session.controls.arrive m).isSome
  | .binary m => (c.session.binary.arrive m).isSome

/-- The socket emits a message. -/
def receive (m : Message μ) : Connection μ :=
  if c.accept.early then { c with emitted := c.emitted ++ [m] }
  else if c.listens then
    { c with
      emitted := c.emitted ++ [m]
      delivered := if c.admits m then c.delivered ++ [m] else c.delivered
      session := after c.session m.action }
  else c

/-- The socket reports its end to the transport. -/
def ends (error : Option WebSocket.Thrown) : Connection μ :=
  if c.listens then { c with session := after c.session (.closes error) } else c

/-- The socket emits an event. -/
def emit : Event μ → Connection μ
  | .message m => c.receive m
  | .pong => c
  | .error error => { c.ends (some error) with unhandled := c.unhandled || c.accept.early }
  | .close => { c.ends none with socketClosed := true }

/-- The listeners are attached and the session is made; it runs unless `onSession` throws. -/
def start (throws : Bool) : Connection μ :=
  { c with
    accept := if throws then .unrun else .running
    session := if throws then newSession else after newSession (.session .run) }

end Connection

variable [DecidableEq ι] [DecidableEq κ]

def State.set (s : State ι κ μ) (k : κ) (c : Connection μ) : State ι κ μ :=
  { s with connection := Function.update s.connection k c }

def State.setAccept (s : State ι κ μ) (k : κ) (a : Accept) : State ι κ μ :=
  s.set k { s.connection k with accept := a }

def State.setCaller (s : State ι κ μ) (i : ι) (c : Caller κ) : State ι κ μ :=
  { s with caller := Function.update s.caller i c }

/-- `session.close()`, up to its `await`: a session that does not run rejects. -/
def Connection.close (c : Connection μ) : Connection μ :=
  if c.accept = .running then { c with session := after c.session (.session (.stop none false)) } else c

/-- Waiting for the session is over: it has ended, or it has never run. -/
def Connection.hasSettled (c : Connection μ) : Bool :=
  c.accept ≠ .running || c.session.session.pc = .done

/-- One step. -/
def step (config : Config) (s : State ι κ μ) : Action ι κ μ → Option (State ι κ μ)
  | .connect k headerless =>
    if s.accepting ∧ (s.connection k).accept = .absent then
      some (s.setAccept k (if headerless ∧ ¬ config.allowHeaderless then .refused else .creating))
    else none
  | .resolve k =>
    match (s.connection k).accept with
    | .creating => some (s.setAccept k .created)
    | _ => none
  | .reject k =>
    match (s.connection k).accept with
    | .creating => some (s.setAccept k .rejected)
    | _ => none
  | .accept k throws =>
    match (s.connection k).accept with
    | .created =>
      some (if config.validFormat then
          { s with sessions := s.sessions ++ [k] }.set k ((s.connection k).start throws)
        else s.setAccept k .failed)
    | _ => none
  | .fail k =>
    match (s.connection k).accept with
    | .rejected => some (s.setAccept k .failed)
    | _ => none
  | .emit k event =>
    if (s.connection k).accept ≠ .absent ∧ (s.connection k).socketClosed = false then
      some (s.set k ((s.connection k).emit event))
    else none
  | .session k a =>
    if (s.connection k).accept.hasSession ∧ ofSession a then
      (WebSocket.step sessionConfig (s.connection k).session a).map fun session =>
        s.set k { s.connection k with session }
    else none
  | .forget k =>
    if k ∈ s.sessions ∧ (s.connection k).session.session.pc = .done then
      some { s with sessions := s.sessions.erase k }
    else none
  | .close i =>
    match s.caller i with
    | .idle =>
      some ({ s with
        closing := true
        connection := fun k =>
          if k ∈ s.sessions then (s.connection k).close else s.connection k }.setCaller i (.waiting s.sessions))
    | _ => none
  | .settled i =>
    match s.caller i with
    | .waiting sessions =>
      if sessions.all fun k => (s.connection k).hasSettled then
        some ({ s with accepting := false }.setCaller i .closingServer)
      else none
    | _ => none
  | .serverClosed i =>
    match s.caller i with
    | .closingServer => some (s.setCaller i .returned)
    | _ => none

/-- A server that listens. -/
def listening : State ι κ μ where
  accepting := true
  sessions := []
  connection _ := ⟨.absent, newSession, false, [], [], false⟩
  caller _ := .idle
  closing := false

/-- The server as a machine. -/
def machine (ι κ μ : Type) [DecidableEq ι] [DecidableEq κ] (config : Config) :
    Machine (State ι κ μ) (Action ι κ μ) where
  Start s := s = listening
  step := step config

/-! ## What is asked of a run -/

/-- No early event of the socket is lost: the messages it emitted while there was no transport or an open
one went to the queues, in their order, the transport of a closed socket has ended, and no error was emitted
during `createHandler` without a listener. -/
structure Connection.Kept (c : Connection μ) : Prop where
  messages : c.accept.hasSession = true → c.delivered = c.emitted
  closed : c.accept.hasSession = true → c.socketClosed = true → c.session.attached = false
  errors : c.unhandled = false

/-- The step attaches the listeners to a socket that has emitted neither a message nor its close, it is no
error during `createHandler`, and no message that finds its queue full. -/
def InTime (config : Config) (s : State ι κ μ) : Action ι κ μ → Prop
  | .accept k _ =>
    config.validFormat = true →
      (s.connection k).emitted = [] ∧ (s.connection k).socketClosed = false
  | .emit k (.error _) => (s.connection k).accept.early = false
  | .emit k (.message m) => (s.connection k).listens = true → (s.connection k).admits m = true
  | _ => True

instance (config : Config) (s : State ι κ μ) : DecidablePred (InTime config s) := fun a => by
  unfold InTime
  split <;> infer_instance

/-- A call of `close` has taken its snapshot, and a session that nobody has asked to stop is active. -/
def State.Left (s : State ι κ μ) : Prop :=
  s.closing = true ∧ ∃ k, (s.connection k).accept = .running ∧
    (s.connection k).session.session.life.state = .active ∧ (s.connection k).session.aborted = false

/-- No session begins to run after the snapshot of a call of `close`. -/
def BeforeClose (config : Config) (s : State ι κ μ) : Action ι κ μ → Prop
  | .accept _ false => config.validFormat = true → s.closing = false
  | _ => True

instance (config : Config) (s : State ι κ μ) : DecidablePred (BeforeClose config s) := fun a => by
  unfold BeforeClose
  split <;> infer_instance

end Rtvbp.TypeScript.NodeServer
