import Rtvbp.Go.Supervise
import Mathlib.Logic.Function.Basic
import Mathlib.Data.List.Perm.Basic

/-!
# The WebSocket server

`Server` of `sdk/go/transport/ws/server.go`: `serverUpgradeHandler` for every connection, with the session
that it runs, and any number of calls of `Shutdown`. A section under the mutex of the server is one step.
The key of a session in the registry is its connection, as the ids of sessions are distinct.

A session is the supervisor with the WebSocket transport that its factory makes. The factory makes the
transport and hands it to the decorator `AcceptedTransport`, which may take any time; a factory that
returns after the supervisor has given up closes its transport itself. The network, the application and
`http.Server` are the environment.
-/

namespace Rtvbp.Go.Server

open Rtvbp.Lib

variable {ε : Type}

/-! ## A session and its transport -/

/-- The WebSocket transport of a session. -/
inductive Socket where
  | unmade
  | opened
  /-- `Close` has returned. -/
  | closed
  deriving DecidableEq

/-- The transport after `Close`, if there is one. -/
def Socket.close : Socket → Socket
  | .unmade => .unmade
  | _ => .closed

/-- A session of the server. -/
structure Session (ε : Type) where
  supervisor : Supervise.State ε
  transport : Socket
  /-- The supervisor has given up waiting for the factory. -/
  abandoned : Bool

inductive SessionAction (ε : Type) where
  /-- A step of the supervisor, other than `Run`, or of what acts on it. -/
  | supervise (a : Supervise.Action ε)
  /-- `NewTransport` in the factory. -/
  | newTransport
  /-- The factory has returned to nobody, and the transport is closed. -/
  | lateCloses

/-- What a step of the supervisor does to the transport. A factory that fails has closed it. -/
def Socket.after (x : Socket) : Supervise.Action ε → Socket
  | .factoryReturns result => if result.transport then x else x.close
  | .partialCloses _ | .canceledCloses _ | .transportCloses _ => .closed
  | _ => x

/-- The step lets the factory go. -/
def abandons : Supervise.Action ε → Bool
  | .joinTimeout => true
  | _ => false

/-- The factory returns the transport that it has made; the handler alone calls `Run`. -/
def Session.allows (x : Session ε) : Supervise.Action ε → Bool
  | .run => false
  | .factoryReturns result => result.transport → x.transport = .opened
  | _ => true

/-- The goroutine of the factory runs. -/
def Session.constructing (x : Session ε) : Bool :=
  x.supervisor.pc.constructing && x.supervisor.factory.isNone || x.abandoned

/-- One step of a session. -/
def sessionStep [DecidableEq ε] (config : Supervise.Config) (is : ε → ε → Bool) (canceled : ε)
    (x : Session ε) : SessionAction ε → Option (Session ε)
  | .supervise a =>
    if x.allows a then
      (Supervise.step config is canceled x.supervisor a).map fun supervisor =>
        ⟨supervisor, x.transport.after a, x.abandoned || abandons a⟩
    else none
  | .newTransport =>
    if x.transport = .unmade ∧ x.constructing then some { x with transport := .opened } else none
  | .lateCloses =>
    if x.transport = .opened ∧ x.abandoned then some { x with transport := .closed } else none

/-! ## The state of the server -/

/-- `serverUpgradeHandler` for a connection. -/
inductive Handler where
  | absent
  /-- Before `beginAdmission`. -/
  | entered
  /-- Answered with `StatusServiceUnavailable`. -/
  | refused
  /-- In `AuthHandler` or in the upgrade. -/
  | admitted
  /-- Before `Run`. -/
  | upgraded
  /-- Before `addSession`. -/
  | running
  /-- Before `Close` of a session that was not added. -/
  | rejecting
  /-- In `Close`. -/
  | closing
  /-- Before `endAdmission`. -/
  | added
  /-- Waiting for the session. -/
  | serving
  /-- Before `removeSession`. -/
  | removing
  /-- Before the deferred `endAdmission`. -/
  | leaving
  | over

/-- A call of `Shutdown`; `failed` tells whether `closeErr` or `httpErr` is set. -/
inductive Caller (κ : Type) where
  | idle
  /-- Before `Close` of the first of the sessions. -/
  | closing (sessions : List κ) (admissionIdle : Option Nat) (failed : Bool)
  /-- In `Close` of the first of the sessions. -/
  | waiting (sessions : List κ) (admissionIdle : Option Nat) (failed : Bool)
  /-- In `http.Shutdown`. -/
  | http (admissionIdle : Option Nat) (failed : Bool)
  /-- Before the end, with the channel that is left to wait for. -/
  | draining (admissionIdle : Option Nat) (failed : Bool)
  | returned (failed : Bool)

/-- The server with the connections `κ` and the calls `ι` of `Shutdown`. A channel `admissionIdle` is a
number: `channels` were made. -/
structure State (ι κ ε : Type) where
  sessions : List κ
  shuttingDown : Bool
  admissions : Nat
  admissionIdle : Option Nat
  channels : Nat
  closedChannels : List Nat
  handler : κ → Handler
  session : κ → Session ε
  caller : ι → Caller κ
  /-- The context of the call has ended. -/
  ctxDone : ι → Bool
  /-- History: the connections that `admissions` counts. -/
  inFlight : List κ

inductive HandlerAction where
  /-- A request comes in. -/
  | enter
  | beginAdmission
  /-- The request is not authorized, or the upgrade fails. -/
  | fails
  | upgrade
  | run
  | addSession
  | close
  /-- `Close` returns. -/
  | closed
  | endAdmission
  /-- The result of the session is received. -/
  | done
  | removeSession

inductive CallerAction (κ : Type) where
  /-- The section of `Shutdown`; the sessions are taken in some order. -/
  | shutdown (sessions : List κ)
  /-- `Close` of the next session is called. -/
  | close
  /-- `Close` returns: the session is finalized, or the context has ended. -/
  | closed
  | expired
  /-- The sessions are all closed. -/
  | closedAll
  /-- `http.Shutdown` returns, with an error or not. -/
  | http (failed : Bool)
  /-- The admissions are idle, or the context has ended. -/
  | drained
  | drainExpired

inductive Action (ι κ ε : Type) where
  | handler (k : κ) (a : HandlerAction)
  | session (k : κ) (a : SessionAction ε)
  | caller (i : ι) (a : CallerAction κ)
  | ctxEnds (i : ι)

/-! ## The steps -/

variable {ι κ : Type} [DecidableEq ι] [DecidableEq κ] [DecidableEq ε]

def State.setHandler (s : State ι κ ε) (k : κ) (h : Handler) : State ι κ ε :=
  { s with handler := Function.update s.handler k h }

def State.setSession (s : State ι κ ε) (k : κ) (x : Session ε) : State ι κ ε :=
  { s with session := Function.update s.session k x }

def State.setCaller (s : State ι κ ε) (i : ι) (c : Caller κ) : State ι κ ε :=
  { s with caller := Function.update s.caller i c }

/-- `requestStop(nil, false)` of a session. -/
def State.requestStop (s : State ι κ ε) (k : κ) : State ι κ ε :=
  s.setSession k { s.session k with supervisor := (s.session k).supervisor.requestStop .empty }

/-- `beginAdmission` of a server that is not shutting down. -/
def State.beginAdmission (s : State ι κ ε) (k : κ) : State ι κ ε :=
  { s with
    admissionIdle := if s.admissions = 0 then some s.channels else s.admissionIdle
    channels := if s.admissions = 0 then s.channels + 1 else s.channels
    admissions := s.admissions + 1
    inFlight := k :: s.inFlight }

/-- The function that `beginAdmission` returns, when it is called first. -/
def State.endAdmission (s : State ι κ ε) (k : κ) : State ι κ ε :=
  { s with
    admissions := s.admissions - 1
    closedChannels :=
      if s.admissions = 1 then s.admissionIdle.toList ++ s.closedChannels else s.closedChannels
    inFlight := s.inFlight.erase k }

/-- The session has been finalized. -/
def Session.finalized (x : Session ε) : Bool := x.supervisor.finalizedCloses ≠ 0

/-- One step of the handler. -/
def handlerStep (s : State ι κ ε) (k : κ) : HandlerAction → Option (State ι κ ε)
  | .enter =>
    match s.handler k with
    | .absent => some (s.setHandler k .entered)
    | _ => none
  | .beginAdmission =>
    match s.handler k with
    | .entered =>
      some (if s.shuttingDown then s.setHandler k .refused else (s.beginAdmission k).setHandler k .admitted)
    | _ => none
  | .fails =>
    match s.handler k with
    | .admitted => some (s.setHandler k .leaving)
    | _ => none
  | .upgrade =>
    match s.handler k with
    | .admitted => some (s.setHandler k .upgraded)
    | _ => none
  | .run =>
    match s.handler k with
    | .upgraded =>
      some ((s.setSession k { s.session k with
        supervisor := { (s.session k).supervisor with
          runStarted := true, state := .connecting, pc := .started } }).setHandler k .running)
    | _ => none
  | .addSession =>
    match s.handler k with
    | .running =>
      some (if s.shuttingDown then s.setHandler k .rejecting
        else { s with sessions := s.sessions ++ [k] }.setHandler k .added)
    | _ => none
  | .close =>
    match s.handler k with
    | .rejecting => some ((s.requestStop k).setHandler k .closing)
    | _ => none
  | .closed =>
    match s.handler k with
    | .closing => if (s.session k).finalized then some (s.setHandler k .leaving) else none
    | _ => none
  | .endAdmission =>
    match s.handler k with
    | .added => some ((s.endAdmission k).setHandler k .serving)
    | .leaving => some ((s.endAdmission k).setHandler k .over)
    | _ => none
  | .done =>
    match s.handler k with
    | .serving =>
      if (s.session k).supervisor.doneCloses ≠ 0 then some (s.setHandler k .removing) else none
    | _ => none
  | .removeSession =>
    match s.handler k with
    | .removing => some ({ s with sessions := s.sessions.erase k }.setHandler k .over)
    | _ => none

/-- The channel is closed, or there is none. -/
def State.isDrained (s : State ι κ ε) (channel : Option Nat) : Bool :=
  channel.all fun c => s.closedChannels.contains c

/-- One step of a call of `Shutdown`. -/
def callerStep (s : State ι κ ε) (i : ι) : CallerAction κ → Option (State ι κ ε)
  | .shutdown sessions =>
    match s.caller i with
    | .idle =>
      if sessions.Perm s.sessions then
        some ({ s with shuttingDown := true }.setCaller i (.closing sessions s.admissionIdle false))
      else none
    | _ => none
  | .close =>
    match s.caller i with
    | .closing (k :: sessions) idle failed =>
      some (if (s.session k).supervisor.runStarted then
          (s.requestStop k).setCaller i (.waiting (k :: sessions) idle failed)
        else s.setCaller i (.closing sessions idle true))
    | _ => none
  | .closed =>
    match s.caller i with
    | .waiting (k :: sessions) idle failed =>
      if (s.session k).finalized then some (s.setCaller i (.closing sessions idle failed)) else none
    | _ => none
  | .expired =>
    match s.caller i with
    | .waiting (_ :: sessions) idle _ =>
      if s.ctxDone i then some (s.setCaller i (.closing sessions idle true)) else none
    | _ => none
  | .closedAll =>
    match s.caller i with
    | .closing [] idle failed => some (s.setCaller i (.http idle failed))
    | _ => none
  | .http failure =>
    match s.caller i with
    | .http idle failed => some (s.setCaller i (.draining idle (failed || failure)))
    | _ => none
  | .drained =>
    match s.caller i with
    | .draining idle failed => if s.isDrained idle then some (s.setCaller i (.returned failed)) else none
    | _ => none
  | .drainExpired =>
    match s.caller i with
    | .draining (some _) _ => if s.ctxDone i then some (s.setCaller i (.returned true)) else none
    | _ => none

/-- One step; the session acts from `Run` on. -/
def step (config : Supervise.Config) (is : ε → ε → Bool) (canceled : ε) (s : State ι κ ε) :
    Action ι κ ε → Option (State ι κ ε)
  | .handler k a => handlerStep s k a
  | .session k a =>
    if (s.session k).supervisor.runStarted then
      (sessionStep config is canceled (s.session k) a).map (s.setSession k)
    else none
  | .caller i a => callerStep s i a
  | .ctxEnds i => some { s with ctxDone := Function.update s.ctxDone i true }

/-- `NewServer` has returned. -/
def newServer : State ι κ ε where
  sessions := []
  shuttingDown := false
  admissions := 0
  admissionIdle := none
  channels := 0
  closedChannels := []
  handler _ := .absent
  session _ := ⟨Supervise.initial, .unmade, false⟩
  caller _ := .idle
  ctxDone _ := false
  inFlight := []

/-- The server as a machine. -/
def machine (ι κ : Type) [DecidableEq ι] [DecidableEq κ] (config : Supervise.Config) (is : ε → ε → Bool)
    (canceled : ε) : Machine (State ι κ ε) (Action ι κ ε) where
  Start s := s = newServer
  step := step config is canceled

/-! ## What is asked of a run -/

/-- The connection has been admitted. -/
def Handler.wasAdmitted : Handler → Bool
  | .absent | .entered | .refused => false
  | _ => true

/-- The session has reached a terminal state, and its transport is closed, unless the supervisor has given
up waiting for the factory. -/
structure Session.Ended (x : Session ε) : Prop where
  finished : x.supervisor.pc = .finished
  terminal : x.supervisor.state = .closed ∨ x.supervisor.state = .failed
  transport : x.transport = .opened → x.abandoned = true

/-- What `Shutdown` leaves behind: no admission is in flight, and every session that ever ran has ended. -/
structure State.ShutDown (s : State ι κ ε) : Prop where
  shuttingDown : s.shuttingDown = true
  admissions : s.inFlight = []
  ended : ∀ k, (s.session k).supervisor.runStarted = true → (s.session k).Ended

end Rtvbp.Go.Server
