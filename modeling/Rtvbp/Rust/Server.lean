import Rtvbp.Lib.Machine
import Mathlib.Logic.Function.Basic
import Mathlib.Data.List.Perm.Basic

/-!
# The WebSocket server

`Server` of `sdk/rust/src/transport/ws.rs`: `accept_loop`, a task of `run_admission` and a watcher for every
connection, and any number of calls of `shutdown`. Every access to an atomic, every section under a mutex
and every creation of a `Notified` is one step, and the steps of all of them may come in any order. A
`Notified` receives the calls of `notify_waiters` that are made after it was created. The network, the
application and the tasks of a transport are the environment.
-/

namespace Rtvbp.Rust.Server

open Rtvbp.Lib

/-! ## The state -/

/-- A `WsTransport` as the server sees it. -/
inductive Link where
  /-- The connection has not been upgraded. -/
  | absent
  | live
  /-- The close frame has been enqueued, and nothing can be enqueued after it. -/
  | closing
  /-- The writer has dealt with the close frame, and is about to `finish`. -/
  | answered
  | terminal
  deriving DecidableEq

/-- The transport is closed: nothing is written any more. -/
def Link.closed : Link → Bool
  | .answered | .terminal => true
  | _ => false

/-- A call of `close` of a transport. -/
inductive CloseCall where
  /-- Before the look at `terminal`. -/
  | entered
  /-- Before the sender is taken. -/
  | taking
  /-- Waiting for the writer to answer. -/
  | written
  /-- In `wait_closed`. -/
  | waiting

/-- `accept_loop`. -/
inductive Loop (κ : Type) where
  /-- Before `stop.notified()` is created. -/
  | starting
  /-- In the `select!`, where `stop` has been notified or not. -/
  | selecting (notified : Bool)
  /-- Before the look at `stopping`. -/
  | accepted (k : κ)
  /-- Before `admissions` is increased. -/
  | counting (k : κ)
  /-- Before `run_admission` is spawned. -/
  | spawning (k : κ)
  /-- Before `listener_finished` is set. -/
  | exiting
  /-- Before `listener_done` is notified. -/
  | announcing
  | over

/-- `run_admission` for a connection. -/
inductive Admission where
  | absent
  /-- The client has connected; the task does not run yet, and may never do. -/
  | connected
  /-- In `accept`, the upgrade. -/
  | accepting
  /-- Before the look at `stopping`. -/
  | upgraded
  /-- Before the transport is added to `active`. -/
  | registering
  /-- Before it is sent to the application. -/
  | handing
  /-- Before the watcher is spawned. -/
  | watching
  /-- Before the transport is removed from `active`. -/
  | unregistering
  | closing (call : CloseCall)
  /-- Before `admissions` is decreased. -/
  | leaving
  /-- Before `admission_idle` is notified. -/
  | announcing
  | over

/-- The task that waits for the end of a transport. -/
inductive Watcher where
  | absent
  /-- In `wait_closed`. -/
  | waiting
  /-- Before the transport is removed from `active`. -/
  | removing
  /-- Before `admission_idle` is notified. -/
  | announcing
  | over
  deriving DecidableEq

/-- What a shutdown waits for; at the last one it is known whether a transport failed to close. -/
inductive Wait where
  | listener
  | admissions
  | active (failed : Bool)

/-- A call of `shutdown`. -/
inductive Caller (κ : Type) where
  | idle
  /-- Before `stop.notify_waiters()`. -/
  | notifying
  /-- Before the first look of a wait. -/
  | looking (wait : Wait)
  /-- Before the `Notified` of the wait is created. -/
  | creating (wait : Wait)
  /-- Before the second look. -/
  | created (wait : Wait) (notified : Bool)
  | waiting (wait : Wait) (notified : Bool)
  /-- Before `accepted_tx` is taken. -/
  | taking
  /-- Before the transports are taken from `active`. -/
  | snapshotting
  /-- Closing the first of `transports`. -/
  | closing (transports : List κ) (call : CloseCall) (failed : Bool)
  | returned (failed : Bool)
  /-- The future of the call has been dropped. -/
  | dropped

/-- What belongs to one connection. -/
structure Connection where
  admission : Admission
  watcher : Watcher
  link : Link

/-- The server with its tasks, the connections `κ` and the calls `ι` of `shutdown`. The keys of `active` are
serial numbers, one for each connection. -/
structure State (ι κ : Type) where
  /-- The connections that wait for `listener.accept`. -/
  backlog : List κ
  loop : Loop κ
  stopping : Bool
  listenerFinished : Bool
  admissions : Nat
  /-- `accepted_tx` is there. -/
  accepting : Bool
  /-- What was sent to `accepted_rx` and not received. -/
  accepted : List κ
  active : List κ
  connection : κ → Connection
  caller : ι → Caller κ
  /-- History: the connections that `admissions` counts. -/
  inFlight : List κ

/-- The step of a close. -/
inductive CloseAction where
  | look
  | take
  | answered
  | waited
  deriving DecidableEq

inductive LoopAction where
  | create
  | stopped
  | accept
  | acceptFails
  | look
  | count
  | spawn
  | finish
  | announce

inductive AdmissionAction where
  | upgrade
  | upgradeFails
  | look
  | register
  | send
  | watch
  | unregister
  | close (a : CloseAction)
  | leave
  | announce

inductive WatcherAction where
  | closed
  | remove
  | announce

inductive CallerAction (κ : Type) where
  | call
  | notify
  | look
  | create
  | recheck
  | wake
  | take
  /-- The transports are taken from `active`, in some order. -/
  | snapshot (transports : List κ)
  /-- A step of the close of the first transport; `failed` is its result, if it returns. -/
  | close (a : CloseAction) (failed : Bool)
  | closedAll
  | drop
  deriving DecidableEq

/-- The network, the application and the tasks of the transports. -/
inductive EnvAction (κ : Type) where
  /-- A client connects. -/
  | connect (k : κ)
  /-- The application receives a transport from `accept`. -/
  | receive
  /-- The application closes a transport. -/
  | close (k : κ)
  /-- The writer answers the close frame, with success or not. -/
  | answer (k : κ)
  /-- `finish`: the writer is done, or the socket has ended. -/
  | finish (k : κ)

inductive Action (ι κ : Type) where
  | loop (a : LoopAction)
  | admission (k : κ) (a : AdmissionAction)
  | watcher (k : κ) (a : WatcherAction)
  | caller (i : ι) (a : CallerAction κ)
  | env (a : EnvAction κ)

/-! ## The steps -/

/-- One step of `close`: the transport, and the rest of the call, if it does not return. -/
def closeStep (link : Link) (call : CloseCall) : CloseAction → Option (Link × Option CloseCall)
  | .look =>
    match call with
    | .entered => some (link, if link = .terminal then none else some .taking)
    | _ => none
  | .take =>
    match call with
    | .taking => some (if link = .live then (.closing, some .written) else (link, some .waiting))
    | _ => none
  | .answered =>
    match call with
    | .written => if link.closed then some (link, none) else none
    | _ => none
  | .waited =>
    match call with
    | .waiting => if link = .terminal then some (link, none) else none
    | _ => none

variable {ι κ : Type} [DecidableEq ι] [DecidableEq κ]

/-- `notify_waiters` for the calls that wait for what `selects` tells. -/
def Caller.wake (selects : Wait → Bool) : Caller κ → Caller κ
  | .created wait notified => .created wait (notified || selects wait)
  | .waiting wait notified => .waiting wait (notified || selects wait)
  | c => c

def Wait.isListener : Wait → Bool
  | .listener => true
  | _ => false

/-- `listener_done.notify_waiters()`. -/
def State.notifyListenerDone (s : State ι κ) : State ι κ :=
  { s with caller := fun i => (s.caller i).wake Wait.isListener }

/-- `admission_idle.notify_waiters()`. -/
def State.notifyAdmissionIdle (s : State ι κ) : State ι κ :=
  { s with caller := fun i => (s.caller i).wake fun wait => !wait.isListener }

def State.setAdmission (s : State ι κ) (k : κ) (a : Admission) : State ι κ :=
  { s with connection := Function.update s.connection k { s.connection k with admission := a } }

def State.setWatcher (s : State ι κ) (k : κ) (w : Watcher) : State ι κ :=
  { s with connection := Function.update s.connection k { s.connection k with watcher := w } }

def State.setLink (s : State ι κ) (k : κ) (l : Link) : State ι κ :=
  { s with connection := Function.update s.connection k { s.connection k with link := l } }

def State.setCaller (s : State ι κ) (i : ι) (c : Caller κ) : State ι κ :=
  { s with caller := Function.update s.caller i c }

/-- One step of `accept_loop`. -/
def loopStep (s : State ι κ) : LoopAction → Option (State ι κ)
  | .create =>
    match s.loop with
    | .starting => some { s with loop := .selecting false }
    | _ => none
  | .stopped =>
    match s.loop with
    | .selecting true => some { s with loop := .exiting }
    | _ => none
  | .accept =>
    match s.loop, s.backlog with
    | .selecting _, k :: backlog => some { s with loop := .accepted k, backlog }
    | _, _ => none
  | .acceptFails =>
    match s.loop with
    | .selecting _ => some { s with loop := .exiting }
    | _ => none
  | .look =>
    match s.loop with
    | .accepted k => some { s with loop := if s.stopping then .exiting else .counting k }
    | _ => none
  | .count =>
    match s.loop with
    | .counting k =>
      some { s with loop := .spawning k, admissions := s.admissions + 1, inFlight := k :: s.inFlight }
    | _ => none
  | .spawn =>
    match s.loop with
    | .spawning k => some ({ s with loop := .starting }.setAdmission k .accepting)
    | _ => none
  | .finish =>
    match s.loop with
    | .exiting => some { s with loop := .announcing, listenerFinished := true }
    | _ => none
  | .announce =>
    match s.loop with
    | .announcing => some { s with loop := .over }.notifyListenerDone
    | _ => none

/-- One step of `run_admission`. -/
def admissionStep (s : State ι κ) (k : κ) : AdmissionAction → Option (State ι κ)
  | .upgrade =>
    match (s.connection k).admission with
    | .accepting => some ((s.setLink k .live).setAdmission k .upgraded)
    | _ => none
  | .upgradeFails =>
    match (s.connection k).admission with
    | .accepting => some (s.setAdmission k .leaving)
    | _ => none
  | .look =>
    match (s.connection k).admission with
    | .upgraded => some (s.setAdmission k (if s.stopping then .closing .entered else .registering))
    | _ => none
  | .register =>
    match (s.connection k).admission with
    | .registering => some ({ s with active := s.active ++ [k] }.setAdmission k .handing)
    | _ => none
  | .send =>
    match (s.connection k).admission with
    | .handing =>
      some (if s.accepting then { s with accepted := s.accepted ++ [k] }.setAdmission k .watching
        else s.setAdmission k .unregistering)
    | _ => none
  | .watch =>
    match (s.connection k).admission with
    | .watching => some ((s.setWatcher k .waiting).setAdmission k .leaving)
    | _ => none
  | .unregister =>
    match (s.connection k).admission with
    | .unregistering => some ({ s with active := s.active.erase k }.setAdmission k (.closing .entered))
    | _ => none
  | .close a =>
    match (s.connection k).admission with
    | .closing call =>
      (closeStep (s.connection k).link call a).map fun r =>
        (s.setLink k r.1).setAdmission k (r.2.elim .leaving .closing)
    | _ => none
  | .leave =>
    match (s.connection k).admission with
    | .leaving =>
      some ({ s with admissions := s.admissions - 1, inFlight := s.inFlight.erase k }.setAdmission k
        (if s.admissions = 1 then .announcing else .over))
    | _ => none
  | .announce =>
    match (s.connection k).admission with
    | .announcing => some (s.setAdmission k .over).notifyAdmissionIdle
    | _ => none

/-- One step of the task that waits for the end of a transport. -/
def watcherStep (s : State ι κ) (k : κ) : WatcherAction → Option (State ι κ)
  | .closed =>
    match (s.connection k).watcher, (s.connection k).link with
    | .waiting, .terminal => some (s.setWatcher k .removing)
    | _, _ => none
  | .remove =>
    match (s.connection k).watcher with
    | .removing => some ({ s with active := s.active.erase k }.setWatcher k .announcing)
    | _ => none
  | .announce =>
    match (s.connection k).watcher with
    | .announcing => some (s.setWatcher k .over).notifyAdmissionIdle
    | _ => none

/-- What a shutdown waits for has come about. -/
def State.done (s : State ι κ) : Wait → Bool
  | .listener => s.listenerFinished
  | .admissions => s.admissions = 0
  | .active _ => s.active = []

/-- How a shutdown goes on after a wait. -/
def Wait.next : Wait → Caller κ
  | .listener => .looking .admissions
  | .admissions => .taking
  | .active failed => .returned failed

/-- `stop.notify_waiters()` at the `select!`. -/
def Loop.wake : Loop κ → Loop κ
  | .selecting _ => .selecting true
  | l => l

/-- One step of a call of `shutdown`. -/
def callerStep (s : State ι κ) (i : ι) : CallerAction κ → Option (State ι κ)
  | .call =>
    match s.caller i with
    | .idle =>
      some ({ s with stopping := true }.setCaller i
        (if s.stopping then .looking .listener else .notifying))
    | _ => none
  | .notify =>
    match s.caller i with
    | .notifying => some ({ s with loop := s.loop.wake }.setCaller i (.looking .listener))
    | _ => none
  | .look =>
    match s.caller i with
    | .looking wait => some (s.setCaller i (if s.done wait then wait.next else .creating wait))
    | _ => none
  | .create =>
    match s.caller i with
    | .creating wait => some (s.setCaller i (.created wait false))
    | _ => none
  | .recheck =>
    match s.caller i with
    | .created wait notified =>
      some (s.setCaller i (if s.done wait then wait.next else .waiting wait notified))
    | _ => none
  | .wake =>
    match s.caller i with
    | .waiting wait true => some (s.setCaller i (.looking wait))
    | _ => none
  | .take =>
    match s.caller i with
    | .taking => some ({ s with accepting := false }.setCaller i .snapshotting)
    | _ => none
  | .snapshot transports =>
    match s.caller i with
    | .snapshotting =>
      if transports.Perm s.active then some (s.setCaller i (.closing transports .entered false)) else none
    | _ => none
  | .close a failure =>
    match s.caller i with
    | .closing (k :: transports) call failed =>
      (closeStep (s.connection k).link call a).map fun r =>
        (s.setLink k r.1).setCaller i
          (r.2.elim (.closing transports .entered (failed || failure)) (.closing (k :: transports) · failed))
    | _ => none
  | .closedAll =>
    match s.caller i with
    | .closing [] _ failed => some (s.setCaller i (.looking (.active failed)))
    | _ => none
  | .drop =>
    match s.caller i with
    | .waiting _ _ | .closing (_ :: _) .written _ | .closing (_ :: _) .waiting _ =>
      some (s.setCaller i .dropped)
    | _ => none

/-- One step of the environment. -/
def envStep (s : State ι κ) : EnvAction κ → Option (State ι κ)
  | .connect k =>
    match (s.connection k).admission with
    | .absent => some ({ s with backlog := s.backlog ++ [k] }.setAdmission k .connected)
    | _ => none
  | .receive =>
    match s.accepted with
    | _ :: accepted => some { s with accepted }
    | [] => none
  | .close k =>
    match (s.connection k).link with
    | .live => some (s.setLink k .closing)
    | _ => none
  | .answer k =>
    match (s.connection k).link with
    | .closing => some (s.setLink k .answered)
    | _ => none
  | .finish k =>
    match (s.connection k).link with
    | .live | .closing | .answered => some (s.setLink k .terminal)
    | _ => none

/-- One step. -/
def step (s : State ι κ) : Action ι κ → Option (State ι κ)
  | .loop a => loopStep s a
  | .admission k a => admissionStep s k a
  | .watcher k a => watcherStep s k a
  | .caller i a => callerStep s i a
  | .env a => envStep s a

/-- `bind` has returned; the task of `accept_loop` has not run. -/
def bind : State ι κ where
  backlog := []
  loop := .starting
  stopping := false
  listenerFinished := false
  admissions := 0
  accepting := true
  accepted := []
  active := []
  connection _ := ⟨.absent, .absent, .absent⟩
  caller _ := .idle
  inFlight := []

/-- The server as a machine. -/
def machine (ι κ : Type) [DecidableEq ι] [DecidableEq κ] : Machine (State ι κ) (Action ι κ) where
  Start s := s = bind
  step := step

/-! ## What is asked of a run -/

/-- A shutdown waits for the listener, and nothing but a further client can wake `accept_loop`: it is parked
in its `select!`, no connection is pending, and no call is about to notify it. -/
structure State.Stuck (s : State ι κ) : Prop where
  stopping : s.stopping = true
  waits : ∃ i, s.caller i = .waiting .listener false
  parked : s.loop = .selecting false
  no_client : s.backlog = []
  no_notify : ∀ i, s.caller i ≠ .notifying

/-- `accept_loop` is on its way to a new `select!`, after its last look at `stopping`. -/
def Loop.resumes : Loop κ → Bool
  | .starting | .counting _ | .spawning _ => true
  | _ => false

/-- A shutdown that notifies does not do it between two `select!`s of `accept_loop` with no connection
pending. -/
def Noticed (s : State ι κ) : Action ι κ → Prop
  | .caller _ .notify => s.loop.resumes = false ∨ s.backlog ≠ []
  | _ => True

instance (s : State ι κ) : DecidablePred (Noticed s) := fun a => by
  unfold Noticed
  split <;> infer_instance

/-- What `shutdown` leaves behind: every transport that was ever upgraded is closed, the registry is empty,
and the transports that `accept` still yields are terminal. -/
structure State.ShutDown (s : State ι κ) : Prop where
  closed : ∀ k, (s.connection k).link ≠ .absent → (s.connection k).link.closed = true
  active : s.active = []
  accepted : ∀ k ∈ s.accepted, (s.connection k).link = .terminal

end Rtvbp.Rust.Server
