import Rtvbp.Lib.Machine

/-!
# The run of a session

`Session::run`, `close`, `request_close`, `request_failure` and the shutdown of
`sdk/rust/src/session/mod.rs` as a machine. A stop request has two parts, and other tasks can run
between them: it sets `stop.requested` under the mutex, and it then calls `notify_waiters` on
`stop_notify`. A `Notified` future receives the notifications issued after it was created and none
issued before, so a program counter at a `select!` carries whether its future has been notified, and
the program counter before it stands where the future does not exist yet.

The transport, the handler and the workers are the environment: it chooses when and with which result
they return.
-/

namespace Rtvbp.Rust.Run

open Rtvbp.Lib

/-- `SessionState`. -/
inductive SessionState where
  | inactive
  | connecting
  | active
  | closing
  | closed
  | failed
  deriving DecidableEq

/-- `KeepalivePolicy`; the durations are in nanoseconds. -/
structure KeepalivePolicy where
  interval : Nat
  timeout : Nat
  maxMisses : Nat
  deriving DecidableEq

/-- The errors that the supervisor tells apart, with the text of all others. -/
inductive Error where
  | closed
  | configuration (message : String)
  | other (text : String)
  deriving DecidableEq

/-- `Display` of an error. -/
def Error.display : Error → String
  | .closed => "channel is closed"
  | .configuration message => "configuration: " ++ message
  | .other text => text

namespace KeepalivePolicy

/-- `KeepalivePolicy::enabled`. -/
def enabled (policy : KeepalivePolicy) : Bool := policy ≠ ⟨0, 0, 0⟩

/-- `KeepalivePolicy::validate`. -/
def validate (policy : KeepalivePolicy) : Except Error Unit :=
  if !policy.enabled then .ok ()
  else if policy.interval = 0 then .error (.configuration "keepalive interval must be positive")
  else if policy.timeout = 0 then .error (.configuration "keepalive timeout must be positive")
  else if policy.maxMisses = 0 then .error (.configuration "keepalive max misses must be positive")
  else .ok ()

end KeepalivePolicy

/-- What joining a spawned task gives. -/
inductive Joined where
  | ok
  | error (error : Error)
  | cancelled (text : String)
  | panicked (text : String)
  deriving DecidableEq

/-- What closing the transport within the close timeout gives. -/
inductive CloseResult where
  | ok
  | error (error : Error)
  | timedOut
  deriving DecidableEq

/-- `StopState`. -/
structure StopState where
  requested : Bool
  failures : List String

/-- The program counter of `run`. In `connecting`, `beginning` and `active` it is parked in a
`select!`, with whether the future of `stop_notify` has been notified. -/
inductive Pc where
  /-- `run` has not been called. -/
  | idle
  /-- Before the future of the connect `select!` is created. -/
  | entered
  | connecting (notified : Bool)
  /-- The transport is stored and the workers are spawned. -/
  | connected
  /-- No stop was requested; before the future of the begin `select!` is created. -/
  | begins
  | beginning (notified : Bool)
  /-- The begin `select!` is over. -/
  | begun
  /-- No stop was requested; before the future of the active `select!` is created. -/
  | activates
  | active (notified : Bool)
  /-- In `shutdown`, waiting for the media channel to close. -/
  | closingMedia
  /-- In `shutdown`, waiting for the transport to close. -/
  | closingTransport
  /-- `run` has returned. -/
  | returned
  deriving DecidableEq

/-- The state of a session as far as `run` and the stop requests are concerned. -/
structure State where
  state : SessionState
  runStarted : Bool
  closing : Bool
  stop : StopState
  finalError : Option String
  pc : Pc
  /-- The workers and the handler are spawned and can request a stop. -/
  spawned : Bool
  /-- The calls that have set `stop.requested` and have not called `notify_waiters` yet. -/
  notifying : Nat

/-- What can happen next. -/
inductive Action where
  /-- `run` is called. -/
  | run
  /-- `close` is called. -/
  | close
  /-- A worker, the handler or a callback calls `request_close` or `request_failure`. -/
  | requestClose
  | requestFailure (message : String)
  /-- A stop request goes on to `notify_waiters`. -/
  | notifyWaiters
  /-- `run` creates the future of its next `select!` and parks. -/
  | park
  /-- `run` sees that its future has been notified. -/
  | wake
  /-- `run` tests whether it has to stop. -/
  | test
  /-- The results that a `select!` waits for. -/
  | connect (result : Except Error Unit)
  | beginReturns (result : Joined)
  | readerReturns (result : Joined)
  | keepaliveReturns (result : Joined)
  /-- The results that `shutdown` waits for. -/
  | mediaCloses (error : Option Error)
  | transportCloses (result : CloseResult)

namespace State

/-- The part of `request_close` under the mutex. -/
def setRequested (s : State) : State := { s with stop.requested := true }

/-- The part of `request_failure` under the mutex. -/
def pushFailure (s : State) (message : String) : State :=
  { s with stop := ⟨true, s.stop.failures ++ [message]⟩ }

/-- A stop request of another task, before it calls `notify_waiters`. -/
def pending (s : State) : State := { s with notifying := s.notifying + 1 }

/-- `notify_waiters` of another task: it reaches the future that `run` is parked with. -/
def notifyWaiters (s : State) : State :=
  { s with
    notifying := s.notifying - 1
    pc := match s.pc with
      | .connecting _ => .connecting true
      | .beginning _ => .beginning true
      | .active _ => .active true
      | pc => pc }

/-- `finish_terminal`. -/
def finishTerminal (s : State) : State :=
  if s.stop.failures.isEmpty then
    { s with
      state := .closed
      pc := .returned }
  else
    { s with
      finalError := some ("; ".intercalate s.stop.failures)
      state := .failed
      pc := .returned }

/-- `finish_without_transport`. -/
def finishWithoutTransport (s : State) : State := { s with closing := true }.finishTerminal

/-- The beginning of `shutdown`. -/
def shutdown (s : State) : State :=
  { s with
    state := .closing
    closing := true
    pc := .closingMedia }

/-- `record_reader_result`. -/
def recordReaderResult (s : State) : Joined → State
  | .ok | .error .closed | .cancelled _ => s.setRequested
  | .error error => s.pushFailure ("control reader: " ++ error.display)
  | .panicked text => s.pushFailure ("control reader task: " ++ text)

/-- `record_keepalive_result`. -/
def recordKeepaliveResult (s : State) : Joined → State
  | .ok => s.pushFailure "keepalive monitor stopped without an error"
  | .error error => s.pushFailure ("keepalive: " ++ error.display)
  | .cancelled _ => s.setRequested
  | .panicked text => s.pushFailure ("keepalive task: " ++ text)

/-- What the begin `select!` does with the result of `on_begin`. -/
def recordBeginResult (s : State) : Joined → State
  | .ok => { s with state := .active }
  | .error error => s.pushFailure ("handler on_begin: " ++ error.display)
  | .cancelled text | .panicked text => s.pushFailure ("handler on_begin task: " ++ text)

/-- `run` leaves the `select!` it is parked in with the state `s`. -/
def leaveSelect (s : State) : State :=
  match s.pc with
  | .connecting _ => s.finishWithoutTransport
  | .beginning _ => { s with pc := .begun }
  | .active _ => s.shutdown
  | _ => s

end State

/-- A session that has not run. -/
def initial : State where
  state := .inactive
  runStarted := false
  closing := false
  stop := ⟨false, []⟩
  finalError := none
  pc := .idle
  spawned := false
  notifying := 0

/-- `run` up to the creation of the first future. -/
def start (keepalive : KeepalivePolicy) (s : State) : State :=
  let s := { s with
    runStarted := true
    state := .connecting }
  match keepalive.validate with
  | .error error => (s.pushFailure error.display).finishWithoutTransport
  | .ok () => { s with pc := .entered }

/-- One step of the session. -/
def step (keepalive : KeepalivePolicy) (s : State) : Action → Option State
  | .run => if s.runStarted then none else some (start keepalive s)
  | .close =>
    if s.runStarted then some s.setRequested.pending
    else some { s with
      runStarted := true
      closing := true
      state := .closed }
  | .requestClose => if s.spawned then some s.setRequested.pending else none
  | .requestFailure message => if s.spawned then some (s.pushFailure message).pending else none
  | .notifyWaiters => if 0 < s.notifying then some s.notifyWaiters else none
  | .park =>
    match s.pc with
    | .entered => some { s with pc := .connecting false }
    | .begins => some { s with pc := .beginning false }
    | .activates => some { s with pc := .active false }
    | _ => none
  | .wake =>
    match s.pc with
    | .connecting true | .beginning true | .active true => some s.leaveSelect
    | _ => none
  | .test =>
    match s.pc with
    | .connected => some { s with pc := if s.stop.requested then .begun else .begins }
    | .begun =>
      if s.state = .active ∧ ¬ s.stop.requested then some { s with pc := .activates }
      else some s.shutdown
    | _ => none
  | .connect result =>
    match s.pc, result with
    | .connecting _, .ok () => some { s with
        spawned := true
        pc := .connected }
    | .connecting _, .error error => some (s.pushFailure error.display).finishWithoutTransport
    | _, _ => none
  | .beginReturns result =>
    match s.pc with
    | .beginning _ => some (s.recordBeginResult result).leaveSelect
    | _ => none
  | .readerReturns result =>
    match s.pc with
    | .beginning _ | .active _ => some (s.recordReaderResult result).leaveSelect
    | _ => none
  | .keepaliveReturns result =>
    match s.pc with
    | .beginning _ | .active _ => some (s.recordKeepaliveResult result).leaveSelect
    | _ => none
  | .mediaCloses error =>
    if s.pc = .closingMedia then
      let s := match error with
        | none => s
        | some error => s.pushFailure ("media close: " ++ error.display)
      some { s with pc := .closingTransport }
    else none
  | .transportCloses result =>
    if s.pc = .closingTransport then
      let s := match result with
        | .ok => s
        | .error error => s.pushFailure ("transport close: " ++ error.display)
        | .timedOut => s.pushFailure "transport close timed out"
      some s.finishTerminal
    else none

/-- The session as a machine. -/
def machine (keepalive : KeepalivePolicy) : Machine State Action where
  Start s := s = initial
  step := step keepalive

/-- The notification of a stop request under way can be issued. -/
theorem enabled_notifyWaiters {keepalive : KeepalivePolicy} {s : State} (hn : 0 < s.notifying) :
    (machine keepalive).Enabled s .notifyWaiters := by
  simp [Machine.Enabled, machine, step, hn]

/-- `run` is parked in one of its `select!`s. -/
def Pc.parked : Pc → Bool
  | .connecting _ | .beginning _ | .active _ => true
  | _ => false

/-- The action comes from outside: a result of the transport, of a worker or of the handler, or a new
call. The other actions are steps of `run` itself and of the stop requests under way. -/
def Action.arrival : Action → Bool
  | .run | .close | .requestClose | .requestFailure _ => true
  | .connect _ | .beginReturns _ | .readerReturns _ | .keepaliveReturns _ => true
  | .mediaCloses _ | .transportCloses _ => true
  | .notifyWaiters | .park | .wake | .test => false

/-- A stop has been requested and `run` is parked, and nothing but an arrival from outside can wake
it. -/
def StopLost (keepalive : KeepalivePolicy) (s : State) : Prop :=
  s.stop.requested ∧ s.pc.parked ∧ ∀ a, (machine keepalive).Enabled s a → a.arrival

/-- The step creates the future of a `select!` too late: a stop is already requested and the calls that
requested it have all issued their notification. -/
def ParksLate (s : State) : Action → Prop
  | .park => s.stop.requested ∧ s.notifying = 0
  | _ => False

instance (s : State) : (a : Action) → Decidable (ParksLate s a)
  | .park => inferInstanceAs (Decidable (_ ∧ _))
  | .run | .close | .requestClose | .requestFailure _ | .notifyWaiters | .wake | .test
  | .connect _ | .beginReturns _ | .readerReturns _ | .keepaliveReturns _
  | .mediaCloses _ | .transportCloses _ => inferInstanceAs (Decidable False)

end Rtvbp.Rust.Run
