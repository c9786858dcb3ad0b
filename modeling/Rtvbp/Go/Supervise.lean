import Rtvbp.Lib.Machine

/-!
# The supervisor

`Run`, `supervise`, `createTransport`, `requestStop`, `commitStopRequests` and the shutdown of
`sdk/go/session.go` as a machine. A stop request appends to the stop queue under a mutex and then
offers a token to a channel with one slot; the supervisor waits for the token in three selects and
folds the queue into the terminal result at one commit point.

The program counter stands where the supervisor can block. The transport factory, `OnBegin`, the parent
context, the close handlers and every caller of `requestStop` are the environment.
-/

namespace Rtvbp.Go.Supervise

open Rtvbp.Lib

/-- `SessionState`. -/
inductive SessionState where
  | inactive
  | connecting
  | active
  | closing
  | closed
  | failed
  deriving DecidableEq

/-- `KeepalivePolicy`. -/
structure KeepalivePolicy where
  interval : Int
  timeout : Int
  maxMisses : Int
  deriving DecidableEq

/-- `KeepalivePolicy.Enabled`. -/
def KeepalivePolicy.enabled (p : KeepalivePolicy) : Bool := p ≠ ⟨0, 0, 0⟩

/-- `KeepalivePolicy.Validate`. -/
def KeepalivePolicy.validate (p : KeepalivePolicy) : Option String :=
  if !p.enabled then none
  else if p.interval ≤ 0 then some "keepalive interval must be positive"
  else if p.timeout ≤ 0 then some "keepalive timeout must be positive"
  else if p.maxMisses ≤ 0 then some "keepalive max misses must be positive"
  else none

/-- The part of the session that `supervise` checks first: which of its fields are set. -/
structure Config where
  envelope : Bool
  factory : Bool
  handler : Bool
  idGenerator : Bool
  keepalive : KeepalivePolicy

/-- The configuration checks of `supervise`, in their order. -/
def Config.check (config : Config) : Option String :=
  if !config.envelope then some "rtvbp: envelope is required"
  else if !config.factory then some "rtvbp: transport factory is required"
  else if !config.handler then some "rtvbp: session handler is required"
  else if !config.idGenerator then some "rtvbp: id generator is required"
  else config.keepalive.validate

/-- One error of the SDK: a message of its own, an error it was given, or that with a message in
front. -/
inductive Cause (ε : Type) where
  | message (text : String)
  | given (err : ε)
  | wrapped (text : String) (err : ε)

/-- `stopRequest`. The cause lists the errors that were joined; `nil` is the empty list. -/
structure StopRequest (ε : Type) where
  cause : List (Cause ε)
  failed : Bool

namespace StopRequest

variable {ε : Type}

/-- `stopRequest{}`. -/
def empty : StopRequest ε := ⟨[], false⟩

/-- `mergeStopRequests`. -/
def merge (terminal observed : StopRequest ε) : StopRequest ε where
  failed := terminal.failed || observed.failed
  cause := terminal.cause ++ observed.cause

/-- A failed request with one error. -/
def failure (cause : Cause ε) : StopRequest ε := ⟨[cause], true⟩

/-- Merge with the failure of a step, if it failed. -/
def mergeFailure (terminal : StopRequest ε) : Option (Cause ε) → StopRequest ε
  | none => terminal
  | some cause => terminal.merge (failure cause)

end StopRequest

/-- `transportResult`: whether there is a transport, and the error. -/
structure TransportResult (ε : Type) where
  transport : Bool
  err : Option ε
  deriving DecidableEq

/-- The program counter of the supervisor. -/
inductive Pc (ε : Type) where
  /-- `Run` has not been called. -/
  | idle
  /-- Before the configuration checks. -/
  | started
  /-- In the select of `createTransport`. -/
  | creating
  /-- Closing the transport that came with an error. -/
  | closingPartial
  /-- In the select of `joinCanceledTransportFactory`, with the error of the canceled context. -/
  | joining (ctxErr : ε)
  /-- Closing the transport that came after the cancellation. -/
  | closingCanceled (ctxErr : ε) (created : TransportResult ε)
  /-- In the select for `OnBegin`. -/
  | beginning
  /-- In the select of an active session. -/
  | active
  /-- Before `commitStopRequests`. -/
  | committing
  | closingMedia
  | closingTransport
  /-- Running a close handler, with how many come after it. -/
  | closingHandlers (rest : Nat)
  /-- Waiting for the workers. -/
  | joiningWorkers
  /-- Before `complete`. -/
  | completing
  | finished
  deriving DecidableEq

/-- The goroutine of the transport factory runs. -/
def Pc.constructing {ε : Type} : Pc ε → Bool
  | .creating | .joining _ => true
  | _ => false

/-- The state of a session as far as the supervisor and the stop requests are concerned. -/
structure State (ε : Type) where
  state : SessionState
  runStarted : Bool
  closing : Bool
  /-- The channel `stop` holds its token. -/
  token : Bool
  stopQueue : List (StopRequest ε)
  stopCommit : Bool
  /-- The calls of `requestStop` between the mutex and the offer of a token. -/
  offering : Nat
  /-- The parent context has ended, with this error. -/
  parent : Option ε
  /-- What the transport factory has returned. -/
  factory : Option (TransportResult ε)
  /-- The transport is stored and the workers are started. -/
  transport : Bool
  /-- What `OnBegin` has returned and the supervisor has not received. -/
  beginResult : Option (Option ε)
  /-- The number of registered close handlers. -/
  closeHandlers : Nat
  terminal : StopRequest ε
  pc : Pc ε
  /-- The results sent to `done`. -/
  done : List (List (Cause ε))
  /-- How often `done` and `finalized` were closed. -/
  doneCloses : Nat
  finalizedCloses : Nat

/-- What can happen next. -/
inductive Action (ε : Type) where
  /-- `Run` is called. -/
  | run
  /-- A call of `requestStop` takes the mutex, and later offers its token. -/
  | requestStop (request : StopRequest ε)
  | offer
  /-- The parent context ends. -/
  | parentEnds (err : ε)
  /-- `OnClose` registers a close handler. -/
  | onClose
  /-- The transport factory returns. -/
  | factoryReturns (result : TransportResult ε)
  /-- `OnBegin` returns. -/
  | onBeginReturns (err : Option ε)
  /-- The supervisor checks the configuration. -/
  | configure
  /-- The three cases of the select in `createTransport`; `ctxErr` is the error of the canceled
  context. -/
  | created
  | createStopped (ctxErr : ε)
  | createParentDone (ctxErr : ε)
  /-- Closing the transport of a failed construction returns. -/
  | partialCloses (err : Option ε)
  /-- The two cases of the select in `joinCanceledTransportFactory`. -/
  | joined
  | joinTimeout
  /-- Closing the transport of a canceled construction returns. -/
  | canceledCloses (err : Option ε)
  /-- The three cases of the select for `OnBegin`. -/
  | beginReceived
  | beginStopped
  | beginParentDone
  /-- The two cases of the select of an active session. -/
  | activeStopped
  | activeParentDone
  /-- `commitStopRequests` and `beginShutdown`. -/
  | commit
  /-- The steps of `closeResources`, each with its failure. -/
  | mediaCloses (err : Option ε)
  | transportCloses (err : Option ε)
  | closeHandlerReturns (err : Option ε)
  /-- The two cases of the select for the workers. -/
  | workersDone
  | workersTimeout
  /-- `complete`. -/
  | complete

variable {ε : Type}

/-- A session that has not run. -/
def initial : State ε where
  state := .inactive
  runStarted := false
  closing := false
  token := false
  stopQueue := []
  stopCommit := false
  offering := 0
  parent := none
  factory := none
  transport := false
  beginResult := none
  closeHandlers := 0
  terminal := .empty
  pc := .idle
  done := []
  doneCloses := 0
  finalizedCloses := 0

/-- The part of `requestStop` up to the end of its critical section. -/
def State.requestStop (s : State ε) (request : StopRequest ε) : State ε :=
  if s.stopCommit then { s with closing := true }
  else
    { s with
      closing := true
      stopQueue := s.stopQueue ++ [request]
      offering := s.offering + 1 }

/-- `commitStopRequests` and `beginShutdown`. -/
def State.commitStopRequests (s : State ε) : State ε :=
  { s with
    stopCommit := true
    stopQueue := []
    terminal := s.stopQueue.foldl StopRequest.merge s.terminal
    closing := true
    state := .closing
    pc := .closingMedia }

/-- `complete`. -/
def State.complete (s : State ε) : State ε :=
  { s with
    state := if s.terminal.failed then .failed else .closed
    done := s.done ++ [s.terminal.cause]
    doneCloses := s.doneCloses + 1
    finalizedCloses := s.finalizedCloses + 1
    pc := .finished }

/-- After the close handlers: only a session that had a transport has workers to wait for. -/
def State.afterHandlers (s : State ε) : State ε :=
  { s with pc := if s.transport then .joiningWorkers else .completing }

/-- Go on with this many close handlers. -/
def State.runHandlers (s : State ε) : Nat → State ε
  | 0 => s.afterHandlers
  | rest + 1 => { s with pc := .closingHandlers rest }

/-- The error of the construction that `acceptTransportResult` records; `is` is `errors.Is`. -/
def acceptError (is : ε → ε → Bool) (parent : Option ε) (created : TransportResult ε) :
    Option (Cause ε) :=
  match created.err with
  | some err => if parent.any (is err) then none else some (.wrapped "create transport: " err)
  | none => some (.message "rtvbp: transport factory returned nil")

/-- The error of the construction that `joinCanceledTransportFactory` records. -/
def joinError (is : ε → ε → Bool) (ctxErr : ε) (created : TransportResult ε) : Option (Cause ε) :=
  match created.err with
  | some err =>
    if is err ctxErr then none else some (.wrapped "create transport during cancellation: " err)
  | none => none

/-- `acceptTransportResult`, up to the close of a transport that came with an error. -/
def State.acceptTransportResult (is : ε → ε → Bool) (s : State ε) (created : TransportResult ε) :
    State ε :=
  if created.err.isNone ∧ created.transport then
    { s with
      transport := true
      pc := .beginning }
  else
    { s with
      terminal := StopRequest.empty.mergeFailure (acceptError is s.parent created)
      pc := if created.transport then .closingPartial else .committing }

/-- The error of a canceled context: of the parent if it ended first, else `context.Canceled`. -/
def State.canceledWith (canceled : ε) (s : State ε) (ctxErr : ε) : Prop :=
  ctxErr = canceled ∨ s.parent = some ctxErr

instance [DecidableEq ε] (canceled : ε) (s : State ε) (ctxErr : ε) :
    Decidable (s.canceledWith canceled ctxErr) :=
  inferInstanceAs (Decidable (_ ∨ _))

/-- The test between the select for `OnBegin` and the select of an active session. -/
def State.afterBegin (s : State ε) : State ε :=
  if s.terminal.cause.isEmpty ∧ ¬ s.terminal.failed ∧ s.state = .active then { s with pc := .active }
  else { s with pc := .committing }

/-- Receive the result of `OnBegin`. -/
def State.receiveBegin (s : State ε) : Option ε → State ε
  | some err => { s with terminal := .failure (.wrapped "handler OnBegin: " err) }
  | none => { s with state := .active }

/-- One step of the session; `is` is `errors.Is` and `canceled` is `context.Canceled`. -/
def step [DecidableEq ε] (config : Config) (is : ε → ε → Bool) (canceled : ε) (s : State ε) :
    Action ε → Option (State ε)
  | .run =>
    if s.runStarted then none
    else some { s with
      runStarted := true
      state := .connecting
      pc := .started }
  | .requestStop request => some (s.requestStop request)
  | .offer =>
    if 0 < s.offering then some { s with
      offering := s.offering - 1
      token := true }
    else none
  | .parentEnds err => if s.parent.isNone then some { s with parent := some err } else none
  | .onClose => some { s with closeHandlers := s.closeHandlers + 1 }
  | .factoryReturns result =>
    if s.pc.constructing ∧ s.factory.isNone then some { s with factory := some result } else none
  | .onBeginReturns err =>
    if s.transport ∧ s.beginResult.isNone then some { s with beginResult := some err } else none
  | .configure =>
    if s.pc = .started then
      match config.check with
      | some text => some { s with
          terminal := .failure (.message text)
          pc := .committing }
      | none => some { s with pc := .creating }
    else none
  | .created =>
    if s.pc = .creating then s.factory.map (s.acceptTransportResult is) else none
  | .createStopped ctxErr =>
    if s.pc = .creating ∧ s.token ∧ s.canceledWith canceled ctxErr then some { s with
      token := false
      terminal := .empty
      pc := .joining ctxErr }
    else none
  | .createParentDone ctxErr =>
    if s.pc = .creating ∧ s.parent.isSome ∧ s.canceledWith canceled ctxErr then some { s with
      terminal := .empty
      pc := .joining ctxErr }
    else none
  | .partialCloses err =>
    if s.pc = .closingPartial then some { s with
      terminal := s.terminal.mergeFailure (err.map (.wrapped "close partial transport: "))
      pc := .committing }
    else none
  | .joined =>
    match s.pc, s.factory with
    | .joining ctxErr, some created =>
      if created.transport then some { s with pc := .closingCanceled ctxErr created }
      else some { s with
        terminal := s.terminal.mergeFailure (joinError is ctxErr created)
        pc := .committing }
    | _, _ => none
  | .joinTimeout =>
    match s.pc with
    | .joining _ => some { s with
        terminal := s.terminal.merge (.failure (.message "rtvbp: transport factory did not stop"))
        pc := .committing }
    | _ => none
  | .canceledCloses err =>
    match s.pc with
    | .closingCanceled ctxErr created => some { s with
        terminal := (s.terminal.mergeFailure (err.map (.wrapped "close canceled transport: "))).mergeFailure
          (joinError is ctxErr created)
        pc := .committing }
    | _ => none
  | .beginReceived =>
    if s.pc = .beginning then s.beginResult.map fun err => (s.receiveBegin err).afterBegin else none
  | .beginStopped =>
    if s.pc = .beginning ∧ s.token then some { s with token := false }.afterBegin else none
  | .beginParentDone =>
    if s.pc = .beginning ∧ s.parent.isSome then some { s with terminal := .empty }.afterBegin else none
  | .activeStopped =>
    if s.pc = .active ∧ s.token then some { s with
      token := false
      pc := .committing }
    else none
  | .activeParentDone =>
    if s.pc = .active ∧ s.parent.isSome then some { s with
      terminal := .empty
      pc := .committing }
    else none
  | .commit => if s.pc = .committing then some s.commitStopRequests else none
  | .mediaCloses err =>
    if s.pc = .closingMedia then
      let s := { s with terminal := s.terminal.mergeFailure (err.map (.wrapped "close audio media: ")) }
      some (if s.transport then { s with pc := .closingTransport } else s.runHandlers s.closeHandlers)
    else none
  | .transportCloses err =>
    if s.pc = .closingTransport then
      let s := { s with terminal := s.terminal.mergeFailure (err.map (.wrapped "close transport: ")) }
      some (s.runHandlers s.closeHandlers)
    else none
  | .closeHandlerReturns err =>
    match s.pc with
    | .closingHandlers rest =>
      let s := { s with
        terminal := s.terminal.mergeFailure (err.map (.wrapped "session close handler: ")) }
      some (s.runHandlers rest)
    | _ => none
  | .workersDone => if s.pc = .joiningWorkers then some { s with pc := .completing } else none
  | .workersTimeout =>
    if s.pc = .joiningWorkers then some { s with
      terminal := s.terminal.merge (.failure (.message "rtvbp: session workers did not stop"))
      pc := .completing }
    else none
  | .complete => if s.pc = .completing then some s.complete else none

/-- The session as a machine. -/
def machine [DecidableEq ε] (config : Config) (is : ε → ε → Bool) (canceled : ε) :
    Machine (State ε) (Action ε) where
  Start s := s = initial
  step := step config is canceled

/-! ## What is asked of a run -/

/-- The supervisor has left the selects in which it waits for the token. -/
def Pc.leftSelects : Pc ε → Bool
  | .idle | .started | .creating | .beginning | .active => false
  | _ => true

/-- The stop request that an action issues. -/
def Action.request : Action ε → Option (StopRequest ε)
  | .requestStop request => some request
  | _ => none

/-- The stop requests that a schedule issues. -/
def requests (schedule : List (Action ε)) : List (StopRequest ε) := schedule.filterMap Action.request

/-- The failure of the teardown that an action reports. -/
def Action.teardownFailure : Action ε → Option (Cause ε)
  | .mediaCloses err => err.map (.wrapped "close audio media: ")
  | .transportCloses err => err.map (.wrapped "close transport: ")
  | .closeHandlerReturns err => err.map (.wrapped "session close handler: ")
  | .workersTimeout => some (.message "rtvbp: session workers did not stop")
  | _ => none

/-- The failures of the teardown that a schedule reports. -/
def teardownFailures (schedule : List (Action ε)) : List (Cause ε) :=
  schedule.filterMap Action.teardownFailure

/-- The construction of the transport fails in this step, and not by the cancellation itself: there is
neither a transport nor an error, or an error that is not the one of the ended context, or the factory
does not stop, or the transport that has to go cannot be closed. -/
def ConstructionFails (is : ε → ε → Bool) (s : State ε) : Action ε → Prop
  | .created => ∃ created, s.factory = some created ∧
      ((created.err = none ∧ created.transport = false) ∨
        ∃ err, created.err = some err ∧ ∀ ended, s.parent = some ended → is err ended = false)
  | .partialCloses err => err.isSome
  | .joined => ∃ created ctxErr, s.factory = some created ∧ s.pc = .joining ctxErr ∧
      created.transport = false ∧ ∃ err, created.err = some err ∧ is err ctxErr = false
  | .joinTimeout => True
  | .canceledCloses closeErr => closeErr.isSome ∨ ∃ created ctxErr,
      s.pc = .closingCanceled ctxErr created ∧ ∃ err, created.err = some err ∧ is err ctxErr = false
  | _ => False

/-- The step is one that makes the session fail: a failed stop request before the commit, a configuration
error, a failed construction, an error received from `OnBegin`, or a failure of the teardown. -/
def Fails (config : Config) (is : ε → ε → Bool) (s : State ε) (a : Action ε) : Prop :=
  (∃ request, a = .requestStop request ∧ s.stopCommit = false ∧ request.failed = true) ∨
  (a = .configure ∧ config.check.isSome) ∨
  ConstructionFails is s a ∨
  (a = .beginReceived ∧ ∃ err, s.beginResult = some (some err)) ∨
  a.teardownFailure.isSome

end Rtvbp.Go.Supervise
