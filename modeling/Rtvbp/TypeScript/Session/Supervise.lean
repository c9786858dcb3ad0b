import Rtvbp.Lib.Machine
import Rtvbp.TypeScript.Session.Lifecycle

/-!
# The supervisor

`Session.run` and `#supervise` of `sdk/typescript/src/session.ts` as a machine. The supervisor's program
counter stands at the places where other code can run: at its `await`s, and where it calls into the
transport and the handler. The environment chooses when promises settle and with which result, and
when anybody asks the session to stop; `stop` is a call of `requestStop` by a caller, a worker, the
audio stream or a handler.
-/

namespace Rtvbp.TypeScript.Supervise

open Rtvbp.Lib

/-- What the supervisor reads of a transport: `supportsKeepalive`, and which monitors it has. -/
structure Transport where
  supportsKeepalive : Bool
  monitorKeepalive : Bool
  monitor : Bool

/-- The part of the session configuration that the supervisor reads. -/
structure Config where
  /-- The given transport; without one there is a transport factory. -/
  transport : Option Transport
  /-- A keepalive policy is configured. -/
  keepalive : Bool

/-- The state of the promise `ready`. -/
inductive Ready where
  | pending
  | resolved
  | rejected

/-- `#readyResolve`: settling a settled promise changes nothing. -/
def Ready.resolve : Ready → Ready
  | .pending => .resolved
  | r => r

/-- `#readyReject`. -/
def Ready.reject : Ready → Ready
  | .pending => .rejected
  | r => r

/-- The program counter of the supervisor. -/
inductive Pc where
  /-- `run` has not been called. -/
  | idle
  /-- The state is `connecting` and the parent signal is observed. -/
  | entered
  /-- Waiting for the transport factory. -/
  | connecting
  /-- The transport is there; the workers are started and `begin` is called. -/
  | connected
  /-- Waiting for `begin` or a stop. -/
  | beginning
  /-- Waiting for a stop. -/
  | running
  /-- Waiting for the audio stream to close. -/
  | closingAudio
  /-- Waiting for the transport to close. -/
  | closingTransport
  /-- Waiting for the workers. -/
  | joining
  /-- The promise of `run` is settled. -/
  | done
  deriving DecidableEq

/-- The promise that `begin` returned. -/
inductive Begin (ε : Type) where
  | uncalled
  | pending
  | fulfilled
  | rejected (error : ε)

/-- The state of a session as far as the supervisor is concerned. -/
structure State (ε : Type) where
  life : Lifecycle ε
  pc : Pc
  transport : Option Transport
  /-- The parent signal is aborted, with this reason. -/
  parent : Option ε
  beginning : Begin ε
  ready : Ready
  /-- The session has been in the state `active`. -/
  enteredActive : Bool

/-- What can happen next. -/
inductive Action (ε : Type) where
  /-- A call of `requestStop`. -/
  | stop (cause : Option ε) (failed : Bool)
  /-- The parent signal is aborted. -/
  | parentAbort (reason : ε)
  /-- `run` is called. -/
  | run
  /-- The supervisor checks the parent signal and goes for the transport. -/
  | connect
  /-- The promise of the transport factory settles. -/
  | factoryResolves (transport : Transport)
  | factoryRejects (error : ε)
  /-- The workers are started and `begin` is called; it throws `error` or returns a promise. -/
  | start (error : Option ε)
  /-- The promise of `begin` settles. -/
  | beginFulfills
  | beginRejects (error : ε)
  /-- The race between `begin` and a stop is decided by `begin`, or by the stop. -/
  | began
  | stopped
  /-- The supervisor, waiting in state `active`, sees the stop. -/
  | wake
  /-- The steps of the teardown, each with its failure. -/
  | audioCloses (error : Option ε)
  | transportCloses (error : Option ε)
  | workersJoin (error : Option ε)

namespace State

variable {ε : Type} (s : State ε)

/-- The listener on the parent signal is attached. -/
def listening : Bool :=
  match s.pc with
  | .entered | .connecting | .connected | .beginning | .running => true
  | _ => false

/-- The synchronous start of the `finally` block. -/
def finalize : State ε :=
  { s with
    life := if s.life.aborted then s.life else s.life.requestStop none false
    pc := .closingAudio }

/-- The `catch` block, followed by `finally`. -/
def caught (error : ε) : State ε :=
  let life := if s.life.aborted then s.life else s.life.requestStop (some error) true
  finalize
    { s with
      life := life
      ready := if life.state = .connecting then s.ready.reject else s.ready }

/-- The transport declares keepalive without a monitor although a policy is configured. -/
def misconfigured (config : Config) : Bool :=
  match s.transport with
  | some t => t.supportsKeepalive && config.keepalive && !t.monitorKeepalive
  | none => false

end State

variable {ε : Type} (config : Config) (closedError configurationError : ε)

/-- One step of the session. `closedError` is the error "session stopped while starting" and
`configurationError` the error about a missing keepalive monitor. -/
def step (s : State ε) : Action ε → Option (State ε)
  | .stop cause failed => some { s with life := s.life.requestStop cause failed }
  | .parentAbort reason =>
    if s.parent.isSome then none
    else if s.listening then
      some { s with parent := some reason, life := s.life.requestStop (some reason) false }
    else some { s with parent := some reason }
  | .run =>
    if s.pc = .idle then some { s with pc := .entered, life := { s.life with state := .connecting } }
    else none
  | .connect =>
    if s.pc = .entered then
      match s.parent with
      | some reason => some (s.caught reason)
      | none =>
        match config.transport with
        | some t => some { s with pc := .connected, transport := some t }
        | none => some { s with pc := .connecting }
    else none
  | .factoryResolves t =>
    if s.pc = .connecting then some { s with pc := .connected, transport := some t } else none
  | .factoryRejects error =>
    if s.pc = .connecting then some (s.caught error) else none
  | .start error =>
    if s.pc = .connected then
      if s.misconfigured config then some (s.caught configurationError)
      else
        match error with
        | some error => some (s.caught error)
        | none => some { s with pc := .beginning, beginning := .pending }
    else none
  | .beginFulfills =>
    match s.beginning with
    | .pending => some { s with beginning := .fulfilled }
    | _ => none
  | .beginRejects error =>
    match s.beginning with
    | .pending => some { s with beginning := .rejected error }
    | _ => none
  | .began =>
    if s.pc = .beginning then
      match s.beginning with
      | .uncalled | .pending => none
      | .rejected error => some (s.caught error)
      | .fulfilled =>
        if s.life.aborted then some (s.caught closedError)
        else
          some
            { s with
              pc := .running
              life := { s.life with state := .active }
              ready := s.ready.resolve
              enteredActive := true }
    else none
  | .stopped =>
    if s.pc = .beginning ∧ s.life.aborted then some (s.caught closedError) else none
  | .wake => if s.pc = .running ∧ s.life.aborted then some s.finalize else none
  | .audioCloses error =>
    if s.pc = .closingAudio then
      some
        { s with
          life := s.life.recordFailure error
          pc := if s.transport.isSome then .closingTransport else .joining }
    else none
  | .transportCloses error =>
    if s.pc = .closingTransport then
      some { s with life := s.life.recordFailure error, pc := .joining }
    else none
  | .workersJoin error =>
    if s.pc = .joining then
      some { s with life := (s.life.recordFailure error).finish, pc := .done }
    else none

/-- The step is a local stop request: by the caller, the handler, a terminal request or the parent
signal. -/
def State.stopsLocally (s : State ε) : Action ε → Bool
  | .stop _ failed => !failed
  | .parentAbort _ => s.listening
  | _ => false

/-- A new session. -/
def initial : State ε where
  life := .new
  pc := .idle
  transport := none
  parent := none
  beginning := .uncalled
  ready := .pending
  enteredActive := false

/-- The runs of a session. -/
def machine : Machine (State ε) (Action ε) where
  Start s := s = initial
  step := step config closedError configurationError

/-- The promise of `run` is settled: the state is `closed` or `failed`. -/
def State.terminal (s : State ε) : Prop := s.pc = .done

/-- `ready` is settled as it should be: resolved if the session was active, rejected if it was not. -/
def State.readySettled (s : State ε) : Prop :=
  s.ready = if s.enteredActive then .resolved else .rejected

end Rtvbp.TypeScript.Supervise
