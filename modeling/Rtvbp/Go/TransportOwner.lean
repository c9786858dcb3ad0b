import Rtvbp.Go.Supervise

/-!
# The owner of the transport

`createTransport`, `acceptTransportResult`, `joinCanceledTransportFactory` and `closeTransport` of
`sdk/go/session.go`, beside the supervisor. The goroutine that calls the factory hands its result over to the
supervisor, in one of the two selects that receive it, or finds that it was given up and closes the transport itself.

The hand-over is one step of both, as the channel has no buffer. The factory returns at any time, with anything.
-/

namespace Rtvbp.Go.TransportOwner

open Rtvbp.Lib
open Rtvbp.Go.Supervise (Config Pc TransportResult)

/-- The goroutine of `createTransport`. -/
inductive Factory (ε : Type) where
  | absent
  /-- In the factory. -/
  | running
  /-- In the select. -/
  | offering (result : TransportResult ε)
  /-- The supervisor has received the result. -/
  | received (result : TransportResult ε)
  /-- In `closeTransport`. -/
  | closing (result : TransportResult ε)
  /-- The result was given up. -/
  | ended (result : TransportResult ε)

/-- Who calls `closeTransport`. -/
inductive Closer where
  | acceptTransportResult
  | joinCanceledTransportFactory
  | closeResources
  | goroutine

/-- A session with the goroutine. -/
structure State (ε : Type) where
  session : Supervise.State ε
  factory : Factory ε
  /-- The channel `abandoned` is closed. -/
  abandoned : Bool
  /-- History: the calls of `closeTransport`. -/
  closes : List Closer

/-- The steps of the goroutine. -/
inductive FactoryAction (ε : Type) where
  /-- The factory returns. -/
  | returns (result : TransportResult ε)
  /-- The case `<-abandoned`. -/
  | abandoned
  /-- `closeTransport` returns. -/
  | closed (err : Option ε)

/-- What can happen next. -/
inductive Action (ε : Type) where
  | session (a : Supervise.Action ε)
  | factory (a : FactoryAction ε)

variable {ε : Type}

/-- The supervisor is in `closeTransport`. -/
def closer : Pc ε → Option Closer
  | .closingPartial => some .acceptTransportResult
  | .closingCanceled _ _ => some .joinCanceledTransportFactory
  | .closingTransport => some .closeResources
  | _ => none

/-- The call of `closeTransport` in a step of the supervisor from one place to another. -/
def newCloses (pc pc' : Pc ε) : List Closer := if (closer pc).isNone then (closer pc').toList else []

/-- The goroutine in a step of the supervisor that leads to `pc`. -/
def Factory.after (factory : Factory ε) (a : Supervise.Action ε) (pc : Pc ε) : Option (Factory ε) :=
  match a, factory with
  | .factoryReturns _, _ => none
  | .configure, factory => some (if pc.constructing then .running else factory)
  | .created, .offering result | .joined, .offering result => some (.received result)
  | .created, _ | .joined, _ => none
  | _, factory => some factory

/-- The supervisor gives the factory up. -/
def abandons : Supervise.Action ε → Bool
  | .joinTimeout => true
  | _ => false

/-- One step. -/
def step [DecidableEq ε] (config : Config) (is : ε → ε → Bool) (canceled : ε) (s : State ε) :
    Action ε → Option (State ε)
  | .session a =>
    (Supervise.step config is canceled s.session a).bind fun session =>
      (s.factory.after a session.pc).map fun factory =>
        { session := session
          factory := factory
          abandoned := s.abandoned || abandons a
          closes := s.closes ++ newCloses s.session.pc session.pc }
  | .factory (.returns result) =>
    match s.factory with
    | .running =>
      some { s with
        session := (Supervise.step config is canceled s.session (.factoryReturns result)).getD s.session
        factory := .offering result }
    | _ => none
  | .factory .abandoned =>
    match s.factory with
    | .offering result =>
      if s.abandoned then
        some (if result.transport then { s with factory := .closing result, closes := s.closes ++ [.goroutine] }
          else { s with factory := .ended result })
      else none
    | _ => none
  | .factory (.closed _) =>
    match s.factory with
    | .closing result => some { s with factory := .ended result }
    | _ => none

/-- A session that has not run. -/
def initial : State ε where
  session := Supervise.initial
  factory := .absent
  abandoned := false
  closes := []

/-- The runs of a session. -/
def machine [DecidableEq ε] (config : Config) (is : ε → ε → Bool) (canceled : ε) :
    Machine (State ε) (Action ε) where
  Start s := s = initial
  step := step config is canceled

/-! ## What is asked of a run -/

/-- What the factory has returned. -/
def Factory.result? : Factory ε → Option (TransportResult ε)
  | .absent | .running => none
  | .offering result | .received result | .closing result | .ended result => some result

/-- The session uses the transport that is stored: the shutdown of its resources has not begun. -/
def State.InUse (s : State ε) : Prop := s.session.transport = true ∧ s.session.stopCommit = false

/-- The supervisor has completed the session, and the goroutine has ended. -/
def State.Settled (s : State ε) : Prop :=
  s.session.pc = .finished ∧ ∃ result, s.factory = .received result ∨ s.factory = .ended result

/-- The session closes nothing but a transport that the factory has returned, at most once, and not while it uses it;
when the session is settled, it has closed the transport, if there is one; and a goroutine that offers its result when
the supervisor is gone has been given up, so that it goes on. -/
structure State.Owned (s : State ε) : Prop where
  at_most_once : s.closes.length ≤ 1
  returned : s.closes ≠ [] → ∃ result, s.factory.result? = some result ∧ result.transport = true
  not_in_use : s.InUse → s.closes = []
  settled : s.Settled → ∀ result, s.factory.result? = some result → result.transport = true →
    s.closes.length = 1
  not_stuck : s.session.pc = .finished → ∀ result, s.factory = .offering result → s.abandoned = true

end Rtvbp.Go.TransportOwner
