import Rtvbp.Lib.Machine
import Rtvbp.Rust.Error
import Mathlib.Logic.Function.Basic

/-!
# The telephony callbacks of the voice bridge

`register_telephony_callbacks` of `sdk/rust/src/bridge/babelforcev1.rs`. The telephony adapter invokes the
callbacks one after the other; each of them numbers its event and spawns a task that sends it. The runtime runs
the tasks in any order. A task runs without a break to the call of `send` on the control channel, by which its
event is handed over; it can also end without it, for an event that is not valid, a session that is closed, or
with the runtime.
-/

namespace Rtvbp.Rust.Telephony

open Rtvbp.Lib

/-! ## Events -/

structure DtmfEvent where
  seq : Int64
  pressed_at : Int64
  released_at : Int64
  digit : String

def DtmfEvent.validate (event : DtmfEvent) : Except Error Unit :=
  if event.seq < 0 then .error (.validation "seq must be at least 0")
  else if event.pressed_at < 0 then .error (.validation "pressed_at must be at least 0")
  else if event.released_at < 0 then .error (.validation "released_at must be at least 0")
  else if event.digit.length < 1 then .error (.validation "digit must contain at least 1 character(s)")
  else if event.pressed_at > event.released_at then
    .error (.validation "released_at must be greater than or equal to pressed_at")
  else .ok ()

def DtmfEvent.valid (event : DtmfEvent) : Bool := (event.validate matches .ok ())

structure CallHangupEvent where
  reason : Option String

/-! ## The state -/

/-- The task of a callback. -/
inductive Task where
  /-- The callback has not been invoked. -/
  | absent
  /-- There was no runtime to spawn it on. -/
  | unspawned
  /-- Before the `dtmf` event is handed over. -/
  | dtmf (event : DtmfEvent)
  /-- Before the `call.hangup` event is handed over. -/
  | hangup (event : CallHangupEvent)
  /-- `call_hangup` has returned; next is `session_terminate`. -/
  | terminating
  | done

/-- What is handed to the control channel, with the number of the callback. -/
inductive Message where
  | dtmf (callback : Nat) (event : DtmfEvent)
  | hangup (callback : Nat) (event : CallHangupEvent)
  /-- `session.terminate` with the reason `hangup`. -/
  | terminate (callback : Nat)

structure State where
  /-- How many callbacks have been invoked. -/
  callbacks : Nat
  /-- How often `dtmf_sequence` has been incremented. -/
  sequence : Nat
  task : Nat → Task
  /-- History: what has been handed over. -/
  sent : List Message

inductive Action where
  /-- The callbacks; `runtime` tells whether `try_current` finds one. -/
  | dtmf (event : DtmfEvent) (runtime : Bool)
  | hangup (event : CallHangupEvent) (runtime : Bool)
  /-- A task hands its event over. -/
  | hand (callback : Nat)
  /-- The task of a hangup hands its request over. -/
  | terminate (callback : Nat)
  /-- The event or the request of a task is not handed over. -/
  | giveUp (callback : Nat)

/-! ## The steps -/

/-- A callback with its task. -/
def State.callback (s : State) (task : Task) (runtime : Bool) : State :=
  { s with
    callbacks := s.callbacks + 1
    task := Function.update s.task s.callbacks (if runtime then task else .unspawned) }

/-- A task goes on, and hands messages over. -/
def State.proceed (s : State) (callback : Nat) (task : Task) (messages : List Message) : State :=
  { s with task := Function.update s.task callback task, sent := s.sent ++ messages }

/-- One step. -/
def step (s : State) : Action → Option State
  | .dtmf event runtime =>
    -- `fetch_add` of an `i64` wraps around
    some { s.callback (.dtmf { event with seq := Int64.ofNat s.sequence }) runtime with
      sequence := s.sequence + 1 }
  | .hangup event runtime => some (s.callback (.hangup event) runtime)
  | .hand callback =>
    match s.task callback with
    | .dtmf event => if event.valid then some (s.proceed callback .done [.dtmf callback event]) else none
    | .hangup event => some (s.proceed callback .terminating [.hangup callback event])
    | _ => none
  | .terminate callback =>
    match s.task callback with
    | .terminating => some (s.proceed callback .done [.terminate callback])
    | _ => none
  | .giveUp callback =>
    match s.task callback with
    | .dtmf _ => some (s.proceed callback .done [])
    | .hangup _ => some (s.proceed callback .terminating [])
    | .terminating => some (s.proceed callback .done [])
    | _ => none

/-- Before the first callback. -/
def registered : State where
  callbacks := 0
  sequence := 0
  task _ := .absent
  sent := []

/-- The callbacks and their tasks as a machine. -/
def machine : Machine State Action where
  Start s := s = registered
  step := step

/-! ## What is asked of a run -/

/-- The first message may be handed over before the second one. -/
def Message.MayPrecede : Message → Message → Prop
  | .dtmf _ event, .dtmf _ event' => event.seq < event'.seq
  | .hangup callback _, .dtmf callback' _ => callback ≤ callback'
  | .terminate callback, .hangup callback' _ => callback ≠ callback'
  | _, _ => True

/-- The callback has a valid `dtmf` event that its task has not handed over. -/
def State.pending (s : State) (callback : Nat) : Bool :=
  match s.task callback with
  | .dtmf event => event.valid
  | _ => false

/-- The telephony order: the messages are handed over in their order, and a hangup when no `dtmf` event of an
earlier callback is still to come. -/
structure State.Ordered (s : State) : Prop where
  sorted : s.sent.Pairwise Message.MayPrecede
  complete : ∀ i event, .hangup i event ∈ s.sent → ∀ j < i, s.pending j = false

/-- The counter has not reached the end of its range. -/
def InRange (s : State) : Action → Prop
  | .dtmf _ _ => s.sequence < 2 ^ 63
  | _ => True

/-- The task that hands its event over does not overtake the one of an earlier `dtmf` callback. -/
def NotOvertaking (s : State) : Action → Prop
  | .hand callback => ∀ j < callback, s.pending j = false
  | _ => True

instance (s : State) : DecidablePred (InRange s) := fun a => by
  unfold InRange
  split <;> infer_instance

instance (s : State) : DecidablePred (NotOvertaking s) := fun a => by
  unfold NotOvertaking
  split <;> infer_instance

end Rtvbp.Rust.Telephony
