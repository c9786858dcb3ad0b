import Rtvbp.Lib.Handles
import Rtvbp.Lib.Machine
import Rtvbp.TypeScript.PlaybackCapacity

/-!
# The lifecycle of a browser audio device

`attachWebSocket`, `prepareWebRtc`, `attachRemoteTrack`, `detachRemoteTrack`, `close`, `#ensureCore` and
`#startWorklets` of `BrowserAudioDevice` in `sdk/typescript/src/browser_audio.ts`. A step is what runs without
interruption from one `await` to the next; any number of calls are in flight, and any of them goes on next. What
the browser answers is a part of the step.

What the calls throw and the frames on their way through the worklets are left out, and the callbacks of the
configuration do not call the device.
-/

namespace Rtvbp.TypeScript.BrowserDevice

open Rtvbp.Lib
open Rtvbp.TypeScript.PlaybackCapacity (format)

/-- `BrowserAudioDeviceState`. -/
inductive DeviceState where
  | inactive
  | starting
  | active
  | failed
  | closed
  deriving DecidableEq

/-- What `BrowserAudioDeviceConfig` brings along: `stream` and `audioContext`. -/
structure Config where
  stream : Bool
  audioContext : Bool

/-! ## What the device holds -/

/-- The stream or the context of the configuration, or the one that the device has acquired with a number. -/
inductive Ref where
  | injected
  | own (n : Nat)

/-- `#stream` with `#ownsStream`, or `#context` with `#ownsContext`. The tracks of a stream are live together. -/
structure Holding where
  current : Option Ref
  owns : Bool
  /-- History: what the device has acquired. -/
  acquired : Handles

namespace Holding

def empty : Holding := ⟨none, false, []⟩

/-- Take what the configuration brings along. -/
def inject (h : Holding) : Holding := { h with current := some .injected }

/-- Keep what `getUserMedia` or `createAudioContext` has returned. -/
def acquire (h : Holding) : Holding := ⟨some (.own h.acquired.length), true, h.acquired.acquire⟩

/-- The number of the current one, if the device owns it. -/
def owned (h : Holding) : Option Nat :=
  match h.owns, h.current with
  | true, some (.own n) => some n
  | _, _ => none

/-- Stop the tracks of the current stream, or close the current context, if the device owns it. -/
def release (h : Holding) : Holding := { h with acquired := h.acquired.releaseCurrent h.owned }

end Holding

/-! ## The calls -/

/-- A call that needs the core; an `AudioStream` is identified by a number. -/
inductive Call where
  | attachWebSocket (audio : Nat)
  | prepareWebRtc
  | attachRemoteTrack
  deriving DecidableEq

/-- `#corePromise`, with the call that has set it as long as that call is not through with it. -/
inductive Core where
  /-- Undefined. -/
  | none
  /-- Awaits `getUserMedia`. -/
  | userMedia (call : Call)
  /-- Awaits `context.resume()`. -/
  | resuming (call : Call)
  /-- Rejected; the call has yet to run its `catch` block. -/
  | rejected (call : Call)
  /-- Rejected; the `catch` block awaits `context.close()`. -/
  | cleaning (call : Call)
  | fulfilled
  deriving DecidableEq

/-- Where a call in flight is. -/
inductive Op where
  /-- Awaits the `#corePromise` of another call. -/
  | waiting (call : Call)
  /-- `#ensureCore` has returned. -/
  | ready (call : Call)
  /-- `#ensureCore` or `#startWorklets` has thrown. -/
  | refused (call : Call)
  /-- `#startWorklets` awaits `addModule`. -/
  | loading (audio : Nat)
  /-- `#startWorklets` has returned. -/
  | started (audio : Nat)
  /-- `attachRemoteTrack` awaits `context.resume()`. -/
  | resuming
  /-- `close` awaits `#captureTail` and `#playbackTask`. -/
  | draining
  /-- `close` awaits `context.close()`. -/
  | closing
  deriving DecidableEq

/-- The fields of a device. -/
structure State where
  state : DeviceState
  /-- The signal of `#abort`. -/
  aborted : Bool
  core : Core
  stream : Holding
  context : Holding
  /-- `#captureNode` is defined. -/
  captureNode : Bool
  audio : Option Nat
  remoteProbe : Option Nat
  /-- History: the timers of `setInterval`. -/
  probes : Handles
  /-- The calls in flight, but for the one that `core` names. -/
  ops : List Op
  /-- History: a `close` has released the stream and the context, and a `close` has resolved. -/
  released : Bool
  resolved : Bool

/-- A new device. -/
def new : State where
  state := .inactive
  aborted := false
  core := .none
  stream := .empty
  context := .empty
  captureNode := false
  audio := none
  remoteProbe := none
  probes := []
  ops := []
  released := false
  resolved := false

/-- What the core meets between the stream and `context.resume()`. -/
structure Startup where
  /-- The signal of the call is aborted. -/
  aborted : Bool
  /-- The number of audio tracks of the stream. -/
  audioTracks : Nat
  /-- `createAudioContext` does not throw. -/
  creates : Bool

/-- What a call meets when it goes on. -/
structure Outcome where
  /-- Nothing throws. -/
  ok : Bool
  /-- Otherwise, the capture node was made before. -/
  captureNode : Bool := false

/-- What can happen next. -/
inductive Event where
  | attachWebSocket (audio : Nat) (negotiated : Option MediaFormat) (aborted : Bool) (startup : Startup)
  | prepareWebRtc (aborted : Bool) (startup : Startup)
  | attachRemoteTrack (kind : String) (startup : Startup)
  | detachRemoteTrack
  | close
  /-- `getUserMedia` has resolved, or failed. -/
  | userMedia (result : Option Startup)
  /-- The `context.resume()` of the core has resolved, or failed. -/
  | resumed (ok : Bool)
  /-- The `catch` block of the call that has set `#corePromise` runs up to its `await`, and after it. -/
  | cleanup
  | cleaned
  /-- `#captureTail` or `#playbackTask` has failed. -/
  | mediaFailed
  /-- A call in flight goes on. -/
  | goOn (i : Nat) (outcome : Outcome)

namespace State

variable (config : Config) (s : State)

/-- One more call in flight. -/
def enter (op : Op) : State := { s with ops := s.ops ++ [op] }

/-- `#fail`. -/
def fail : State := { s with state := if s.state = .closed then .closed else .failed }

/-! ## The core -/

/-- What becomes of the calls that await `#corePromise`. -/
def settle (ready : Bool) : Op → Op
  | .waiting call => if ready then .ready call else .refused call
  | op => op

/-- `#corePromise` is rejected. -/
def rejectCore (call : Call) : State := { s with core := .rejected call, ops := s.ops.map (settle false) }

/-- `#corePromise` is fulfilled. -/
def fulfillCore (call : Call) : State :=
  { s with core := .fulfilled, ops := s.ops.map (settle true) ++ [.ready call] }

/-- The core from the stream on. -/
def openContext (call : Call) (startup : Startup) : State :=
  if startup.aborted then s.rejectCore call
  else if startup.audioTracks ≠ 1 then s.rejectCore call
  else if config.audioContext then { s with context := s.context.inject, core := .resuming call }
  else if startup.creates then { s with context := s.context.acquire, core := .resuming call }
  else s.rejectCore call

/-- The function that makes `#corePromise`. -/
def startCore (call : Call) (startup : Startup) : State :=
  if config.stream then { s with stream := s.stream.inject }.openContext config call startup
  else { s with core := .userMedia call }

/-- `#ensureCore`. -/
def ensureCore (call : Call) (aborted : Bool) (startup : Startup) : State :=
  if aborted then s.enter (.refused call)
  else if s.state = .closed then s.enter (.refused call)
  else
    match s.core with
    | .none => { s with state := .starting }.startCore config call startup
    | .userMedia _ | .resuming _ => s.enter (.waiting call)
    | .rejected _ | .cleaning _ => s.enter (.refused call)
    | .fulfilled => s.enter (.ready call)

/-- The `catch` block of `#ensureCore`, up to its `await`. -/
def cleanup (call : Call) : State :=
  if s.context.owns then
    { s with stream := s.stream.release, context := s.context.release, core := .cleaning call }
  else { s with stream := s.stream.release, core := .none }.enter (.refused call)

/-! ## The methods -/

/-- `attachWebSocket` up to its first `await`. -/
def attachWebSocket (audio : Nat) (negotiated : Option MediaFormat) (aborted : Bool) (startup : Startup) : State :=
  if aborted then s
  else if s.audio.isSome ∧ s.audio ≠ some audio then s
  else if negotiated ≠ some format then s
  else s.ensureCore config (.attachWebSocket audio) aborted startup

/-- `prepareWebRtc` up to its `await`. -/
def prepareWebRtc (aborted : Bool) (startup : Startup) : State :=
  s.ensureCore config .prepareWebRtc aborted startup

/-- `attachRemoteTrack` up to its first `await`. -/
def attachRemoteTrack (kind : String) (startup : Startup) : State :=
  if kind ≠ "audio" then s else s.ensureCore config .attachRemoteTrack false startup

/-- `detachRemoteTrack`. -/
def detachRemoteTrack : State :=
  { s with probes := s.probes.releaseCurrent s.remoteProbe, remoteProbe := none }

/-- `attachRemoteTrack` sets its timer. -/
def probe : State := { s with probes := s.probes.acquire, remoteProbe := some s.probes.length }

/-- `close` up to its first `await`. -/
def close : State :=
  if s.state = .closed then s else { s with aborted := true }.detachRemoteTrack.enter .draining

/-- `close` when the capture and the playback have come to their end. -/
def releaseAll : State :=
  if s.context.owns then
    { s with stream := s.stream.release, context := s.context.release, released := true }.enter .closing
  else { s with stream := s.stream.release, state := .closed, released := true, resolved := true }

/-- A call in flight goes on; it has left `ops`. -/
def goOn (outcome : Outcome) : Op → Option State
  | .waiting _ => none
  | .ready (.attachWebSocket audio) =>
    if s.captureNode then some { s with audio := some audio, state := .active }
    else if s.context.current.isSome ∧ outcome.ok then some (s.enter (.loading audio))
    else some (s.enter (.refused (.attachWebSocket audio)))
  | .ready .prepareWebRtc => if outcome.ok then some { s with state := .active } else some s.fail
  | .ready .attachRemoteTrack =>
    if s.context.current.isSome ∧ outcome.ok then some (s.probe.enter .resuming) else some s
  | .refused .attachRemoteTrack => some s
  | .refused _ => some s.fail
  | .loading audio =>
    if outcome.ok then some ({ s with captureNode := true, audio := some audio }.enter (.started audio))
    else some ({ s with captureNode := s.captureNode || outcome.captureNode }.enter
      (.refused (.attachWebSocket audio)))
  | .started audio => some { s with audio := some audio, state := .active }
  | .resuming => some s
  | .draining => some s.releaseAll
  | .closing => some { s with state := .closed, resolved := true }

end State

/-- One step. -/
def step (config : Config) (s : State) : Event → Option State
  | .attachWebSocket audio negotiated aborted startup =>
    some (s.attachWebSocket config audio negotiated aborted startup)
  | .prepareWebRtc aborted startup => some (s.prepareWebRtc config aborted startup)
  | .attachRemoteTrack kind startup => some (s.attachRemoteTrack config kind startup)
  | .detachRemoteTrack => some s.detachRemoteTrack
  | .close => some s.close
  | .userMedia result =>
    match s.core, result with
    | .userMedia call, some startup => some ({ s with stream := s.stream.acquire }.openContext config call startup)
    | .userMedia call, none => some (s.rejectCore call)
    | _, _ => none
  | .resumed ok =>
    match s.core with
    | .resuming call => some (if ok then s.fulfillCore call else s.rejectCore call)
    | _ => none
  | .cleanup =>
    match s.core with
    | .rejected call => some (s.cleanup call)
    | _ => none
  | .cleaned =>
    match s.core with
    | .cleaning call => some ({ s with core := .none }.enter (.refused call))
    | _ => none
  | .mediaFailed => if s.captureNode then some s.fail else none
  | .goOn i outcome => s.ops[i]?.bind fun op => { s with ops := s.ops.eraseIdx i }.goOn outcome op

/-- The runs of a device. -/
def machine (config : Config) : Machine State Event where
  Start s := s = new
  step := step config

/-! ## What is asked of a run -/

/-- No call is in flight. -/
def State.Idle (s : State) : Prop := s.ops = [] ∧ (s.core = .none ∨ s.core = .fulfilled)

/-- A `close` has resolved, and every call that was started has settled. -/
def State.Settled (s : State) : Prop := s.resolved = true ∧ s.Idle

/-- The device is closed and has let go of everything that it has acquired. -/
structure State.Gone (s : State) : Prop where
  state : s.state = .closed
  tracks : s.stream.acquired.AllReleased
  context : s.context.acquired.AllReleased
  probes : s.probes.AllReleased

/-- Every stream and every context that the device has acquired is released. -/
def State.Clean (s : State) : Prop := s.stream.acquired.AllReleased ∧ s.context.acquired.AllReleased

/-- No step so far has left anything behind. -/
structure State.Tidy (s : State) : Prop where
  /-- A device is closed for good when a `close` has resolved. -/
  closed : s.resolved = true → s.state = .closed
  /-- The only timer is the one that `detachRemoteTrack` clears. -/
  timer : s.probes.Only s.remoteProbe
  /-- No timer runs once a `close` has been called. -/
  stopped : s.aborted = true → s.probes.AllReleased
  /-- A core that is up holds nothing once a `close` has released what there was. -/
  held : s.released = true → s.core = .fulfilled → s.Clean

/-- A call in flight goes on in time: before a `close` has resolved if it is about to make the device active, and
before a `close` is called and with no timer set if it is about to set one. -/
def State.opInTime (s : State) (outcome : Outcome) : Op → Bool
  | .ready (.attachWebSocket _) => !(s.captureNode && s.resolved)
  | .ready .prepareWebRtc => !(outcome.ok && s.resolved)
  | .started _ => !s.resolved
  | .ready .attachRemoteTrack =>
    !(s.context.current.isSome && outcome.ok && (s.aborted || s.remoteProbe.isSome))
  | _ => true

/-- The step comes in time: the core does not start up with what was acquired after a `close` has released what
there was, and the calls in flight go on in time. -/
def InTime (s : State) : Event → Prop
  | .resumed true => s.released = true → s.Clean
  | .goOn i outcome => ∀ op ∈ s.ops[i]?, s.opInTime outcome op = true
  | _ => True

instance (s : State) : Decidable s.Clean := inferInstanceAs (Decidable (_ ∧ _))

instance (s : State) : (e : Event) → Decidable (InTime s e)
  | .resumed true => inferInstanceAs (Decidable (s.released = true → s.Clean))
  | .goOn i outcome => inferInstanceAs (Decidable (∀ op ∈ s.ops[i]?, s.opInTime outcome op = true))
  | .attachWebSocket _ _ _ _ | .prepareWebRtc _ _ | .attachRemoteTrack _ _ | .detachRemoteTrack | .close
  | .userMedia _ | .resumed false | .cleanup | .cleaned | .mediaFailed => inferInstanceAs (Decidable True)

end Rtvbp.TypeScript.BrowserDevice
