import Rtvbp.Go.Media

/-!
# The connection outcome of the WebRTC transport

`handleConnectionState`, `OpenMedia`, `AcceptMedia`, `claim`, `unclaim` of `sdk/go/transport/webrtcws/transport.go` and
`configure` and `waitConnected` of `media.go`. A call is a thread; the peer connection, which calls back with its
states, and everything that ends the media channel are the environment. `connected` is a channel with room for one.
-/

namespace Rtvbp.Go.WebRtc

open Rtvbp.Lib
open Rtvbp.Go.Media (MediaFormat)

/-! ## Formats and outcomes -/

/-- `rtvbp.MediaFormat{}`. -/
def noFormat : MediaFormat := { Encoding := "", SampleRate := 0, BitDepth := 0, Channels := 0, PTime := 0 }

/-- `pcmuClockRate`. -/
def pcmuClockRate : Int64 := 8000

/-- `pcmuPTime`. -/
def pcmuPTime : Int64 := 20000000

/-- `validateFormat`. -/
def validateFormat (format : MediaFormat) : Except String Unit :=
  if format.Encoding ≠ "L16" ∨ format.SampleRate ≠ pcmuClockRate ∨ format.BitDepth ≠ 16 ∨ format.Channels ≠ 1 ∨
      format.PTime ≠ pcmuPTime then
    .error ("webrtcws: unsupported audio format " ++ format.goString ++ "; want L16/8000/16-bit/mono/20ms")
  else format.FrameBytes.map fun _ => ()

/-- `webrtc.PeerConnectionState`. -/
inductive PeerState where
  | unknown
  | new
  | connecting
  | connected
  | disconnected
  | failed
  | closed

/-- What is sent on `connected`: nil, `errPeerFailed` or `io.EOF`. -/
inductive Outcome where
  | connected
  | failed
  | closed
  deriving DecidableEq

/-- The errors of a call. -/
inductive Error where
  | mediaUnsupported
  | mediaClaimed
  | peerFailed
  | eof
  /-- `ctx.Err()`. -/
  | ctx (err : String)
  /-- A format that is refused, and one that conflicts with the format that is set. -/
  | invalidFormat (err : String)
  | formatConflict (format : MediaFormat)
  /-- `AcceptMedia` without a format. -/
  | notConfigured (err : String)
  deriving DecidableEq

/-- `Error()`. -/
def Error.text : Error → String
  | .mediaUnsupported => "rtvbp: dynamic media is unsupported"
  | .mediaClaimed => "webrtcws: audio media has already been opened or accepted"
  | .peerFailed => "webrtcws: WebRTC peer connection failed"
  | .eof => "EOF"
  | .ctx err => err
  | .invalidFormat err => err
  | .formatConflict format => "webrtcws: audio format already configured as " ++ format.goString
  | .notConfigured err => "webrtcws: accepted audio format is not configured: " ++ err

/-- The outcome that a state of the peer is reported as. -/
def PeerState.outcome? : PeerState → Option Outcome
  | .connected => some .connected
  | .failed => some .failed
  | .closed => some .closed
  | _ => none

/-! ## The state -/

/-- What the calls and the peer share. -/
structure Shared (ι : Type) where
  /-- `connected` and `stateOnce`. -/
  connected : Option Outcome
  stateOnce : Bool
  claimed : Bool
  /-- The format of the media channel, and whether it has ended. -/
  format : MediaFormat
  closed : Bool
  /-- History: the outcome that was reported first, the call that holds the claim, and the call that has received the
  outcome. -/
  reported : Option Outcome
  owner : Option ι
  taken : Option ι

/-- A call of `OpenMedia` or of `AcceptMedia`; what it has received from `connected` is history. -/
inductive Call where
  | idle
  /-- Before `claim`, and with the claim. -/
  | opening (format : MediaFormat)
  | accepting
  | configuring (format : MediaFormat)
  | checking
  /-- In `waitConnected`. -/
  | waiting
  /-- Before `unclaim`. -/
  | failing (received : Option Outcome) (err : Error)
  | returned (received : Option Outcome) (err : Option Error)
  deriving DecidableEq

/-- The steps of a call. -/
inductive CallAction where
  | OpenMedia (id : String) (format : MediaFormat)
  | AcceptMedia
  | claim
  | configure
  | check
  /-- The two branches of the `select` in `waitConnected`. -/
  | receive
  | done (err : String)
  | unclaim
  deriving DecidableEq

/-- The steps of everybody else. -/
inductive EnvAction where
  /-- `handleConnectionState` up to `media.fail`. -/
  | state (state : PeerState)
  /-- `media.fail`: after a failure of the peer, when the remote track ends or is refused, and in `Close`. -/
  | fail

variable {ι : Type}

/-! ## The steps -/

/-- `configure`. -/
def configure (s : Shared ι) (format : MediaFormat) : Except Error (Shared ι) :=
  match validateFormat format with
  | .error err => .error (.invalidFormat err)
  | .ok () =>
    if s.closed then .error .eof
    else if s.format ≠ noFormat ∧ s.format ≠ format then .error (.formatConflict s.format)
    else .ok { s with format := format }

/-- The call after it has received an outcome. -/
def Outcome.call : Outcome → Call
  | .connected => .returned (some .connected) none
  | .failed => .failing (some .failed) .peerFailed
  | .closed => .failing (some .closed) .eof

/-- `claim`. -/
def claim (i : ι) (s : Shared ι) (next : Call) : Shared ι × Call :=
  if s.claimed then (s, .returned none (some .mediaClaimed))
  else ({ s with claimed := true, owner := some i }, next)

/-- One step of a call. -/
def act (i : ι) (s : Shared ι) (c : Call) (a : CallAction) : Option (Shared ι × Call) :=
  match c, a with
  | .idle, .OpenMedia id format =>
    some (s, if id ≠ "audio" then .returned none (some .mediaUnsupported) else .opening format)
  | .idle, .AcceptMedia => some (s, .accepting)
  | .opening format, .claim => some (claim i s (.configuring format))
  | .accepting, .claim => some (claim i s .checking)
  | .configuring format, .configure =>
    match configure s format with
    | .error err => some (s, .failing none err)
    | .ok t => some (t, .waiting)
  | .checking, .check =>
    match validateFormat s.format with
    | .error err => some (s, .failing none (.notConfigured err))
    | .ok () => some (s, .waiting)
  | .waiting, .receive =>
    match s.connected with
    | none => none
    | some outcome => some ({ s with connected := none, taken := some i }, outcome.call)
  | .waiting, .done err => some (s, .failing none (.ctx err))
  | .failing received err, .unclaim =>
    some ({ s with claimed := false, owner := none }, .returned received (some err))
  | _, _ => none

/-- `stateOnce.Do` with an outcome. -/
def report (s : Shared ι) (outcome : Outcome) : Shared ι :=
  if s.stateOnce then s
  else { s with stateOnce := true, connected := some outcome, reported := some outcome }

/-- One step of everybody else. -/
def env (s : Shared ι) : EnvAction → Option (Shared ι)
  | .state state =>
    match state.outcome? with
    | some outcome => some (report s outcome)
    | none => some s
  | .fail => some { s with closed := true }

/-- A new transport, with the format of its configuration. -/
def Start (s : Shared ι) : Prop :=
  s.connected = none ∧ s.stateOnce = false ∧ s.claimed = false ∧ s.closed = false ∧ s.reported = none ∧
    s.owner = none ∧ s.taken = none

/-- The calls of a transport. -/
def threads (ι : Type) : Threads ι (Shared ι) Call CallAction EnvAction where
  Start := Start
  new _ := .idle
  act := act
  env := env

/-- A transport with its calls. -/
abbrev State (ι : Type) := Threads.State ι (Shared ι) Call

/-! ## What is asked of a run -/

/-- What the call has received. -/
def Call.received? : Call → Option Outcome
  | .failing received _ => received
  | .returned received _ => received
  | _ => none

/-- Once an outcome is reported, a call in `waitConnected` finds it, and what a call has found is the outcome. -/
structure State.Sticky (s : State ι) : Prop where
  ready : ∀ outcome, s.shared.reported = some outcome → ∀ i, s.locals i = .waiting →
    s.shared.connected = some outcome
  same : ∀ i outcome, (s.locals i).received? = some outcome → s.shared.reported = some outcome

/-- The step takes the call to `waitConnected`. -/
def Waits (s : Shared ι) : Call → CallAction → Bool
  | .configuring format, .configure => (configure s format).isOk
  | .checking, .check => (validateFormat s.format).isOk
  | _, _ => false

/-- The step does not take a call to `waitConnected` after another call has received that the peer has failed or is
closed. -/
def First (_ : ι) (s : Shared ι) (c : Call) (a : CallAction) : Prop :=
  Waits s c a → s.taken = none ∨ s.reported = some .connected

instance [DecidableEq ι] (i : ι) (s : Shared ι) (c : Call) (a : CallAction) : Decidable (First i s c a) :=
  inferInstanceAs (Decidable (_ → _))

end Rtvbp.Go.WebRtc
