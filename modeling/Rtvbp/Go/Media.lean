import Rtvbp.Lib.Threads

/-!
# Binding the audio channel

`OpenAudio` and `AcceptAudio` of `sdk/go/session_media.go` for any number of concurrent calls, with the
shutdown of `sdk/go/session.go` as far as it concerns the media. A call is a thread; the transport is the
environment and returns an error, nil or any channel, when it likes. A section under `mediaMu` is one step,
and so is every access to the closing flag and to the format outside of it.
-/

namespace Rtvbp.Go.Media

open Rtvbp.Lib

/-- `MediaFormat`; the packetization time is in nanoseconds. -/
structure MediaFormat where
  Encoding : String
  SampleRate : Int64
  BitDepth : Int64
  Channels : Int64
  PTime : Int64
  deriving DecidableEq

/-- The text of `%#v`. -/
def MediaFormat.goString (f : MediaFormat) : String :=
  "rtvbp.MediaFormat\x7bEncoding:" ++ f.Encoding.quote ++ ", SampleRate:" ++ toString f.SampleRate.toInt ++
    ", BitDepth:" ++ toString f.BitDepth.toInt ++ ", Channels:" ++ toString f.Channels.toInt ++
    ", PTime:" ++ toString f.PTime.toInt ++ "\x7d"

/-- `math.MaxInt64`. -/
def maxInt64 : Int64 := 9223372036854775807

/-- `FrameBytes`, where `int` has 64 bits. -/
def MediaFormat.FrameBytes (f : MediaFormat) : Except String Int64 :=
  if f.Encoding ≠ "L16" then .error s!"rtvbp: unsupported byte-audio encoding {f.Encoding.quote}"
  else if f.SampleRate ≤ 0 then .error "rtvbp: media sample rate must be positive"
  else if f.BitDepth ≠ 16 then .error s!"rtvbp: L16 media bit depth must be 16, got {f.BitDepth.toInt}"
  else if f.Channels ≤ 0 then .error "rtvbp: media channel count must be positive"
  else if f.PTime ≤ 0 then .error "rtvbp: media packetization time must be positive"
  else if f.SampleRate > maxInt64 / f.PTime then .error "rtvbp: media frame sample count overflows"
  else
    let sampleNanos := f.SampleRate * f.PTime
    if sampleNanos % 1000000000 ≠ 0 then
      .error "rtvbp: media packetization time does not contain a whole number of samples"
    else
      let samples := sampleNanos / 1000000000
      let bytesPerSample := f.BitDepth / 8
      if samples > maxInt64 / f.Channels then .error "rtvbp: media frame channel count overflows"
      else
        let frameSamples := samples * f.Channels
        if frameSamples > maxInt64 / bytesPerSample then
          .error "rtvbp: media frame byte count overflows"
        else
          let frameBytes := frameSamples * bytesPerSample
          if frameBytes ≤ 0 then .error "rtvbp: media frame byte count is out of range"
          else .ok frameBytes

/-- A `MediaChannel` as the binding sees it; `κ` tells the channels apart. -/
structure MediaChannel (κ : Type) where
  handle : κ
  ID : String
  Format : MediaFormat

/-- `audioBindState`. -/
inductive AudioBindState where
  | audioUnbound
  | audioBinding
  | audioBound
  deriving DecidableEq

/-- The errors of a call. -/
inductive Error where
  | sessionClosed
  | audioUnavailable
  | audioAlreadyBound
  /-- `ErrAudioFormatConflict` with the two formats, or with the error of `setFormat`. -/
  | audioFormatConflict (negotiated requested : MediaFormat)
  | audioFormatRejected (err : String)
  /-- The format that `OpenAudio` is called with is not valid. -/
  | invalidRequest (err : String)
  /-- The error of the transport. -/
  | transport (err : String)
  | nilChannel
  | wrongChannel (id : String)
  | invalidFormat (err : String)
  deriving DecidableEq

/-- How far the shutdown has come. -/
inductive Shutdown (κ : Type) where
  | running
  /-- `beginShutdown` has set `closing`. -/
  | begun
  /-- `closeAudioMedia` has read the channel; next is `Close`. -/
  | closing (channel : MediaChannel κ)
  /-- `closeAudioMedia` has returned. -/
  | done

/-- What the calls and the shutdown share. -/
structure Shared (ι κ : Type) where
  /-- The transport is stored. -/
  connected : Bool
  closing : Bool
  mediaState : AudioBindState
  media : Option (MediaChannel κ)
  /-- The format of the audio stream, once it is set. -/
  format : Option MediaFormat
  shutdown : Shutdown κ
  /-- History: the call that has moved the state to `audioBinding` and not back. -/
  binder : Option ι
  /-- History: the channels that were closed, that were bound and by which call, and whose pumps were
  started. -/
  closed : List κ
  bound : List (ι × MediaChannel κ)
  pumps : List (MediaChannel κ)

/-- A call of `OpenAudio`, with the format that is requested, or of `AcceptAudio`, with none. -/
inductive Call (κ : Type) where
  | idle
  /-- Before the look at `closing` in `beginAudioBind`. -/
  | entered (requested : Option MediaFormat)
  /-- Before the look at the transport. -/
  | checked (requested : Option MediaFormat)
  /-- Before the section of `beginAudioBind`. -/
  | connected (requested : Option MediaFormat)
  /-- In `OpenMedia` or `AcceptMedia`. -/
  | negotiating (requested : Option MediaFormat)
  /-- In `finishAudioBind`, before `setFormat`. -/
  | accepted (channel : MediaChannel κ)
  /-- Before the section of `finishAudioBind`. -/
  | formatted (channel : MediaChannel κ)
  /-- Before the pumps are started. -/
  | bound (channel : MediaChannel κ)
  /-- Before `abortAudioBind`, with the channel to close after it. -/
  | failed (channel : Option (MediaChannel κ)) (err : Error)
  /-- Before `Close`. -/
  | closing (channel : MediaChannel κ) (err : Error)
  /-- The call has returned; `channel` is what the transport gave it. -/
  | returned (channel : Option (MediaChannel κ)) (err : Option Error)

/-- The steps of a call. -/
inductive CallAction (κ : Type) where
  | OpenAudio (format : MediaFormat)
  | AcceptAudio
  /-- The look at `closing`, the look at the transport, and the section of `beginAudioBind`. -/
  | check
  | transport
  | begin
  /-- `OpenMedia` or `AcceptMedia` returns a channel, nil or an error. -/
  | negotiated (result : Except String (Option (MediaChannel κ)))
  | setFormat
  /-- The section of `finishAudioBind`. -/
  | finish
  | startPumps
  /-- `abortAudioBind`, and `Close` of the channel. -/
  | abort
  | close

/-- The steps of everybody else. -/
inductive EnvAction where
  /-- The supervisor stores the transport. -/
  | connect
  | requestStop
  | beginShutdown
  /-- The section of `closeAudioMedia`, and `Close`. -/
  | readMedia
  | closeMedia

variable {ι κ : Type}

/-- `setFormat` of the audio stream: the error, or the format that is set. -/
def setFormat (current : Option MediaFormat) (format : MediaFormat) :
    Except String (Option MediaFormat) :=
  match format.FrameBytes with
  | .error err => .error err
  | .ok _ =>
    match current with
    | some set =>
      if set = format then .ok (some set)
      else .error ("rtvbp: audio format is already negotiated as " ++ set.goString)
    | none => .ok (some format)

/-- The switch of `beginAudioBind`, when the state is not `audioUnbound`. -/
def bindError (s : Shared ι κ) (requested : Option MediaFormat) : Error :=
  match s.mediaState, requested, s.media with
  | .audioBound, some requested, some media =>
    if media.Format ≠ requested then .audioFormatConflict media.Format requested
    else .audioAlreadyBound
  | _, _, _ => .audioAlreadyBound

/-- The checks of `finishAudioBind` before `setFormat`. -/
def finishChecks (channel : MediaChannel κ) (requested : Option MediaFormat) : Except Error Unit :=
  if channel.ID ≠ "audio" then .error (.wrongChannel channel.ID)
  else
    match channel.Format.FrameBytes with
    | .error err => .error (.invalidFormat err)
    | .ok _ =>
      match requested with
      | some requested =>
        if channel.Format ≠ requested then .error (.audioFormatConflict channel.Format requested)
        else .ok ()
      | none => .ok ()

/-- One step of a call. -/
def act (i : ι) (s : Shared ι κ) (c : Call κ) : CallAction κ → Option (Shared ι κ × Call κ)
  | .OpenAudio format =>
    match c with
    | .idle =>
      match format.FrameBytes with
      | .error err => some (s, .returned none (some (.invalidRequest err)))
      | .ok _ => some (s, .entered (some format))
    | _ => none
  | .AcceptAudio =>
    match c with
    | .idle => some (s, .entered none)
    | _ => none
  | .check =>
    match c with
    | .entered requested =>
      some (s, if s.closing then .returned none (some .sessionClosed) else .checked requested)
    | _ => none
  | .transport =>
    match c with
    | .checked requested =>
      some (s, if s.connected then .connected requested
        else .returned none (some .audioUnavailable))
    | _ => none
  | .begin =>
    match c with
    | .connected requested =>
      if s.closing then some (s, .returned none (some .sessionClosed))
      else if s.mediaState = .audioUnbound then
        some ({ s with mediaState := .audioBinding, binder := some i }, .negotiating requested)
      else some (s, .returned none (some (bindError s requested)))
    | _ => none
  | .negotiated result =>
    match c with
    | .negotiating requested =>
      match result with
      | .error err => some (s, .failed none (.transport err))
      | .ok none => some (s, .failed none .nilChannel)
      | .ok (some channel) =>
        match finishChecks channel requested with
        | .error err => some (s, .failed (some channel) err)
        | .ok () => some (s, .accepted channel)
    | _ => none
  | .setFormat =>
    match c with
    | .accepted channel =>
      match setFormat s.format channel.Format with
      | .error err => some (s, .failed (some channel) (.audioFormatRejected err))
      | .ok format => some ({ s with format := format }, .formatted channel)
    | _ => none
  | .finish =>
    match c with
    | .formatted channel =>
      if s.closing then
        some ({ s with mediaState := .audioUnbound, binder := none }, .closing channel .sessionClosed)
      else
        some ({ s with
          media := some channel
          mediaState := .audioBound
          binder := none
          bound := s.bound ++ [(i, channel)] }, .bound channel)
    | _ => none
  | .startPumps =>
    match c with
    | .bound channel =>
      some ({ s with pumps := s.pumps ++ [channel] }, .returned (some channel) none)
    | _ => none
  | .abort =>
    match c with
    | .failed channel err =>
      some ({ s with
          mediaState := if s.mediaState = .audioBinding then .audioUnbound else s.mediaState
          binder := none },
        match channel with
        | some channel => .closing channel err
        | none => .returned none (some err))
    | _ => none
  | .close =>
    match c with
    | .closing channel err =>
      some ({ s with closed := s.closed ++ [channel.handle] }, .returned (some channel) (some err))
    | _ => none

/-- One step of everybody else. -/
def env (s : Shared ι κ) : EnvAction → Option (Shared ι κ)
  | .connect => some { s with connected := true }
  | .requestStop => some { s with closing := true }
  | .beginShutdown =>
    match s.shutdown with
    | .running => some { s with closing := true, shutdown := .begun }
    | _ => none
  | .readMedia =>
    match s.shutdown with
    | .begun =>
      some { s with
        shutdown := match s.media with
          | some channel => .closing channel
          | none => .done }
    | _ => none
  | .closeMedia =>
    match s.shutdown with
    | .closing channel => some { s with closed := s.closed ++ [channel.handle], shutdown := .done }
    | _ => none

/-- A session that has not run. -/
def Start (s : Shared ι κ) : Prop :=
  s.mediaState = .audioUnbound ∧ s.media = none ∧ s.shutdown = .running ∧ s.binder = none ∧
    s.bound = [] ∧ s.pumps = []

/-- The calls of a session. -/
def threads (ι κ : Type) : Threads ι (Shared ι κ) (Call κ) (CallAction κ) EnvAction where
  Start := Start
  new _ := .idle
  act := act
  env := env

/-- A session with its calls. -/
abbrev State (ι κ : Type) := Threads.State ι (Shared ι κ) (Call κ)

/-! ## What is asked of a run -/

/-- The call has moved the state to `audioBinding` and not back. -/
def Call.binds : Call κ → Bool
  | .negotiating _ | .accepted _ | .formatted _ | .failed _ _ => true
  | _ => false

/-- At most one channel is ever bound, the pumps are started once and only for it, the state is
`audioBinding` only while a call binds, and a channel that a call obtained is closed when the call returns,
or is the bound channel, which is closed when the shutdown has closed the media. -/
structure State.Owned (s : State ι κ) : Prop where
  bound_once : s.shared.bound.length ≤ 1
  bound_is_media : ∀ channel, channel ∈ s.shared.bound.map Prod.snd ↔ s.shared.media = some channel
  pumps_once : s.shared.pumps.length ≤ 1
  pumps_bound : ∀ channel ∈ s.shared.pumps, s.shared.media = some channel
  binding : s.shared.mediaState = .audioBinding → ∃ i, (s.locals i).binds = true
  returned : ∀ i channel err, s.locals i = .returned (some channel) err →
    channel.handle ∈ s.shared.closed ∨ err = none ∧ s.shared.media = some channel
  shut_down : s.shared.shutdown = .done →
    (∀ channel, s.shared.media = some channel → channel.handle ∈ s.shared.closed) ∧
    ∀ i channel err, s.locals i = .returned (some channel) err → channel.handle ∈ s.shared.closed

/-- A step with which a call stops binding leaves the state unbound, or has bound its channel. -/
def Releases (s t : State ι κ) (i : ι) : Prop :=
  (s.locals i).binds = true → (t.locals i).binds = false →
    t.shared.mediaState = .audioUnbound ∨
      ∃ channel, t.locals i = .bound channel ∧ t.shared.media = some channel

end Rtvbp.Go.Media
