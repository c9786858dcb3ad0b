import Rtvbp.Lib.Threads
import Rtvbp.Rust.Error

/-!
# Binding the audio channel

`open_audio` and `accept_audio` of `sdk/rust/src/session/mod.rs` for any number of concurrent calls, with
the shutdown as far as it concerns the media. A call is a thread; the transport is the environment and
returns an error or any channel, when it likes, and the caller may drop the future of a call where it waits
for the transport. A section under a mutex is one step, and so is every access to the closing flag. The
calls and the shutdown have no lock in common: a call looks at the flag once, at its start.
-/

namespace Rtvbp.Rust.Audio

open Rtvbp.Lib

/-! ## Formats -/

/-- `MediaFormat`; the packetization time is in nanoseconds. -/
structure MediaFormat where
  encoding : String
  sampleRate : UInt32
  bitDepth : UInt16
  channels : UInt16
  ptime : Nat
  deriving DecidableEq

/-- `checked_mul` of `u128`. -/
def checkedMul (a b : Nat) : Option Nat := if a * b < 2 ^ 128 then some (a * b) else none

/-- `frame_bytes`, where `usize` has 64 bits. -/
def MediaFormat.frameBytes (f : MediaFormat) : Except Error Nat :=
  if f.encoding ≠ "L16" then
    .error (.invalidMediaFormat s!"unsupported byte-audio encoding {f.encoding.quote}")
  else if f.sampleRate = 0 then .error (.invalidMediaFormat "sample rate must be positive")
  else if f.bitDepth ≠ 16 then
    .error (.invalidMediaFormat s!"L16 bit depth must be 16, got {f.bitDepth.toNat}")
  else if f.channels = 0 then .error (.invalidMediaFormat "channel count must be positive")
  else if f.ptime = 0 then .error (.invalidMediaFormat "packetization time must be positive")
  else
    match checkedMul f.sampleRate.toNat f.ptime with
    | none => .error (.invalidMediaFormat "frame sample count overflows")
    | some sampleNanos =>
      if sampleNanos % 1000000000 ≠ 0 then
        .error (.invalidMediaFormat "packetization time does not contain a whole number of samples")
      else
        let samples := sampleNanos / 1000000000
        let bytes := (checkedMul samples f.channels.toNat).bind (checkedMul · (f.bitDepth.toNat / 8))
        match bytes.filter fun value => value < 2 ^ 64 && value ≠ 0 with
        | none => .error (.invalidMediaFormat "frame byte count is out of range")
        | some bytes => .ok bytes

/-- The digits after the decimal point, without the zeros at the end. -/
def decimals (value width : Nat) : String :=
  let digits := (toString value).toList
  let padded := List.replicate (width - digits.length) '0' ++ digits
  String.ofList (padded.reverse.dropWhile (· = '0')).reverse

/-- `Debug` of a duration in nanoseconds. -/
def debugDuration (nanos : Nat) : String :=
  let unit (scale width : Nat) (suffix : String) : String :=
    let fraction := nanos % scale
    toString (nanos / scale) ++ (if fraction = 0 then "" else "." ++ decimals fraction width) ++ suffix
  if 1000000000 ≤ nanos then unit 1000000000 9 "s"
  else if 1000000 ≤ nanos then unit 1000000 6 "ms"
  else if 1000 ≤ nanos then unit 1000 3 "µs"
  else unit 1 0 "ns"

/-- `Debug` of a format. -/
def MediaFormat.debug (f : MediaFormat) : String :=
  "MediaFormat \x7b encoding: " ++ f.encoding.quote ++ ", sample_rate: " ++ toString f.sampleRate.toNat ++
    ", bit_depth: " ++ toString f.bitDepth.toNat ++ ", channels: " ++ toString f.channels.toNat ++
    ", ptime: " ++ debugDuration f.ptime ++ " \x7d"

/-! ## The calls and the shutdown -/

/-- A `MediaChannel` as the binding sees it; `κ` tells the channels apart. -/
structure MediaChannel (κ : Type) where
  handle : κ
  id : String
  format : MediaFormat

/-- `MediaBinding`. -/
inductive MediaBinding (κ : Type) where
  | unbound
  | binding
  | bound (channel : MediaChannel κ)

/-- How far the shutdown has come. -/
inductive Shutdown (κ : Type) where
  | running
  /-- `closing` is set. -/
  | begun
  /-- The binding has been read; the channel that was bound is being closed. -/
  | closingMedia (channel : MediaChannel κ)
  /-- The transport is being closed. -/
  | closingTransport
  /-- The tasks of the media have been aborted. -/
  | drained

/-- What the calls and the shutdown share. -/
structure Shared (ι κ : Type) where
  /-- The transport is stored. -/
  connected : Bool
  closing : Bool
  media : MediaBinding κ
  /-- The format of the audio stream, once it is set. -/
  format : Option MediaFormat
  /-- The channels of the pumps in `media_tasks`. -/
  mediaTasks : List κ
  shutdown : Shutdown κ
  /-- History: the call that has made the binding `binding` and goes on. -/
  binder : Option ι
  /-- History: the channels that were closed, that were bound and by which call, whose pumps were spawned,
  and whose pumps were spawned after `media_tasks` had been drained. -/
  closed : List κ
  bound : List (ι × MediaChannel κ)
  pumps : List κ
  late : List κ

/-- A call of `open_audio`, with the format that is requested, or of `accept_audio`, with none. -/
inductive Call (κ : Type) where
  | idle
  /-- Before the look at `closing` in `begin_audio_bind`. -/
  | entered (requested : Option MediaFormat)
  /-- Before the look at the transport. -/
  | checked (requested : Option MediaFormat)
  /-- Before the section of `begin_audio_bind`. -/
  | connected (requested : Option MediaFormat)
  /-- Waiting for `open_media` or `accept_media`. -/
  | negotiating (requested : Option MediaFormat)
  /-- In `finish_audio_bind`, before `set_format`. -/
  | accepted (channel : MediaChannel κ)
  /-- Before the binding becomes `bound`. -/
  | formatted (channel : MediaChannel κ)
  /-- Before the pumps are spawned. -/
  | bound (channel : MediaChannel κ)
  /-- Before the pumps are added to `media_tasks`. -/
  | spawned (channel : MediaChannel κ)
  /-- Before `abort_audio_bind`; `channel` is what the transport gave. -/
  | failed (channel : Option (MediaChannel κ)) (error : Error)
  /-- The call has returned. -/
  | returned (channel : Option (MediaChannel κ)) (result : Except Error Unit)
  /-- The future of the call has been dropped. -/
  | dropped

/-- The steps of a call. -/
inductive CallAction (κ : Type) where
  | openAudio (format : MediaFormat)
  | acceptAudio
  /-- The look at `closing`, the look at the transport, and the section of `begin_audio_bind`. -/
  | check
  | transport
  | begin
  /-- `open_media` or `accept_media` returns. -/
  | negotiated (result : Except Error (MediaChannel κ))
  | setFormat
  /-- The binding becomes `bound`. -/
  | bind
  | spawn
  | extend
  /-- `abort_audio_bind`. -/
  | abort
  /-- The future is dropped. -/
  | drop

/-- The steps of everybody else. -/
inductive EnvAction where
  /-- The transport is stored. -/
  | connect
  /-- `finish_without_transport`. -/
  | finishWithoutTransport
  /-- The steps of `shutdown`: `closing` is set, the binding is read, the channel and the transport are
  closed, and `media_tasks` is drained. -/
  | beginShutdown
  | readMedia
  | closeMedia
  | drainTasks

variable {ι κ : Type}

/-- `AudioStream::set_format`: the error, or the format that is set. -/
def setFormat (current : Option MediaFormat) (format : MediaFormat) : Except Error (Option MediaFormat) :=
  match format.frameBytes with
  | .error error => .error error
  | .ok _ =>
    match current with
    | some existing =>
      if existing = format then .ok (some existing)
      else .error (.invalidMediaFormat ("format is already negotiated as " ++ existing.debug))
    | none => .ok (some format)

/-- The section of `begin_audio_bind`: the error, unless the binding is `unbound`. -/
def bindError (media : MediaBinding κ) (requested : Option MediaFormat) : Option Error :=
  match media, requested with
  | .unbound, _ => none
  | .binding, _ => some .audioAlreadyBound
  | .bound channel, some format =>
    some (if channel.format ≠ format then .audioFormatConflict else .audioAlreadyBound)
  | .bound _, none => some .audioAlreadyBound

/-- `finish_audio_bind` up to `set_format`. A wrong id and a format that was not requested go through
`abort_audio_bind`; the error of `frame_bytes` is returned at once. -/
def finishChecks (channel : MediaChannel κ) (requested : Option MediaFormat) : Call κ :=
  if channel.id ≠ "audio" then
    .failed (some channel)
      (.configuration s!"accepted media channel {channel.id.quote}, want \"audio\"")
  else
    match channel.format.frameBytes with
    | .error error => .returned (some channel) (.error error)
    | .ok _ =>
      if requested.any (channel.format ≠ ·) then .failed (some channel) .audioFormatConflict
      else .accepted channel

/-- One step of a call. -/
def act (i : ι) (s : Shared ι κ) (c : Call κ) : CallAction κ → Option (Shared ι κ × Call κ)
  | .openAudio format =>
    match c with
    | .idle =>
      match format.frameBytes with
      | .error error => some (s, .returned none (.error error))
      | .ok _ => some (s, .entered (some format))
    | _ => none
  | .acceptAudio =>
    match c with
    | .idle => some (s, .entered none)
    | _ => none
  | .check =>
    match c with
    | .entered requested =>
      some (s, if s.closing then .returned none (.error .sessionClosed) else .checked requested)
    | _ => none
  | .transport =>
    match c with
    | .checked requested =>
      some (s, if s.connected then .connected requested else .returned none (.error .audioUnavailable))
    | _ => none
  | .begin =>
    match c with
    | .connected requested =>
      match bindError s.media requested with
      | some error => some (s, .returned none (.error error))
      | none => some ({ s with media := .binding, binder := some i }, .negotiating requested)
    | _ => none
  | .negotiated result =>
    match c with
    | .negotiating requested =>
      match result with
      | .error error => some (s, .failed none error)
      | .ok channel =>
        match finishChecks channel requested with
        | .returned channel result => some ({ s with binder := none }, .returned channel result)
        | c => some (s, c)
    | _ => none
  | .setFormat =>
    match c with
    | .accepted channel =>
      match setFormat s.format channel.format with
      | .error error => some ({ s with binder := none }, .returned (some channel) (.error error))
      | .ok format => some ({ s with format }, .formatted channel)
    | _ => none
  | .bind =>
    match c with
    | .formatted channel =>
      some ({ s with
        media := .bound channel
        binder := none
        bound := s.bound ++ [(i, channel)] }, .bound channel)
    | _ => none
  | .spawn =>
    match c with
    | .bound channel =>
      some ({ s with
        pumps := s.pumps ++ [channel.handle]
        late := match s.shutdown with
          | .drained => s.late ++ [channel.handle]
          | _ => s.late }, .spawned channel)
    | _ => none
  | .extend =>
    match c with
    | .spawned channel =>
      some ({ s with mediaTasks := s.mediaTasks ++ [channel.handle] }, .returned (some channel) (.ok ()))
    | _ => none
  | .abort =>
    match c with
    | .failed channel error =>
      some ({ s with
        media := match s.media with
          | .binding => .unbound
          | media => media
        binder := none }, .returned channel (.error error))
    | _ => none
  | .drop =>
    match c with
    | .negotiating _ => some ({ s with binder := none }, .dropped)
    | _ => none

/-- One step of everybody else. -/
def env (s : Shared ι κ) : EnvAction → Option (Shared ι κ)
  | .connect => some { s with connected := true }
  | .finishWithoutTransport => if s.connected then none else some { s with closing := true }
  | .beginShutdown =>
    match s.shutdown with
    | .running => if s.connected then some { s with closing := true, shutdown := .begun } else none
    | _ => none
  | .readMedia =>
    match s.shutdown with
    | .begun =>
      some { s with
        shutdown := match s.media with
          | .bound channel => .closingMedia channel
          | .unbound | .binding => .closingTransport }
    | _ => none
  | .closeMedia =>
    match s.shutdown with
    | .closingMedia channel =>
      some { s with closed := s.closed ++ [channel.handle], shutdown := .closingTransport }
    | _ => none
  | .drainTasks =>
    match s.shutdown with
    | .closingTransport => some { s with mediaTasks := [], shutdown := .drained }
    | _ => none

/-- A session that has not run. -/
def Start (s : Shared ι κ) : Prop :=
  s.media = .unbound ∧ s.shutdown = .running ∧ s.binder = none ∧ s.bound = [] ∧ s.late = []

/-- The calls of a session. -/
def threads (ι κ : Type) : Threads ι (Shared ι κ) (Call κ) (CallAction κ) EnvAction where
  Start := Start
  new _ := .idle
  act := act
  env := env

/-- A session with its calls. -/
abbrev State (ι κ : Type) := Threads.State ι (Shared ι κ) (Call κ)

/-! ## What is asked of a run -/

/-- The call has made the binding `binding` and goes on. -/
def Call.binds : Call κ → Bool
  | .negotiating _ | .accepted _ | .formatted _ | .failed _ _ => true
  | _ => false

/-- The shutdown has read the binding. -/
def Shutdown.hasRead : Shutdown κ → Bool
  | .running | .begun => false
  | _ => true

/-- The channel is closed, or it is the one that the shutdown is closing. -/
def Shared.disposes (s : Shared ι κ) (channel : MediaChannel κ) : Prop :=
  channel.handle ∈ s.closed ∨ s.shutdown = .closingMedia channel

/-- At most one channel is ever bound, the binding is `binding` only while a call binds, a channel that a
call obtained is closed when the call returns, or is the bound channel, the shutdown closes the bound
channel, and no pump is spawned after `media_tasks` has been drained. -/
structure State.Owned (s : State ι κ) : Prop where
  bound_once : s.shared.bound.length ≤ 1
  binding : s.shared.media = .binding → ∃ i, (s.locals i).binds = true
  returned : ∀ i channel result, s.locals i = .returned (some channel) result →
    channel.handle ∈ s.shared.closed ∨ s.shared.media = .bound channel
  shut_down : s.shared.shutdown.hasRead = true → ∀ channel, s.shared.media = .bound channel →
    s.shared.disposes channel
  late : s.shared.late = []

/-- The media tasks have been drained. -/
def Shutdown.hasDrained : Shutdown κ → Bool
  | .drained => true
  | _ => false

/-- The call has returned. -/
def Call.hasReturned : Call κ → Bool
  | .returned _ _ => true
  | _ => false

/-- The step of a call does none of these: it is dropped while it binds, it returns with a channel that is
neither bound nor closed, it binds a channel that the shutdown has missed, or it spawns pumps that the
shutdown has missed. -/
def Orderly (s : Shared ι κ) (c : Call κ) (a : CallAction κ) : Prop :=
  match a, c with
  | .drop, .negotiating _ => False
  | .negotiated (.ok channel), .negotiating requested =>
    (finishChecks channel requested).hasReturned = false
  | .setFormat, .accepted channel => (setFormat s.format channel.format).isOk = true
  | .abort, .failed (some channel) _ => channel.handle ∈ s.closed
  | .bind, .formatted channel => s.shutdown.hasRead = true → channel.handle ∈ s.closed
  | .spawn, .bound _ => s.shutdown.hasDrained = false
  | _, _ => True

instance [DecidableEq κ] (s : Shared ι κ) (c : Call κ) : DecidablePred (Orderly s c) := fun a => by
  unfold Orderly
  split <;> infer_instance

end Rtvbp.Rust.Audio
