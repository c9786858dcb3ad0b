import Rtvbp.Go.Media

/-!
# The audio channel of the WebSocket transport

`staticMediaChannel` of `sdk/go/transport/ws/semantic_transport.go` with `OpenMedia` and `AcceptMedia`, and the calls
of `OpenAudio` and `AcceptAudio` that a session makes over it one after the other. Every call is given the same
channel.
-/

namespace Rtvbp.Go.StaticMedia

open Rtvbp.Lib
open Rtvbp.Go.Media (MediaFormat MediaChannel Error Shared bindError finishChecks setFormat)

/-! ## The transport -/

/-- `staticMediaChannel`. -/
structure StaticMediaChannel where
  format : MediaFormat
  configured : Bool
  closed : Bool

/-- The zero value of `MediaFormat`. -/
def noFormat : MediaFormat := { Encoding := "", SampleRate := 0, BitDepth := 0, Channels := 0, PTime := 0 }

/-- The text of `io.EOF`. -/
def eof : String := "EOF"

namespace StaticMediaChannel

/-- `Close`. -/
def Close (m : StaticMediaChannel) : StaticMediaChannel := { m with closed := true }

/-- `configure`. -/
def configure (m : StaticMediaChannel) (format : MediaFormat) : Except String StaticMediaChannel :=
  if m.closed then .error eof
  else if m.configured = true ∧ m.format ≠ format then
    .error "websocket transport: audio media format already configured"
  else .ok { m with configured := true, format := format }

/-- The channel as a `MediaChannel`. -/
def channel (m : StaticMediaChannel) : MediaChannel Unit := { handle := (), ID := "audio", Format := m.format }

end StaticMediaChannel

/-- `Transport`; `closedError` is none while it is open. -/
structure Transport where
  closedError : Option String
  media : StaticMediaChannel

/-- `validateOptionalAudioFormat`, and the channel of `NewTransport`. -/
def NewTransport (audioFormat : MediaFormat) : Except String Transport :=
  let media : StaticMediaChannel := { format := noFormat, configured := false, closed := false }
  if audioFormat = noFormat then .ok { closedError := none, media := media }
  else
    match audioFormat.FrameBytes with
    | .error err => .error ("invalid audio format: " ++ err)
    | .ok _ =>
      match media.configure audioFormat with
      | .error _ => .ok { closedError := none, media := media }
      | .ok media => .ok { closedError := none, media := media }

/-- `OpenMedia` for the id `"audio"`; `ctx` is the error of the context. -/
def Transport.OpenMedia (t : Transport) (ctx : Option String) (format : MediaFormat) : Except String Transport :=
  match ctx with
  | some err => .error err
  | none =>
    match t.closedError with
    | some err => .error err
    | none =>
      match t.media.configure format with
      | .error err => .error err
      | .ok media => .ok { t with media := media }

/-- `AcceptMedia`. -/
def Transport.AcceptMedia (t : Transport) (ctx : Option String) : Except String Transport :=
  match ctx with
  | some err => .error err
  | none =>
    match t.closedError with
    | some err => .error err
    | none => if t.media.closed then .error eof else .ok t

/-! ## The session -/

/-- A session between two calls, and its transport; the calls are numbered. -/
structure State where
  session : Shared Nat Unit
  transport : Transport

/-- `beginAudioBind`. -/
def beginAudioBind (s : Shared Nat Unit) (i : Nat) (requested : Option MediaFormat) :
    Except Error (Shared Nat Unit) :=
  if s.closing then .error .sessionClosed
  else if s.connected = false then .error .audioUnavailable
  else if s.mediaState = .audioUnbound then .ok { s with mediaState := .audioBinding, binder := some i }
  else .error (bindError s requested)

/-- `abortAudioBind`. -/
def abortAudioBind (s : Shared Nat Unit) : Shared Nat Unit :=
  { s with
    mediaState := if s.mediaState = .audioBinding then .audioUnbound else s.mediaState
    binder := none }

/-- `closeWithError` of `finishAudioBind`. -/
def closeWithError (s : State) : State where
  session := { abortAudioBind s.session with closed := s.session.closed ++ [()] }
  transport := { s.transport with media := s.transport.media.Close }

/-- `finishAudioBind` with the channel of the transport. -/
def finishAudioBind (s : State) (i : Nat) (requested : Option MediaFormat) : State × Option Error :=
  let channel := s.transport.media.channel
  match finishChecks channel requested with
  | .error err => (closeWithError s, some err)
  | .ok () =>
    match setFormat s.session.format channel.Format with
    | .error err => (closeWithError s, some (.audioFormatRejected err))
    | .ok format =>
      let session := { s.session with format := format }
      if session.closing then
        ({ session := { session with mediaState := .audioUnbound, binder := none, closed := session.closed ++ [()] }
           transport := { s.transport with media := s.transport.media.Close } }, some .sessionClosed)
      else
        ({ s with
            session := { session with
              media := some channel
              mediaState := .audioBound
              binder := none
              bound := session.bound ++ [(i, channel)]
              pumps := session.pumps ++ [channel] } }, none)

/-- `OpenAudio`. -/
def OpenAudio (s : State) (i : Nat) (ctx : Option String) (format : MediaFormat) : State × Option Error :=
  match format.FrameBytes with
  | .error err => (s, some (.invalidRequest err))
  | .ok _ =>
    match beginAudioBind s.session i (some format) with
    | .error err => (s, some err)
    | .ok session =>
      match s.transport.OpenMedia ctx format with
      | .error err => ({ s with session := abortAudioBind session }, some (.transport err))
      | .ok transport => finishAudioBind { session := session, transport := transport } i (some format)

/-- `AcceptAudio`. -/
def AcceptAudio (s : State) (i : Nat) (ctx : Option String) : State × Option Error :=
  match beginAudioBind s.session i none with
  | .error err => (s, some err)
  | .ok session =>
    match s.transport.AcceptMedia ctx with
    | .error err => ({ s with session := abortAudioBind session }, some (.transport err))
    | .ok transport => finishAudioBind { session := session, transport := transport } i none

/-- A call, with the error of its context. -/
inductive Call where
  | OpenAudio (ctx : Option String) (format : MediaFormat)
  | AcceptAudio (ctx : Option String)
  deriving DecidableEq

/-- A call: the state after it, and its error. -/
def Call.run (s : State) (i : Nat) : Call → State × Option Error
  | .OpenAudio ctx format => StaticMedia.OpenAudio s i ctx format
  | .AcceptAudio ctx => StaticMedia.AcceptAudio s i ctx

/-- A session that has not bound anything yet, over a transport that `NewTransport` has made. -/
def Start (s : State) : Prop :=
  s.session.closing = false ∧ s.session.mediaState = .audioUnbound ∧ s.session.format = none ∧
    ∃ audioFormat, NewTransport audioFormat = .ok s.transport

/-- The sequences of calls on an open session, whose transport is open. -/
def machine : Machine State (Nat × Call) where
  Start := Start
  step s a := some (a.2.run s a.1).1

/-! ## What is asked of a call -/

/-- A call of `OpenAudio` succeeds. -/
def State.Opens (s : State) (ctx : Option String) (format : MediaFormat) : Prop :=
  ∃ i, (OpenAudio s i ctx format).2 = none

/-- If the call fails, every `OpenAudio` that would have succeeded before it still succeeds. -/
def Retryable (s : State) (a : Nat × Call) : Prop :=
  (a.2.run s a.1).2 ≠ none → ∀ ctx format, s.Opens ctx format → (a.2.run s a.1).1.Opens ctx format

/-- An `AcceptAudio` that is given the channel finds it configured. -/
def AcceptsConfigured (s : State) (a : Nat × Call) : Prop :=
  a.2 = .AcceptAudio none → s.session.connected = true → s.session.mediaState = .audioUnbound →
    s.transport.media.closed = false → s.transport.media.configured = true

instance (s : State) (a : Nat × Call) : Decidable (AcceptsConfigured s a) :=
  inferInstanceAs (Decidable (_ → _ → _ → _ → _))

end Rtvbp.Go.StaticMedia
