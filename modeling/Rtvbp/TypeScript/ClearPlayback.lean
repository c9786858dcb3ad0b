import Rtvbp.TypeScript.AudioRead
import Rtvbp.TypeScript.BrowserPlayback

/-!
# Clearing the playback of a browser

`clearPlayback` and `#playAudio` of `BrowserAudioDevice` in `sdk/typescript/src/browser_audio.ts` with the
`AudioStream` that the loop reads from: the stream with its channel and the device with its worklet, joined in the
steps that the loop and `clearPlayback` make in both. The loop alone reads from the stream.

The context runs at the rate of the frames, so that the resampler yields one sample for two bytes.
-/

namespace Rtvbp.TypeScript.ClearPlayback

open Rtvbp.Lib
open Rtvbp.TypeScript.AudioRead (Frame)

/-- A device whose context has the sample rate of the format. -/
structure Device extends BrowserPlayback.Device where
  sampleRate_eq : sampleRate = 8000

/-- The number of bytes that `#playAudio` asks for, and `mediaFrameBytes` of the format. -/
def frameBytes : Nat := 320

/-- The stream and the device. -/
structure State where
  stream : AudioRead.State
  playback : BrowserPlayback.State
  /-- The results of `read` that the loop has gone on with. -/
  received : Nat
  /-- The frame that the loop has in its hands. -/
  frame : Option Frame
  /-- History: the frames that were posted to the worklet. -/
  posted : List Frame
  /-- History: what `clearPlayback` has found in `#playbackBufferedDeviceSamples`, and what it has returned. -/
  found : List Nat
  values : List Nat
  /-- History: the samples that the worklet has discarded with each `clear` message. -/
  discarded : List Nat

/-- What can happen next. -/
inductive Action where
  /-- A step of the stream, the peer or the channel. -/
  | stream (a : AudioRead.Action)
  /-- The steps of `#playAudio`. -/
  | read
  | chunk
  | count
  | post
  | clearPlayback
  /-- The steps of the `consumed` listener and of the worklet. -/
  | deliver
  | receive
  | render (length : Nat)

/-- Before the first frame. -/
def initial : State where
  stream := AudioRead.new
  playback := BrowserPlayback.initial
  received := 0
  frame := none
  posted := []
  found := []
  values := []
  discarded := []

/-- The step of the stream is one of the loop, or of `clearPlayback`. -/
def ofDevice : AudioRead.Action → Bool
  | .read _ _ | .clear => true
  | _ => false

/-- What `AudioStream.clear` returns. -/
def audioBytes (stream : AudioRead.State) : Nat :=
  stream.bufferedInboundBytes frameBytes + stream.incoming.items.length * frameBytes

/-- `clearPlayback`. -/
def State.clearPlayback (s : State) : State :=
  { s with
    stream := AudioRead.clear frameBytes s.stream
    playback := s.playback.clearPlayback
    found := s.found ++ [s.playback.buffered]
    values := s.values ++ [audioBytes s.stream + s.playback.buffered * 2] }

/-- What the loop keeps of a frame when it is in its next place. -/
def kept (frame : Option Frame) (playback : BrowserPlayback.State) : Option Frame :=
  if playback.loop = .idle then none else frame

/-- One step, for an inbound queue of a capacity. -/
def step (d : Device) (capacity : Nat) (s : State) : Action → Option State
  | .stream a =>
    if ofDevice a then none
    else (AudioRead.step frameBytes capacity s.stream a).map fun stream => { s with stream := stream }
  | .read =>
    (BrowserPlayback.step d.toDevice s.playback .read).bind fun playback =>
      (AudioRead.step frameBytes capacity s.stream (.read frameBytes false)).map fun stream =>
        { s with stream := stream, playback := playback }
  | .chunk =>
    s.stream.returned[s.received]?.bind fun bytes =>
      (BrowserPlayback.step d.toDevice s.playback (.chunk (bytes.length / 2))).map fun playback =>
        { s with playback := playback, received := s.received + 1, frame := kept (some bytes) playback }
  | .count =>
    (BrowserPlayback.step d.toDevice s.playback .count).map fun playback =>
      { s with playback := playback, frame := kept s.frame playback }
  | .post =>
    (BrowserPlayback.step d.toDevice s.playback .post).map fun playback =>
      { s with playback := playback, frame := none, posted := s.posted ++ s.frame.toList }
  | .clearPlayback => some s.clearPlayback
  | .deliver =>
    (BrowserPlayback.step d.toDevice s.playback .deliver).map fun playback => { s with playback := playback }
  | .receive =>
    (BrowserPlayback.step d.toDevice s.playback .receive).map fun playback =>
      { s with
        playback := playback
        discarded := match s.playback.toWorklet with
          | .clear :: _ => s.discarded ++ [s.playback.worklet.queued]
          | _ => s.discarded }
  | .render length =>
    (BrowserPlayback.step d.toDevice s.playback (.render length)).map fun playback => { s with playback := playback }

/-- The runs of a device with a stream of a capacity. -/
def machine (d : Device) (capacityBytes : Nat) : Machine State Action where
  Start s := s = initial
  step := step d (AudioRead.inboundCapacity capacityBytes frameBytes)

/-! ## What is asked of a run -/

/-- The frames that were taken from the stream and are on their way to the worklet. -/
def State.inHand (s : State) : List Frame := s.frame.toList ++ s.stream.returned.drop s.received

/-- What becomes of the frames. -/
structure State.Accounts (s : State) : Prop where
  /-- What was taken from the stream is posted, or on its way. -/
  taken : s.stream.returned = s.posted ++ s.inHand
  /-- Each byte is posted, removed by one call of `clearPlayback`, on its way, or in the stream. -/
  fates : (s.posted.flatten ++ (s.stream.clears.map AudioRead.Cleared.bytes).flatten ++ s.inHand.flatten ++
    s.stream.buffered).Perm s.stream.received
  /-- A call of `clearPlayback` returns the number of the bytes that it has removed from the stream, and two for each
  sample that it finds buffered. -/
  counted : s.values = List.zipWith (fun c found => c.bytes.length + found * 2) s.stream.clears s.found

/-- The worklet discards no more samples than the call of `clearPlayback` has counted. -/
def State.Covered (s : State) : Prop := List.Forall₂ (· ≤ ·) s.discarded (s.found.take s.discarded.length)

/-- The playback was not cleared since the loop has asked for the frame: the test of `#playAudio`. -/
def State.isCurrent (s : State) : Bool :=
  match s.playback.loop with
  | .reading generation | .holding generation _ => generation = s.playback.generation
  | .idle | .counted _ => true

/-- The loop does not go on with a frame after the playback was cleared. -/
def GoesOn (s : State) : Action → Prop
  | .chunk | .count => s.isCurrent = true
  | _ => True

/-- The step spoils the count of the samples in the worklet. -/
def Miscounts (s : State) : Action → Prop
  | .deliver => BrowserPlayback.Miscounts s.playback .deliver
  | .clearPlayback => BrowserPlayback.Miscounts s.playback .clearPlayback
  | _ => False

instance (s : State) : (a : Action) → Decidable (GoesOn s a)
  | .chunk | .count => inferInstanceAs (Decidable (_ = true))
  | .stream _ | .read | .post | .clearPlayback | .deliver | .receive | .render _ =>
    inferInstanceAs (Decidable True)

instance (s : State) : (a : Action) → Decidable (Miscounts s a)
  | .deliver => inferInstanceAs (Decidable (BrowserPlayback.Miscounts s.playback .deliver))
  | .clearPlayback => inferInstanceAs (Decidable (BrowserPlayback.Miscounts s.playback .clearPlayback))
  | .stream _ | .read | .chunk | .count | .post | .receive | .render _ => inferInstanceAs (Decidable False)

end Rtvbp.TypeScript.ClearPlayback
