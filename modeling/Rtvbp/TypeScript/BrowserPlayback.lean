import Rtvbp.Lib.Machine
import Mathlib.Algebra.BigOperators.Group.List.Basic

/-!
# Playback credit between the main thread and the audio worklet

`RtvbpPlayback`, `clearPlayback`, the `consumed` listener, `#playAudio` and `#waitForPlaybackCapacity` of
`sdk/typescript/src/browser_audio.ts` as a machine with two parties. The main thread counts the device
samples that it has sent and not heard of again, and waits while another chunk would exceed the
capacity. The parties share nothing but two channels that keep the order of their messages.

A chunk is represented by its length. The generation that a `consumed` message carries is history only:
the number of `clear` messages that the worklet had processed when it sent the message.
-/

namespace Rtvbp.TypeScript.BrowserPlayback

open Rtvbp.Lib

/-- The sizes of a device. The constructor admits at most ten seconds of `playbackBufferMs`, and no
platform has an `AudioContext` of more than 768 kHz. -/
structure Device where
  sampleRate : Nat
  capacityMs : Nat
  capacityMs_bounds : 20 ≤ capacityMs ∧ capacityMs ≤ 10000
  sampleRate_le : sampleRate ≤ 768000

namespace Device

variable (d : Device)

/-- `Math.ceil(context.sampleRate * capacityMs / 1000)`. -/
def capacity : Nat := (d.sampleRate * d.capacityMs + 999) / 1000

/-- `n | 0`, for a number that is not negative. -/
def toInt32 (n : Nat) : Int := if n % 2 ^ 32 < 2 ^ 31 then n % 2 ^ 32 else n % 2 ^ 32 - 2 ^ 32

/-- `maxSamples` of the worklet. -/
def maxSamples : Nat := (max 128 (toInt32 d.capacity)).toNat

end Device

/-! ## The worklet -/

/-- A message to the worklet. -/
inductive Message where
  | samples (count : Nat)
  | clear
  deriving DecidableEq

/-- The fields of `RtvbpPlayback`; the queue holds the lengths of its chunks. -/
structure Worklet where
  queue : List Nat
  offset : Nat
  queued : Nat

namespace Worklet

/-- A new processor. -/
def new : Worklet := ⟨[], 0, 0⟩

/-- The loop that makes room for `count` samples: the processor after it, and the amounts that it reports
as consumed. -/
def makeRoom (maxSamples count : Nat) : List Nat → Nat → Nat → Worklet × List Nat
  | [], offset, queued => (⟨[], offset, queued⟩, [])
  | first :: rest, offset, queued =>
    if maxSamples < queued + count then
      let (w, consumed) := makeRoom maxSamples count rest 0 (queued - (first - offset))
      (w, (first - offset) :: consumed)
    else (⟨first :: rest, offset, queued⟩, [])

/-- `onmessage` for a chunk of samples. -/
def push (maxSamples : Nat) (w : Worklet) (count : Nat) : Worklet × List Nat :=
  let count := if maxSamples < count then maxSamples else count
  let (w, consumed) := makeRoom maxSamples count w.queue w.offset w.queued
  ({ w with queue := w.queue ++ [count], queued := w.queued + count }, consumed)

/-- The loop of `process` for an output with room for `room` samples: the processor after it, and how
much it has written. -/
def write (room : Nat) : List Nat → Nat → Nat → Worklet × Nat
  | [], offset, queued => (⟨[], offset, queued⟩, 0)
  | first :: rest, offset, queued =>
    if room = 0 then (⟨first :: rest, offset, queued⟩, 0)
    else
      let count := min room (first - offset)
      if offset + count = first then
        let (w, written) := write (room - count) rest 0 (queued - count)
        (w, count + written)
      else (⟨first :: rest, offset + count, queued - count⟩, count)

/-- `process`. -/
def process (w : Worklet) (room : Nat) : Worklet × Nat := write room w.queue w.offset w.queued

/-- The overflow branch of `onmessage` is taken: the chunk is truncated, or a queued chunk dropped. -/
def Overflows (maxSamples : Nat) (w : Worklet) (count : Nat) : Prop :=
  maxSamples < count ∨ (w.queue ≠ [] ∧ maxSamples < w.queued + min maxSamples count)

end Worklet

/-! ## The machine -/

/-- The place of the loop in `#playAudio`. -/
inductive Loop where
  | idle
  /-- Waiting for bytes, with the generation read before. -/
  | reading (generation : Nat)
  /-- Waiting for capacity for a chunk. -/
  | holding (generation count : Nat)
  /-- The chunk is counted; the `onPlaybackFrame` callback runs and the chunk is not posted yet. -/
  | counted (count : Nat)
  deriving DecidableEq

/-- The samples that are counted and not posted. -/
def Loop.counting : Loop → Nat
  | .counted count => count
  | _ => 0

/-- A `consumed` message, with the generation of the worklet. -/
structure Consumed where
  samples : Nat
  generation : Nat

/-- The state of the two parties and their channels. -/
structure State where
  /-- `#playbackBufferedDeviceSamples`. -/
  buffered : Nat
  /-- `#playbackGeneration`. -/
  generation : Nat
  loop : Loop
  worklet : Worklet
  /-- History: the `clear` messages that the worklet has processed. -/
  cleared : Nat
  toWorklet : List Message
  toMain : List Consumed

/-- What can happen next. -/
inductive Action where
  /-- The steps of the playback loop: it asks for bytes, gets a chunk of this length after resampling,
  finds capacity for it and counts it, and posts it. -/
  | read
  | chunk (count : Nat)
  | count
  | post
  /-- `clearPlayback` is called. -/
  | clearPlayback
  /-- A `consumed` message is delivered to the main thread. -/
  | deliver
  /-- The worklet takes its next message. -/
  | receive
  /-- The worklet renders a quantum of this length. -/
  | render (length : Nat)

/-- Before the first chunk. -/
def initial : State where
  buffered := 0
  generation := 0
  loop := .idle
  worklet := .new
  cleared := 0
  toWorklet := []
  toMain := []

namespace State

/-- The worklet posts `consumed` messages. -/
def postConsumed (s : State) (amounts : List Nat) : State :=
  { s with toMain := s.toMain ++ amounts.map fun n => ⟨n, s.cleared⟩ }

/-- `clearPlayback`. -/
def clearPlayback (s : State) : State :=
  { s with
    generation := s.generation + 1
    buffered := 0
    toWorklet := s.toWorklet ++ [.clear] }

end State

/-- One step of a party. -/
def step (d : Device) (s : State) : Action → Option State
  | .read => if s.loop = .idle then some { s with loop := .reading s.generation } else none
  | .chunk count =>
    match s.loop with
    | .reading generation => some { s with
        loop := if generation ≠ s.generation ∨ count = 0 then .idle else .holding generation count }
    | _ => none
  | .count =>
    match s.loop with
    | .holding generation count =>
      if s.buffered + count ≤ d.capacity then
        if generation ≠ s.generation then some { s with loop := .idle }
        else some { s with
          buffered := s.buffered + count
          loop := .counted count }
      else none
    | _ => none
  | .post =>
    match s.loop with
    | .counted count => some { s with
        toWorklet := s.toWorklet ++ [.samples count]
        loop := .idle }
    | _ => none
  | .clearPlayback => some s.clearPlayback
  | .deliver =>
    match s.loop, s.toMain with
    -- The main thread is inside the callback.
    | .counted _, _ => none
    | _, [] => none
    | _, message :: rest => some { s with
        buffered := s.buffered - message.samples
        toMain := rest }
  | .receive =>
    match s.toWorklet with
    | [] => none
    | .clear :: rest => some { s with
        worklet := .new
        cleared := s.cleared + 1
        toWorklet := rest }
    | .samples count :: rest =>
      let (worklet, consumed) := s.worklet.push d.maxSamples count
      some ({ s with
        worklet := worklet
        toWorklet := rest }.postConsumed consumed)
  | .render length =>
    let (worklet, written) := s.worklet.process length
    some ({ s with worklet := worklet }.postConsumed (if 0 < written then [written] else []))

/-- The two parties as a machine. -/
def machine (d : Device) : Machine State Action where
  Start s := s = initial
  step := step d

/-! ## What is asked of a run -/

/-- The samples in a channel to the worklet. -/
def samplesIn : List Message → Nat
  | [] => 0
  | .samples count :: rest => count + samplesIn rest
  | .clear :: rest => samplesIn rest

/-- The worklet's queued samples and those on their way to it do not exceed the main thread's count. -/
def Accounted (s : State) : Prop := s.worklet.queued + samplesIn s.toWorklet ≤ s.buffered

/-- The step takes the overflow branch of the worklet. -/
def TakesOverflow (d : Device) (s : State) (a : Action) : Prop :=
  a = .receive ∧ ∃ count rest, s.toWorklet = .samples count :: rest ∧
    s.worklet.Overflows d.maxSamples count

/-- The step spoils the count: a `consumed` message from before a clear is taken off the credit of the
chunks after it, or the `onPlaybackFrame` callback clears the playback before its chunk is posted. -/
def Miscounts (s : State) : Action → Prop
  | .deliver =>
    (s.toMain.head?.any fun message => message.generation ≠ s.generation) ∧ 0 < s.buffered
  | .clearPlayback => s.loop.counting ≠ 0
  | _ => False

/-- The step clears the playback while samples are queued or on their way. -/
def ClearsSamples (s : State) : Action → Prop
  | .clearPlayback => 0 < s.worklet.queued + samplesIn s.toWorklet
  | _ => False

instance (s : State) : Decidable (Accounted s) := inferInstanceAs (Decidable (_ ≤ _))

instance (s : State) : (a : Action) → Decidable (Miscounts s a)
  | .deliver => inferInstanceAs (Decidable (_ ∧ _))
  | .clearPlayback => inferInstanceAs (Decidable (_ ≠ _))
  | .read | .chunk _ | .count | .post | .receive | .render _ => inferInstanceAs (Decidable False)

instance (s : State) : (a : Action) → Decidable (ClearsSamples s a)
  | .clearPlayback => inferInstanceAs (Decidable (_ < _))
  | .read | .chunk _ | .count | .post | .deliver | .receive | .render _ =>
    inferInstanceAs (Decidable False)

end Rtvbp.TypeScript.BrowserPlayback
