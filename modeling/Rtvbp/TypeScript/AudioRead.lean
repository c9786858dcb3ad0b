import Rtvbp.TypeScript.QueueMachine
import Rtvbp.TypeScript.MediaFormat
import Rtvbp.Lib.Positions

/-!
# Reading from an audio stream

The inbound side of `AudioStream` of `sdk/typescript/src/audio.ts` that is bound to a `MemoryMediaChannel` of
`sdk/typescript/src/memory.ts`: the writes of the peer, `#readFrames`, any number of calls of `read`, and `clear`.
The queues of the channel and of the stream are those of `AsyncQueue`. What a call of `shift` or `push` returns is
looked up in the queue, so that the continuation of the caller is a step of its own. The observer returns.

A byte carries its position in the concatenation of the frames of the peer, which is history.
-/

namespace Rtvbp.TypeScript.AudioRead

open Rtvbp.Lib

/-- A byte and its position. -/
abbrev Byte := UInt8 × Nat

/-- The data of a `MediaFrame`. -/
abbrev Frame := List Byte

/-- A queue of frames. -/
abbrev Queue := QueueMachine.State Frame

/-- Where `#readFrames` is; the calls are those of the queues. -/
inductive Pump where
  | idle
  /-- In `readFrame` of the channel. -/
  | shifting (call : Nat)
  /-- With a frame that it has observed or will observe. -/
  | holding (frame : Frame)
  /-- In `push`. -/
  | pushing (call : Nat)
  /-- A frame had the wrong length. -/
  | failed

/-- The call of `read` that waits in `shift`. -/
structure Reading where
  call : Nat
  maxBytes : Nat

/-- History: the bytes that a call of `clear` has removed, and the number that it has returned. -/
structure Cleared where
  bytes : List Byte
  value : Nat

structure State where
  /-- `#incoming` of the channel. -/
  incoming : Queue
  /-- `#inbound`. -/
  inbound : Queue
  pump : Pump
  current : Option Frame
  currentOffset : Nat
  /-- The sizes of the calls of `read` that wait for the one before. -/
  chain : List Nat
  reading : Option Reading
  /-- History: the bytes of the frames of the peer, the results of the calls of `read`, and the calls of `clear`. -/
  input : List UInt8
  returned : List (List Byte)
  clears : List Cleared

inductive Action where
  /-- The peer calls `writeFrame`, where its signal may be aborted already. -/
  | write (data : List UInt8) (aborted : Bool)
  | abortWrite (call : Nat)
  /-- `#readFrames` calls `readFrame`, gets a frame, pushes it, and goes on after that. -/
  | pumpShift
  | pumpTake
  | pumpPush
  | pumpPushed
  | read (maxBytes : Nat) (aborted : Bool)
  /-- The first call of the chain goes on, where its signal may have been aborted. -/
  | enter (aborted : Bool)
  /-- The call of `read` that waits gets a frame, is told that the queue is closed, or is aborted. -/
  | take
  | refused
  | abortRead
  | clear

/-- A stream that has just been bound. -/
def new : State where
  incoming := QueueMachine.new
  inbound := QueueMachine.new
  pump := .idle
  current := none
  currentOffset := 0
  chain := []
  reading := none
  input := []
  returned := []
  clears := []

/-- The bytes of frames in a queue. -/
def bytes (frames : List (QueueMachine.Offer Frame)) : List Byte := frames.flatMap QueueMachine.Offer.value

/-- The capacity of the queues of a memory channel. -/
def channelCapacity : Nat := 32

/-- The capacity of `#inbound`. -/
def inboundCapacity (capacityBytes frameBytes : Nat) : Nat := max 1 (capacityBytes / frameBytes)

/-- What is left of `#current`. -/
def State.remainder (s : State) : List Byte :=
  match s.current with
  | some frame => frame.drop s.currentOffset
  | none => []

/-- `bufferedInboundBytes`. -/
def State.bufferedInboundBytes (frameBytes : Nat) (s : State) : Nat :=
  let current := match s.current with
    | some frame => frame.length - s.currentOffset
    | none => 0
  current + s.inbound.items.length * frameBytes

/-- The end of `read`: the next bytes of a frame. -/
def State.deliver (s : State) (frame : Frame) (offset maxBytes : Nat) : State :=
  let stop := min (offset + maxBytes) frame.length
  { s with
    current := some frame
    currentOffset := stop
    reading := none
    returned := s.returned ++ [(frame.take stop).drop offset] }

/-- `clear`. -/
def clear (frameBytes : Nat) (s : State) : State :=
  let value := s.bufferedInboundBytes frameBytes + s.incoming.items.length * frameBytes
  { s with
    current := none
    currentOffset := 0
    inbound := QueueMachine.clear s.inbound
    incoming := QueueMachine.clear s.incoming
    clears := s.clears ++ [{
      bytes := s.remainder ++ bytes s.inbound.items ++ bytes s.incoming.items
      value := value }] }

/-- One step, for frames of `frameBytes` bytes and an inbound queue of a capacity. -/
def step (frameBytes capacity : Nat) (s : State) : Action → Option State
  | .write data aborted =>
    if data.length = frameBytes then
      (QueueMachine.step channelCapacity s.incoming (.push (data.zipIdx s.input.length) aborted)).map fun q =>
        { s with incoming := q, input := s.input ++ data }
    else some s
  | .abortWrite call =>
    (QueueMachine.step channelCapacity s.incoming (.abortPush call)).map fun q => { s with incoming := q }
  | .pumpShift =>
    match s.pump with
    | .idle =>
      (QueueMachine.step channelCapacity s.incoming (.shift false)).map fun q =>
        { s with incoming := q, pump := .shifting s.incoming.calls }
    | _ => none
  | .pumpTake =>
    match s.pump with
    | .shifting call =>
      (s.incoming.result call).bind fun o =>
        if o.value.length = frameBytes then some { s with pump := .holding o.value }
        else
          (QueueMachine.step capacity s.inbound .close).map fun q => { s with inbound := q, pump := .failed }
    | _ => none
  | .pumpPush =>
    match s.pump with
    | .holding frame =>
      (QueueMachine.step capacity s.inbound (.push frame false)).map fun q =>
        { s with inbound := q, pump := .pushing s.inbound.calls }
    | _ => none
  | .pumpPushed =>
    match s.pump with
    | .pushing call =>
      if call ∈ s.inbound.accepted.map QueueMachine.Offer.call then some { s with pump := .idle } else none
    | _ => none
  | .read maxBytes aborted =>
    if maxBytes = 0 ∨ aborted then some s else some { s with chain := s.chain ++ [maxBytes] }
  | .enter aborted =>
    match s.reading, s.chain with
    | none, maxBytes :: chain =>
      if aborted then some { s with chain := chain }
      else
        match s.current.filter fun frame => s.currentOffset ≠ frame.length with
        | some frame => some ({ s with chain := chain }.deliver frame s.currentOffset maxBytes)
        | none =>
          (QueueMachine.step capacity s.inbound (.shift false)).map fun q => { s with
            inbound := q
            chain := chain
            reading := some { call := s.inbound.calls, maxBytes := maxBytes } }
    | _, _ => none
  | .take =>
    match s.reading with
    | some r => (s.inbound.result r.call).map fun o => s.deliver o.value 0 r.maxBytes
    | none => none
  | .refused =>
    match s.reading with
    | some r => if r.call ∈ s.inbound.ended then some { s with reading := none } else none
    | none => none
  | .abortRead =>
    match s.reading with
    | some r =>
      (QueueMachine.step capacity s.inbound (.abortShift r.call)).map fun q =>
        { s with inbound := q, reading := none }
    | none => none
  | .clear => some (clear frameBytes s)

/-- The streams with frames of a size and a capacity. -/
def machine (frameBytes capacityBytes : Nat) : Machine State Action where
  Start s := s = new
  step := step frameBytes (inboundCapacity capacityBytes frameBytes)

/-! ## What is asked of a run -/

/-- The frame that the pump has in its hands. -/
def State.pumped (s : State) : List Byte :=
  match s.pump with
  | .shifting call => bytes (s.incoming.result call).toList
  | .holding frame => frame
  | _ => []

/-- The frame that the call of `read` in `shift` has got. -/
def State.arrived (s : State) : List Byte :=
  match s.reading with
  | some r => bytes (s.inbound.result r.call).toList
  | none => []

/-- The bytes that are buffered, in the order in which they would be read: in the stream, on the way there, and in
the channel. -/
def State.buffered (s : State) : List Byte :=
  s.remainder ++ s.arrived ++ bytes s.inbound.items ++ bytes s.inbound.writers ++ s.pumped ++ bytes s.incoming.items

/-- The bytes that the channel has received. -/
def State.received (s : State) : List Byte := bytes s.incoming.accepted

/-- No frame is on its way: what waits, waits in a queue. -/
structure State.Quiescent (s : State) : Prop where
  pump : ∀ frame, s.pump ≠ .holding frame
  shifting : ∀ call, s.pump = .shifting call → s.incoming.result call = none
  reading : ∀ r, s.reading = some r → s.inbound.result r.call = none

/-- What becomes of the bytes. -/
structure State.Conserved (s : State) : Prop where
  /-- The channel receives bytes of the peer in their order. -/
  received : Increasing s.input s.received
  /-- Each byte has one fate. -/
  split : (s.returned.flatten ++ (s.clears.map Cleared.bytes).flatten ++ s.buffered).Perm s.received
  /-- The reads return bytes in their order, and those that are buffered come after them. -/
  ordered : (s.returned.flatten ++ s.buffered).Sublist s.received
  /-- A call of `clear` removes bytes in their order, and returns their number. -/
  cleared : ∀ c ∈ s.clears, c.bytes.Sublist s.received ∧ c.value = c.bytes.length
  /-- At a quiescent point the buffered bytes are in `#current` and in the queues. -/
  places : s.Quiescent → s.buffered =
    s.remainder ++ bytes s.inbound.items ++ bytes s.inbound.writers ++ bytes s.incoming.items

end Rtvbp.TypeScript.AudioRead
