import Rtvbp.Lib.Machine
import Rtvbp.TypeScript.MediaFormat

/-!
# Writing to an audio stream

`AudioStream.write` of `sdk/typescript/src/audio.ts` on one stream, with any number of calls at once. The calls
form a chain through `#writeTail`, so that they enter one after another, in the order in which they are made; the
steps are the calls, the entry of the first one in the chain, and what becomes of a call of `writeFrame`. The
channel, the signals and the observer are the environment, and may let a call fail wherever the code looks at them.

A byte carries its position in the concatenation of the inputs of all calls, which is history.
-/

namespace Rtvbp.TypeScript.AudioWrite

open Rtvbp.Lib

/-- A byte and its position. -/
abbrev Byte := UInt8 × Nat

/-- A call that has entered. -/
structure Active where
  /-- What is left of `combined`. -/
  rest : List Byte
  /-- History: the call has found bytes in `#partial`, and has delivered a frame. -/
  carrying : Bool
  sent : Bool

/-- A stream and its history. -/
structure State where
  /-- `#partial`. -/
  carried : List Byte
  /-- The copies of the calls that wait for the one before. -/
  chain : List (List Byte)
  active : Option Active
  closed : Bool
  /-- History: the inputs of all calls, the bytes of the calls that have entered, the frames that the channel
  has got, and whether a call was turned away before it entered, or has failed after that. -/
  input : List UInt8
  entered : List Byte
  delivered : List (List Byte)
  turnedAway : Bool
  failed : Bool

inductive Action where
  /-- A call, where the signal may be aborted already. -/
  | write (data : List UInt8) (aborted : Bool)
  /-- The first call of the chain goes on, where the signal may have been aborted or the channel be missing. -/
  | enter (refused : Bool)
  /-- `writeFrame` delivers the next frame. -/
  | deliver
  /-- The signal is aborted, `writeFrame` fails without the frame, or the observer throws after it. -/
  | fail
  /-- No full frame is left. -/
  | finish
  | close
  /-- The end of `close`. -/
  | drop

/-- The constructor. -/
def new : State where
  carried := []
  chain := []
  active := none
  closed := false
  input := []
  entered := []
  delivered := []
  turnedAway := false
  failed := false

/-- The synchronous part of `write`. -/
def write (s : State) (data : List UInt8) (aborted : Bool) : State :=
  let copy := data.zipIdx s.input.length
  let s := { s with input := s.input ++ data }
  if aborted then { s with turnedAway := true }
  else if data = [] then s
  else { s with chain := s.chain ++ [copy] }

/-- The call `copy` goes on after the one before. -/
def enter (s : State) (copy : List Byte) (refused : Bool) : State :=
  if refused ∨ s.closed then { s with turnedAway := true }
  else
    { s with
      active := some { rest := s.carried ++ copy, carrying := !s.carried.isEmpty, sent := false }
      entered := s.entered ++ copy }

/-- One step, for frames of `frameBytes` bytes. -/
def step (frameBytes : Nat) (s : State) : Action → Option State
  | .write data aborted => some (write s data aborted)
  | .enter refused =>
    match s.active, s.chain with
    | none, copy :: chain => some (enter { s with chain := chain } copy refused)
    | _, _ => none
  | .deliver =>
    match s.active with
    | some call =>
      if frameBytes ≤ call.rest.length then some { s with
        active := some { call with rest := call.rest.drop frameBytes, sent := true }
        delivered := s.delivered ++ [call.rest.take frameBytes] }
      else none
    | none => none
  | .fail =>
    match s.active with
    | some call =>
      if frameBytes ≤ call.rest.length ∨ call.sent then some { s with active := none, failed := true } else none
    | none => none
  | .finish =>
    match s.active with
    | some call =>
      if call.rest.length < frameBytes then some { s with active := none, carried := call.rest } else none
    | none => none
  | .close => some { s with closed := true }
  | .drop => if s.closed then some { s with carried := [] } else none

/-- The streams with frames of a size. -/
def machine (frameBytes : Nat) : Machine State Action where
  Start s := s = new
  step := step frameBytes

/-! ## What is asked of a run -/

/-- The bytes that the call under way has not delivered, or that the next one finds. -/
def State.held (s : State) : List Byte :=
  match s.active with
  | some call => call.rest
  | none => if s.closed then [] else s.carried

/-- What the channel gets. -/
structure State.Framed (frameBytes : Nat) (s : State) : Prop where
  /-- The positions increase strictly: no byte is delivered twice, and none after a later one. -/
  ordered : (s.delivered.flatten.map Prod.snd).Pairwise (· < ·)
  /-- A byte of the channel is the one of its position. -/
  genuine : ∀ b ∈ s.delivered.flatten, s.input[b.2]? = some b.1
  sized : ∀ frame ∈ s.delivered, frame.length = frameBytes
  /-- As long as no call has failed, what the channel has got and what is carried is what the calls have brought
  in; and if none was turned away, then that is the input, up to the calls in the chain. -/
  complete : s.failed = false → s.closed = false → s.delivered.flatten ++ s.held = s.entered ∧
    (s.turnedAway = false → s.entered ++ s.chain.flatten = s.input.zipIdx)

/-- The call that would fail has not delivered a frame after it found carried bytes. -/
def Clean (s : State) : Action → Prop
  | .fail => s.closed = false → ∀ call, s.active = some call → ¬ (call.carrying = true ∧ call.sent = true)
  | _ => True

instance (s : State) : DecidablePred (Clean s) := fun a => by
  unfold Clean
  split <;> infer_instance

end Rtvbp.TypeScript.AudioWrite
