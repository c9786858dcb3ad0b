import Rtvbp.Rust.ByteBuffer

/-!
# The audio stream

`AudioStream` and `FrameBuffer` of `sdk/rust/src/audio/mod.rs`: every inbound frame goes into a `ByteBuffer`, which
makes its writer wait when it is full, and then into the timed view, which takes every frame. Any number of calls run
concurrently; the steps of a byte buffer are those of `ByteBuffer.act`.
-/

namespace Rtvbp.Rust.AudioStream

open Rtvbp.Lib

/-! ## The timed view -/

/-- `MediaFrame`; the time is in nanoseconds. -/
structure MediaFrame where
  data : List UInt8
  pts : Option Nat

/-- `tokio::sync::Notify` with both kinds of notifications: a generation counts the calls of `notify_waiters`; a call
of `notify_one` goes to the waiter that has been parked longest, or leaves a permit. -/
structure Notify where
  generation : Nat
  permit : Bool
  parked : List Nat
  /-- The waiters that a call of `notify_one` has chosen and that have not gone on. -/
  chosen : List Nat

def Notify.new : Notify := { generation := 0, permit := false, parked := [], chosen := [] }

def Notify.notifyOne (n : Notify) : Notify :=
  match n.parked with
  | [] => { n with permit := true }
  | j :: rest => { n with parked := rest, chosen := j :: n.chosen }

def Notify.notifyWaiters (n : Notify) : Notify := { n with generation := n.generation + 1, parked := [] }

/-- The future of the waiter `i` is dropped; it hands on a notification of `notify_one`. -/
def Notify.drop (n : Notify) (i : Nat) : Notify :=
  if i ∈ n.chosen then { n with chosen := n.chosen.erase i }.notifyOne else { n with parked := n.parked.erase i }

/-- `FrameBuffer`. -/
structure FrameBuffer where
  frames : List MediaFrame
  closed : Bool
  readable : Notify

def FrameBuffer.new : FrameBuffer := { frames := [], closed := false, readable := .new }

/-- The bytes of the frames that are waiting. -/
def FrameBuffer.pending (b : FrameBuffer) : Nat := (b.frames.map fun frame => frame.data.length).sum

/-! ## The state -/

/-- A call of the stream, at a step of a byte buffer or at one of its own. -/
inductive Call where
  | idle
  /-- `push_inbound_frame` in `write_all`, before the lock of `push` and before `readable.notify_one()`. -/
  | push (frame : MediaFrame) (call : ByteBuffer.Call)
  | admitFrame (frame : MediaFrame)
  | admitted
  | pushReturned (result : Except Error Unit)
  /-- `read`, `write`, `clear_read_buffer` and `read_outbound_frame`, to their ends. -/
  | read (call : ByteBuffer.Call)
  | write (call : ByteBuffer.Call)
  | clear (call : ByteBuffer.Call)
  | readOutbound (call : ByteBuffer.Call)
  /-- `read_timed_frame` at the head of its loop, before the lock, before `notified.await` and in it. -/
  | pop
  | popNoted (generation : Nat)
  | popAwaits (generation : Nat)
  | popParked
  | popReturned (result : Except Error MediaFrame)
  /-- `close` in the two byte buffers, before the lock of the timed view and before `readable.notify_waiters()`. -/
  | closeInbound (call : ByteBuffer.Call)
  | closeOutbound (call : ByteBuffer.Call)
  | closeTimed
  | closedTimed
  | closeReturned
  | dropped

/-- The stream. -/
structure Shared where
  inbound : ByteBuffer.Shared
  outbound : ByteBuffer.Shared
  timed : FrameBuffer

/-- The steps of a call. -/
inductive Act where
  | push (frame : MediaFrame)
  | read (n : Nat)
  | readTimed
  | clear
  | close
  | write (input : List UInt8)
  /-- `read_outbound_frame` with the size that the format has. -/
  | readOutbound (size : Nat)
  /-- A step inside a byte buffer, and the step that follows its last one. -/
  | buffer (a : ByteBuffer.Act)
  | next
  | note
  | lock
  | notify
  | park
  | wake
  | drop

/-- `new`. -/
def new : Shared := { inbound := ByteBuffer.new, outbound := ByteBuffer.new, timed := .new }

/-! ## The steps -/

/-- `write_all` after `write`. -/
def writeAll (frame : MediaFrame) : Except Error Nat → Call
  | .ok written => if written = frame.data.length then .admitFrame frame else .pushReturned (.error .closed)
  | .error error => .pushReturned (.error error)

/-- `push` of `FrameBuffer` up to the notification. -/
def lockPush (s : Shared) (frame : MediaFrame) : Shared × Call :=
  if s.timed.closed then (s, .pushReturned (.error .closed))
  else ({ s with timed := { s.timed with frames := s.timed.frames ++ [frame] } }, .admitted)

/-- The section of `pop` under the lock. -/
def lockPop (s : Shared) (generation : Nat) : Shared × Call :=
  match s.timed.frames with
  | frame :: rest => ({ s with timed := { s.timed with frames := rest } }, .popReturned (.ok frame))
  | [] => if s.timed.closed then (s, .popReturned (.error .closed)) else (s, .popAwaits generation)

/-- `notified.await` when it is reached. -/
def awaitPop (i : Nat) (s : Shared) (generation : Nat) : Shared × Call :=
  let readable := s.timed.readable
  if generation ≠ readable.generation then (s, .pop)
  else if readable.permit then ({ s with timed := { s.timed with readable := { readable with permit := false } } }, .pop)
  else
    ({ s with timed := { s.timed with readable := { readable with parked := readable.parked ++ [i] } } }, .popParked)

/-- A notification of the timed view. -/
def Shared.notified (s : Shared) (readable : Notify) : Shared := { s with timed := { s.timed with readable := readable } }

/-- A step of the call `i` in the inbound byte buffer. -/
def onInbound (capacity i : Nat) (s : Shared) (call : ByteBuffer.Call) (a : ByteBuffer.Act)
    (f : ByteBuffer.Call → Call) : Option (Shared × Call) :=
  (ByteBuffer.act capacity i s.inbound call a).map fun r => ({ s with inbound := r.1 }, f r.2)

/-- A step of the call `i` in the outbound byte buffer. -/
def onOutbound (capacity i : Nat) (s : Shared) (call : ByteBuffer.Call) (a : ByteBuffer.Act)
    (f : ByteBuffer.Call → Call) : Option (Shared × Call) :=
  (ByteBuffer.act capacity i s.outbound call a).map fun r => ({ s with outbound := r.1 }, f r.2)

/-- One step of the call `i`. -/
def act (capacity i : Nat) (s : Shared) (c : Call) (a : Act) : Option (Shared × Call) :=
  match c, a with
  | .idle, .push frame => some (s, .push frame (.writing frame.data 0))
  | .idle, .read n => some (s, .read (ByteBuffer.enterRead (.upTo n)))
  | .idle, .readTimed => some (s, .pop)
  | .idle, .clear => some (s, .clear .clearing)
  | .idle, .close => some (s, .closeInbound .closing)
  | .idle, .write input => some (s, .write (.writing input 0))
  | .idle, .readOutbound size => some (s, .readOutbound (.reading (.exact size)))
  | .push frame call, .buffer a => onInbound capacity i s call a (.push frame)
  | .push frame (.writeReturned _ result), .next => some (s, writeAll frame result)
  | .admitFrame frame, .lock => some (lockPush s frame)
  | .admitted, .notify => some (s.notified s.timed.readable.notifyOne, .pushReturned (.ok ()))
  | .read call, .buffer a => onInbound capacity i s call a .read
  | .write call, .buffer a => onOutbound capacity i s call a .write
  | .clear call, .buffer a => onInbound capacity i s call a .clear
  | .readOutbound call, .buffer a => onOutbound capacity i s call a .readOutbound
  | .pop, .note => some (s, .popNoted s.timed.readable.generation)
  | .popNoted generation, .lock => some (lockPop s generation)
  | .popAwaits generation, .park => some (awaitPop i s generation)
  | .popParked, .wake =>
    if i ∈ s.timed.readable.parked then none
    else
      let readable := s.timed.readable
      some (s.notified { readable with chosen := readable.chosen.erase i }, .pop)
  | .popParked, .drop => some (s.notified (s.timed.readable.drop i), .dropped)
  | .closeInbound call, .buffer a => onInbound capacity i s call a .closeInbound
  | .closeInbound .closeReturned, .next => some (s, .closeOutbound .closing)
  | .closeOutbound call, .buffer a => onOutbound capacity i s call a .closeOutbound
  | .closeOutbound .closeReturned, .next => some (s, .closeTimed)
  | .closeTimed, .lock => some ({ s with timed := { s.timed with closed := true } }, .closedTimed)
  | .closedTimed, .notify => some (s.notified s.timed.readable.notifyWaiters, .closeReturned)
  | _, _ => none

/-- The calls of one stream. -/
def threads (capacity : Nat) : Threads Nat Shared Call Act Empty where
  Start s := s = new
  new _ := .idle
  act := act capacity
  env _ e := e.elim

/-- A stream with its calls. -/
abbrev State := Threads.State Nat Shared Call

abbrev machine (capacity : Nat) := (threads capacity).machine

/-! ## What is asked of a run -/

/-- The audio bytes that the stream holds. -/
def Shared.retained (s : Shared) : Nat := s.inbound.bytes.length + s.outbound.bytes.length + s.timed.pending

/-- The frame of a call of `push_inbound_frame`. -/
def Act.frame? : Act → Option MediaFrame
  | .push frame => some frame
  | _ => none

/-- The frame that a step puts into the timed view. -/
def admitted? : Call → Act → Option MediaFrame
  | .admitFrame frame, .lock => some frame
  | _, _ => none

/-- No frame is larger than the frame size. -/
def Framed (size : Nat) (_ : Nat) (_ : Shared) (_ : Call) (a : Act) : Prop :=
  ∀ frame ∈ a.frame?, frame.data.length ≤ size

/-- When a frame enters the timed view, the frames that wait in it make up no more than a number of bytes. -/
def Drained (limit : Nat) (_ : Nat) (s : Shared) (c : Call) (a : Act) : Prop :=
  (admitted? c a).isSome → s.timed.pending ≤ limit

instance (size i : Nat) (s : Shared) (c : Call) (a : Act) : Decidable (Framed size i s c a) :=
  inferInstanceAs (Decidable (∀ frame ∈ a.frame?, frame.data.length ≤ size))

instance (limit i : Nat) (s : Shared) (c : Call) (a : Act) : Decidable (Drained limit i s c a) :=
  inferInstanceAs (Decidable ((admitted? c a).isSome → s.timed.pending ≤ limit))

/-- The runs with a frame size. -/
def Runs (capacity size : Nat) (s : State) : Prop :=
  (machine capacity).ReachableWhere (Threads.When (Framed size) fun _ _ => True) s

/-- Those in which the timed view is read, too. -/
def DrainedRuns (capacity size limit : Nat) (s : State) : Prop :=
  (machine capacity).ReachableWhere
    (Threads.When (fun i s c a => Framed size i s c a ∧ Drained limit i s c a) fun _ _ => True) s

end Rtvbp.Rust.AudioStream
