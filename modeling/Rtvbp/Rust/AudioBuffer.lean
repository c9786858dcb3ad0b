import Rtvbp.Rust.Session.Audio

/-!
# The outbound audio buffer

`ByteBuffer` of `sdk/rust/src/audio/mod.rs` as the outbound direction uses it: any number of calls of `write`, the
outbound pump of `sdk/rust/src/session/mod.rs` with its calls of `read_outbound_frame`, and calls of `close`. The
calls are the threads; the pump and the calls of `close` act beside them. A section under the mutex is one step,
and so is the creation of a `Notified`, which receives the calls of `notify_waiters` that are made after it: a
generation counts these calls. The capacity and the format come from different places, and may be any pair.
-/

namespace Rtvbp.Rust.AudioBuffer

open Rtvbp.Lib
open Rtvbp.Rust.Audio (MediaFormat)

/-! ## The state -/

/-- What a call of `write` keeps: its input and how much of it has been written. -/
structure Call where
  input : List UInt8
  written : Nat

/-- A call of `write`. -/
inductive Writer where
  | idle
  /-- At the head of the loop. -/
  | looping (call : Call)
  /-- Before the lock, with a `Notified` of a generation. -/
  | noted (call : Call) (generation : Nat)
  /-- Before `readable.notify_waiters()`. -/
  | wrote (call : Call)
  /-- In `notified.await`. -/
  | waiting (call : Call) (generation : Nat)
  | returned (result : Except Error Nat)
  /-- The caller has dropped the future. -/
  | dropped

/-- The outbound pump. -/
inductive Pump where
  /-- At the head of the loop of `read_exact_or_drop`. -/
  | looping
  | noted (size generation : Nat)
  | waiting (size generation : Nat)
  /-- Before `writable.notify_waiters()`. -/
  | drained (frame : List UInt8)
  /-- In `write_frame` of the channel. -/
  | sending (frame : List UInt8)
  | ended

/-- What the calls, the pump and `close` share. -/
structure Shared where
  bytes : List UInt8
  closed : Bool
  /-- The generations of `readable` and `writable`. -/
  readable : Nat
  writable : Nat
  pump : Pump
  /-- The calls of `close` that have not notified `readable` yet, and those that have not notified `writable`. -/
  closing : Nat
  announcing : Nat
  /-- History: the bytes that were written to the buffer, the frames that were read from it, the bytes that were
  dropped at the end, and the calls that have written and not notified `readable` yet. -/
  accepted : List UInt8
  frames : List (List UInt8)
  remainder : List UInt8
  writing : List Nat

/-- The steps of a call. -/
inductive Act where
  | write (input : List UInt8)
  | note
  | lock
  | notify
  | wake
  | drop

/-- The steps of the pump and of `close`. -/
inductive Event where
  | note
  | lock
  | notify
  | wake
  /-- `write_frame` returns. -/
  | sent
  | failed
  /-- The pump is aborted where it waits. -/
  | abort
  | close
  | closeReadable
  | closeWritable

/-- The buffer at the start of the pump. -/
def new : Shared where
  bytes := []
  closed := false
  readable := 0
  writable := 0
  pump := .looping
  closing := 0
  announcing := 0
  accepted := []
  frames := []
  remainder := []
  writing := []

/-! ## The steps -/

/-- The section of `write` under the lock. -/
def lockWrite (capacity i : Nat) (s : Shared) (call : Call) (generation : Nat) : Shared × Writer :=
  if s.closed then
    (s, .returned (if call.written = 0 then .error .closed else .ok call.written))
  else
    let available := capacity - s.bytes.length
    if 0 < available then
      let count := min available (call.input.length - call.written)
      let chunk := (call.input.drop call.written).take count
      ({ s with
          bytes := s.bytes ++ chunk
          accepted := s.accepted ++ chunk
          writing := i :: s.writing },
        .wrote { call with written := call.written + count })
    else (s, .waiting call generation)

/-- One step of the call `i`. -/
def act (capacity i : Nat) (s : Shared) (w : Writer) (a : Act) : Option (Shared × Writer) :=
  match w, a with
  | .idle, .write input => some (s, .looping { input := input, written := 0 })
  | .looping call, .note =>
    if call.written < call.input.length then some (s, .noted call s.writable)
    else some (s, .returned (.ok call.written))
  | .noted call generation, .lock => some (lockWrite capacity i s call generation)
  | .wrote call, .notify =>
    some ({ s with readable := s.readable + 1, writing := s.writing.erase i }, .looping call)
  | .waiting call generation, .wake =>
    if generation = s.writable then none else some (s, .looping call)
  | .waiting _ _, .drop => some (s, .dropped)
  | _, _ => none

/-- The section of `read_exact_or_drop` under the lock. -/
def lockRead (s : Shared) (size generation : Nat) : Shared :=
  if size ≤ s.bytes.length then
    { s with
      bytes := s.bytes.drop size
      frames := s.frames ++ [s.bytes.take size]
      pump := .drained (s.bytes.take size) }
  else if s.closed then
    { s with bytes := [], remainder := s.remainder ++ s.bytes, pump := .ended }
  else { s with pump := .waiting size generation }

/-- One step of the pump or of a call of `close`. -/
def event (format : MediaFormat) (s : Shared) (e : Event) : Option Shared :=
  match e, s.pump with
  | .note, .looping =>
    match format.frameBytes with
    | .ok size => some { s with pump := .noted size s.readable }
    | .error _ => some { s with pump := .ended }
  | .lock, .noted size generation => some (lockRead s size generation)
  | .notify, .drained frame => some { s with writable := s.writable + 1, pump := .sending frame }
  | .wake, .waiting _ generation =>
    if generation = s.readable then none else some { s with pump := .looping }
  | .sent, .sending _ => some { s with pump := .looping }
  | .failed, .sending _ => some { s with pump := .ended }
  | .abort, .waiting _ _ => some { s with pump := .ended }
  | .abort, .sending _ => some { s with pump := .ended }
  | .close, _ => some { s with closed := true, closing := s.closing + 1 }
  | .closeReadable, _ =>
    if 0 < s.closing then some { s with
      readable := s.readable + 1
      closing := s.closing - 1
      announcing := s.announcing + 1 }
    else none
  | .closeWritable, _ =>
    if 0 < s.announcing then some { s with
      writable := s.writable + 1
      announcing := s.announcing - 1 }
    else none
  | _, _ => none

/-- The calls, the pump and `close` over one buffer. -/
def threads (capacity : Nat) (format : MediaFormat) : Threads Nat Shared Writer Act Event where
  Start s := s = new
  new _ := .idle
  act := act capacity
  env := event format

/-- A state of the whole. -/
abbrev State := Threads.State Nat Shared Writer

/-- The machine of a capacity and a format. -/
abbrev machine (capacity : Nat) (format : MediaFormat) := (threads capacity format).machine

/-! ## Deadlocks -/

/-- A call waits, and has not been notified. -/
def State.WriterWaits (s : State) : Prop := ∃ i call, s.locals i = .waiting call s.shared.writable

/-- The pump waits for a frame of a size, and has not been notified. -/
def State.PumpWaits (s : State) (size : Nat) : Prop := s.shared.pump = .waiting size s.shared.readable

/-- A call waits because the buffer is full, and the pump waits for more bytes than the buffer holds. -/
def State.Deadlocked (capacity : Nat) (s : State) : Prop :=
  s.WriterWaits ∧ s.shared.bytes.length = capacity ∧ ∃ size, s.PumpWaits size ∧ s.shared.bytes.length < size

/-- A call waits, the pump waits, and no notification is under way that could wake one of them. -/
def State.Stuck (s : State) : Prop :=
  s.WriterWaits ∧ (∃ size, s.PumpWaits size) ∧ (∀ i call, s.locals i ≠ .wrote call) ∧
    s.shared.closing = 0 ∧ s.shared.announcing = 0

/-- The bytes that were written have been read in frames of the format, dropped at the end, or are in the
buffer, in their order. -/
structure Shared.Conserved (format : MediaFormat) (s : Shared) : Prop where
  bytes : s.accepted = s.frames.flatten ++ s.remainder ++ s.bytes
  frames : ∀ frame ∈ s.frames, format.frameBytes = .ok frame.length

/-- Nothing more is written or read: the buffer is open and full, and holds less than a frame. -/
structure Shared.Jammed (capacity : Nat) (format : MediaFormat) (s : Shared) : Prop where
  isOpen : s.closed = false
  full : s.bytes.length = capacity
  short : ∀ size, format.frameBytes = .ok size → s.bytes.length < size

end Rtvbp.Rust.AudioBuffer
