import Rtvbp.Rust.Error
import Rtvbp.Lib.Threads

/-!
# The byte buffer

`ByteBuffer` of `sdk/rust/src/audio/mod.rs` for any number of concurrent calls of `write`, `read`,
`read_exact_or_drop`, `clear` and `close`. A call is a thread. A section under the mutex is one step, and so is the
creation of a `Notified`, which receives the calls of `notify_waiters` that are made after it: a generation counts
these calls. A call that waits can be dropped.
-/

namespace Rtvbp.Rust.ByteBuffer

open Rtvbp.Lib

/-! ## The state -/

/-- What a call of `read` or of `read_exact_or_drop` asks for. -/
inductive Want where
  /-- The length of the output of `read`. -/
  | upTo (n : Nat)
  | exact (size : Nat)

/-- A call. -/
inductive Call where
  | idle
  /-- At the head of the loop of `write`, and before the lock with a `Notified` of a generation. -/
  | writing (input : List UInt8) (written : Nat)
  | writeNoted (input : List UInt8) (written generation : Nat)
  /-- Before `readable.notify_waiters()`. -/
  | wrote (input : List UInt8) (written : Nat)
  | writeWaiting (input : List UInt8) (written generation : Nat)
  /-- At the head of the loop of `read` or `read_exact_or_drop`, and before the lock. -/
  | reading (want : Want)
  | readNoted (want : Want) (generation : Nat)
  /-- Before `writable.notify_waiters()`. -/
  | took (want : Want) (data : List UInt8)
  | readWaiting (want : Want) (generation : Nat)
  /-- `clear` before the lock, and before `writable.notify_waiters()`. -/
  | clearing
  | cleared (count : Nat)
  /-- `close` before the lock, before `readable.notify_waiters()` and before `writable.notify_waiters()`. -/
  | closing
  | closedState
  | closedReadable
  | writeReturned (input : List UInt8) (result : Except Error Nat)
  | readReturned (want : Want) (result : Except Error (List UInt8))
  | clearReturned (count : Nat)
  | closeReturned
  /-- The caller has dropped the future. -/
  | dropped

/-- What the calls share. -/
structure Shared where
  bytes : List UInt8
  closed : Bool
  /-- The generations of `readable` and `writable`. -/
  readable : Nat
  writable : Nat
  /-- History: the bytes that were accepted and those that were taken, each time with the call, and the calls that
  have changed the state and not notified `readable` or `writable` yet. -/
  accepted : List (Nat × List UInt8)
  taken : List (Nat × List UInt8)
  waking : List Nat
  freeing : List Nat

/-- The steps of a call. -/
inductive Act where
  | write (input : List UInt8)
  | read (want : Want)
  | clear
  | close
  | note
  | lock
  | notify
  | wake
  | drop

/-- `new`. -/
def new : Shared where
  bytes := []
  closed := false
  readable := 0
  writable := 0
  accepted := []
  taken := []
  waking := []
  freeing := []

/-! ## The steps -/

/-- The section of `write` under the lock. -/
def lockWrite (capacity i : Nat) (s : Shared) (input : List UInt8) (written generation : Nat) : Shared × Call :=
  if s.closed then (s, .writeReturned input (if written = 0 then .error .closed else .ok written))
  else
    let available := capacity - s.bytes.length
    if 0 < available then
      let count := min available (input.length - written)
      let chunk := (input.drop written).take count
      ({ s with
          bytes := s.bytes ++ chunk
          accepted := s.accepted ++ [(i, chunk)]
          waking := i :: s.waking },
        .wrote input (written + count))
    else (s, .writeWaiting input written generation)

/-- The bytes that are taken off the front. -/
def takeFront (i : Nat) (s : Shared) (count : Nat) : Shared :=
  { s with
    bytes := s.bytes.drop count
    taken := s.taken ++ [(i, s.bytes.take count)]
    freeing := i :: s.freeing }

/-- The sections of `read` and of `read_exact_or_drop` under the lock. -/
def lockRead (i : Nat) (s : Shared) (want : Want) (generation : Nat) : Shared × Call :=
  match want with
  | .upTo n =>
    if s.bytes ≠ [] then
      let count := min n s.bytes.length
      (takeFront i s count, .took want (s.bytes.take count))
    else if s.closed then (s, .readReturned want (.error .closed))
    else (s, .readWaiting want generation)
  | .exact size =>
    if size ≤ s.bytes.length then (takeFront i s size, .took want (s.bytes.take size))
    else if s.closed then
      ({ s with bytes := [], taken := s.taken ++ [(i, s.bytes)] }, .readReturned want (.error .closed))
    else (s, .readWaiting want generation)

/-- The section of `clear` under the lock. -/
def lockClear (i : Nat) (s : Shared) : Shared × Call :=
  (takeFront i s s.bytes.length, .cleared s.bytes.length)

/-- The section of `close` under the lock. -/
def lockClose (i : Nat) (s : Shared) : Shared × Call :=
  ({ s with closed := true, waking := i :: s.waking, freeing := i :: s.freeing }, .closedState)

/-- `readable.notify_waiters()`. -/
def notifyReadable (i : Nat) (s : Shared) : Shared :=
  { s with readable := s.readable + 1, waking := s.waking.erase i }

/-- `writable.notify_waiters()`. -/
def notifyWritable (i : Nat) (s : Shared) : Shared :=
  { s with writable := s.writable + 1, freeing := s.freeing.erase i }

/-- `read` returns at once for an empty output. -/
def enterRead : Want → Call
  | .upTo 0 => .readReturned (.upTo 0) (.ok [])
  | want => .reading want

/-- One step of the call `i`. -/
def act (capacity i : Nat) (s : Shared) (c : Call) (a : Act) : Option (Shared × Call) :=
  match c, a with
  | .idle, .write input => some (s, .writing input 0)
  | .idle, .read want => some (s, enterRead want)
  | .idle, .clear => some (s, .clearing)
  | .idle, .close => some (s, .closing)
  | .writing input written, .note =>
    if written < input.length then some (s, .writeNoted input written s.writable)
    else some (s, .writeReturned input (.ok written))
  | .writeNoted input written generation, .lock => some (lockWrite capacity i s input written generation)
  | .wrote input written, .notify => some (notifyReadable i s, .writing input written)
  | .writeWaiting input written generation, .wake =>
    if generation = s.writable then none else some (s, .writing input written)
  | .writeWaiting _ _ _, .drop => some (s, .dropped)
  | .reading want, .note => some (s, .readNoted want s.readable)
  | .readNoted want generation, .lock => some (lockRead i s want generation)
  | .took want data, .notify => some (notifyWritable i s, .readReturned want (.ok data))
  | .readWaiting want generation, .wake =>
    if generation = s.readable then none else some (s, .reading want)
  | .readWaiting _ _, .drop => some (s, .dropped)
  | .clearing, .lock => some (lockClear i s)
  | .cleared count, .notify => some (notifyWritable i s, .clearReturned count)
  | .closing, .lock => some (lockClose i s)
  | .closedState, .notify => some (notifyReadable i s, .closedReadable)
  | .closedReadable, .notify => some (notifyWritable i s, .closeReturned)
  | _, _ => none

/-- The calls over one buffer. -/
def threads (capacity : Nat) : Threads Nat Shared Call Act Empty where
  Start s := s = new
  new _ := .idle
  act := act capacity
  env _ e := e.elim

/-- A buffer with its calls. -/
abbrev State := Threads.State Nat Shared Call

abbrev machine (capacity : Nat) := (threads capacity).machine

/-! ## What is asked of a run -/

/-- The condition that a call of `write` waits for. -/
def Shared.Writable (capacity : Nat) (s : Shared) : Prop := s.closed = true ∨ s.bytes.length < capacity

/-- The condition that a call of `read` or of `read_exact_or_drop` waits for. -/
def Shared.Ready (s : Shared) : Want → Prop
  | .upTo _ => s.closed = true ∨ s.bytes ≠ []
  | .exact size => s.closed = true ∨ size ≤ s.bytes.length

/-- The next step of the call is `readable.notify_waiters()`. -/
def Call.WillWake : Call → Prop
  | .wrote _ _ => True
  | .closedState => True
  | _ => False

/-- The call will get to `writable.notify_waiters()` without waiting. -/
def Call.WillFree : Call → Prop
  | .took _ _ => True
  | .cleared _ => True
  | .closedState => True
  | .closedReadable => True
  | _ => False

/-- The bytes of the call that were accepted so far, as the call knows them. -/
def Call.accepted? : Call → Option (List UInt8)
  | .idle => some []
  | .writing input written => some (input.take written)
  | .writeNoted input written _ => some (input.take written)
  | .wrote input written => some (input.take written)
  | .writeWaiting input written _ => some (input.take written)
  | .writeReturned input (.ok written) => some (input.take written)
  | .writeReturned _ (.error _) => some []
  | _ => none

/-- The bytes that the call has taken so far, as the call knows them. -/
def Call.taken? : Call → Option (List UInt8)
  | .idle => some []
  | .reading _ => some []
  | .readNoted _ _ => some []
  | .readWaiting _ _ => some []
  | .took _ data => some data
  | .readReturned _ (.ok data) => some data
  | .clearing => some []
  | _ => none

/-- What the call `i` has in a history. -/
def pieces (history : List (Nat × List UInt8)) (i : Nat) : List UInt8 :=
  (history.filter fun piece => piece.1 = i).flatMap Prod.snd

/-- The buffer does not exceed its capacity; what was taken is what was accepted up to what is left, in its order;
every call of `write` has had accepted what it says; every call of `read` and `read_exact_or_drop` returns what it
has taken, and a frame is of the size that was asked for; every call of `clear` returns how much it has taken. -/
structure State.Exact (capacity : Nat) (s : State) : Prop where
  room : s.shared.bytes.length ≤ capacity
  order : s.shared.accepted.flatMap Prod.snd = s.shared.taken.flatMap Prod.snd ++ s.shared.bytes
  writes : ∀ i data, (s.locals i).accepted? = some data → pieces s.shared.accepted i = data
  reads : ∀ i data, (s.locals i).taken? = some data → pieces s.shared.taken i = data
  frames : ∀ i size data, s.locals i = .readReturned (.exact size) (.ok data) → data.length = size
  clears : ∀ i count, s.locals i = .clearReturned count → (pieces s.shared.taken i).length = count

/-- No call is parked although what it waits for is true, unless it has been notified or another call is about to
notify it. -/
structure State.Awake (capacity : Nat) (s : State) : Prop where
  writers : ∀ i input written generation, s.locals i = .writeWaiting input written generation →
    s.shared.Writable capacity → generation < s.shared.writable ∨ ∃ j, (s.locals j).WillFree
  readers : ∀ i want generation, s.locals i = .readWaiting want generation → s.shared.Ready want →
    generation < s.shared.readable ∨ ∃ j, (s.locals j).WillWake

end Rtvbp.Rust.ByteBuffer
