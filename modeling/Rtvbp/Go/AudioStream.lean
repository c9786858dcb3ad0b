import Rtvbp.Go.Media
import Rtvbp.Lib.Machine
import Rtvbp.Lib.Mailbox
import Rtvbp.Lib.RingBuffer

/-!
# The audio of two sessions

`audioStream` of `sdk/go/audio.go` and the pumps of `sdk/go/session_media.go`, at both ends of one media channel. The
handler of a session writes bytes to a ring buffer; the outbound pump cuts them into frames, the inbound pump of the
other session puts the bytes of the frames into its ring buffer, and the other handler reads them or clears them away.
A call that waits on a ring buffer is a sequence of turns, so that any number of calls may be under way.

The ring buffer is a package of its own and a parameter here. What the transport does to the channel is a choice of the
schedule: it may refuse a frame, close, and throw away what is under way.
-/

namespace Rtvbp.Go.AudioStream

open Rtvbp.Lib
open Rtvbp.Go.Media (MediaFormat)

/-- `pumpAudioOutbound`: the frame that is read together, or the frame that is written. -/
inductive OutboundPump where
  | unbound
  | filling (data : List UInt8)
  | writing (frame : List UInt8)
  /-- The pump has returned; what it held is dropped. -/
  | ended (dropped : List UInt8)

/-- `pumpAudioInbound`: what remains of a frame is written to the buffer. -/
inductive InboundPump where
  | unbound
  | reading
  | buffering (remaining : List UInt8)
  | ended (dropped : List UInt8)

/-- The bytes in the hands of a pump. -/
def OutboundPump.held : OutboundPump → List UInt8
  | .unbound => []
  | .filling data => data
  | .writing frame => frame
  | .ended dropped => dropped

def InboundPump.held : InboundPump → List UInt8
  | .unbound | .reading => []
  | .buffering remaining => remaining
  | .ended dropped => dropped

/-- A call of `discardAvailable`. -/
structure Clear where
  remaining : ℕ
  cleared : ℕ
  returned : Bool

/-- How much the scratch of a call can hold. -/
def Clear.want (c : Clear) : ℕ := min (min c.remaining (32 * 1024)) (c.remaining - c.cleared)

/-- The audio of a session, with what its handler has put in and taken out. -/
structure Session (ρ : Type) where
  inbound : ρ
  outbound : ρ
  outboundPump : OutboundPump
  inboundPump : InboundPump
  closing : Bool
  /-- A pump has asked for the end of the session. -/
  stopRequested : Bool
  written : List UInt8
  /-- What was taken out, by a `Read` or by a call of `ClearReadBuffer`. -/
  taken : List (Option ℕ × List UInt8)
  clears : List Clear

/-- The two sessions and the wires out of them. -/
structure State (ρ : Type) where
  session : Bool → Session ρ
  wire : Bool → Wire (List UInt8)

inductive SessionAction where
  /-- `finishAudioBind` starts the pumps. -/
  | bind
  | write (data : List UInt8)
  | read (n : ℕ)
  | clear
  | clearNext (i : ℕ)
  /-- A read of `io.ReadFull` in the outbound pump. -/
  | fill
  | writeFrame
  /-- `WriteFrame` fails, by a closed channel or by another error. -/
  | writeFails (closed : Bool)
  | readFrame
  /-- `ReadFrame` fails, by the end of the channel or by another error. -/
  | readFails (ended : Bool)
  /-- A write of the inbound pump. -/
  | buffer
  /-- `beginShutdown` marks the session. -/
  | shutdown
  /-- `audioStream.Close`, after that. -/
  | closeAudio

inductive Action where
  | session (side : Bool) (action : SessionAction)
  | closeWire (side : Bool)
  | discardWire (side : Bool)

/-- The size of a frame. -/
def frameBytes (format : MediaFormat) : ℕ :=
  match format.FrameBytes with
  | .ok n => n.toInt.toNat
  | .error _ => 0

variable {ρ : Type} (ring : RingBuffer ρ UInt8) (format : MediaFormat)

namespace Session

/-- `handleAudioPumpError`; the end of the channel stops nothing. -/
def pumpError (a : Session ρ) (ended : Bool) : Session ρ :=
  if a.closing || ended then a else { a with stopRequested := true }

/-- The pump has read another part of a frame. -/
def filled (a : Session ρ) (data : List UInt8) : Session ρ :=
  { a with outboundPump := if data.length < frameBytes format then .filling data else .writing data }

/-- A read of the outbound pump. -/
def fill (a : Session ρ) (data : List UInt8) : Option (Session ρ) :=
  match ring.read a.outbound (frameBytes format - data.length) with
  | ([], _) =>
    -- `io.EOF` after no byte, `io.ErrUnexpectedEOF` after some
    if ring.closed a.outbound then some ({ a with outboundPump := .ended data }.pumpError data.isEmpty) else none
  | (bytes, outbound) => some ({ a with outbound := outbound }.filled format (data ++ bytes))

/-- A turn of the write of the inbound pump. -/
def buffer (a : Session ρ) (remaining : List UInt8) : Option (Session ρ) :=
  if remaining.isEmpty then some { a with inboundPump := .reading }
  else
    match ring.write a.inbound remaining with
    | (0, _) => if ring.closed a.inbound then some ({ a with inboundPump := .ended remaining }.pumpError false) else none
    | (n, inbound) => some { a with inbound := inbound, inboundPump := .buffering (remaining.drop n) }

/-- `Read` or a step of `discardAvailable` has taken out the bytes. -/
def take (a : Session ρ) (caller : Option ℕ) (bytes : List UInt8) (inbound : ρ) : Session ρ :=
  { a with inbound := inbound, taken := a.taken ++ [(caller, bytes)] }

/-- A `TryRead` of `discardAvailable`. -/
def clearNext (a : Session ρ) (i : ℕ) (c : Clear) : Session ρ :=
  match ring.read a.inbound c.want with
  | ([], _) => { a with clears := a.clears.set i { c with returned := true } }
  | (bytes, inbound) =>
    let cleared := c.cleared + bytes.length
    { a.take (some i) bytes inbound with
      clears := a.clears.set i { c with cleared := cleared, returned := decide (c.remaining ≤ cleared) } }

/-- One step of a session, with the wires out of it and into it. -/
def step (a : Session ρ) (out inc : Wire (List UInt8)) :
    SessionAction → Option (Session ρ × Wire (List UInt8) × Wire (List UInt8))
  | .bind =>
    match a.outboundPump, a.inboundPump, format.FrameBytes with
    | .unbound, .unbound, .ok _ =>
      if a.closing then none
      else some ({ a with outboundPump := .filling [], inboundPump := .reading }, out, inc)
    | _, _, _ => none
  | .write data =>
    match ring.write a.outbound data with
    | (0, _) => none
    | (n, outbound) => some ({ a with outbound := outbound, written := a.written ++ data.take n }, out, inc)
  | .read n =>
    match ring.read a.inbound n with
    | ([], _) => none
    | (bytes, inbound) => some (a.take none bytes inbound, out, inc)
  | .clear =>
    let remaining := (ring.items a.inbound).length
    some ({ a with clears := a.clears ++ [⟨remaining, 0, remaining == 0⟩] }, out, inc)
  | .clearNext i =>
    match a.clears[i]? with
    | some c => if c.returned then none else some (a.clearNext ring i c, out, inc)
    | none => none
  | .fill =>
    match a.outboundPump with
    | .filling data => (a.fill ring format data).map fun a => (a, out, inc)
    | _ => none
  | .writeFrame =>
    match a.outboundPump with
    | .writing frame => (out.send frame).map fun out => ({ a with outboundPump := .filling [] }, out, inc)
    | _ => none
  | .writeFails closed =>
    match a.outboundPump with
    | .writing frame => some ({ a with outboundPump := .ended frame }.pumpError closed, out, inc)
    | _ => none
  | .readFrame =>
    match a.inboundPump with
    | .reading => inc.recv.map fun r => ({ a with inboundPump := .buffering r.1 }, out, r.2)
    | _ => none
  | .readFails ended =>
    match a.inboundPump with
    | .reading => some ({ a with inboundPump := .ended [] }.pumpError ended, out, inc)
    | _ => none
  | .buffer =>
    match a.inboundPump with
    | .buffering remaining => (a.buffer ring remaining).map fun a => (a, out, inc)
    | _ => none
  | .shutdown => some ({ a with closing := true }, out, inc)
  | .closeAudio =>
    if a.closing then some ({ a with inbound := ring.close a.inbound, outbound := ring.close a.outbound }, out, inc)
    else none

end Session

/-- One step of the two sessions. -/
def step (s : State ρ) : Action → Option (State ρ)
  | .session side action =>
    ((s.session side).step ring format (s.wire side) (s.wire !side) action).map fun r =>
      { session := Function.update s.session side r.1
        wire := Function.update (Function.update s.wire side r.2.1) (!side) r.2.2 }
  | .closeWire side => some { s with wire := Function.update s.wire side (s.wire side).close }
  | .discardWire side => some { s with wire := Function.update s.wire side (s.wire side).discard }

/-- `newAudioStream` in both sessions, over a new channel. -/
def initial : State ρ where
  session _ := ⟨ring.new, ring.new, .unbound, .unbound, false, false, [], [], []⟩
  wire _ := .empty

def machine : Machine (State ρ) Action where
  Start s := s = initial ring
  step := step ring format

/-! ## What is asked of a run -/

/-- The bytes that a handler has taken out. -/
def Session.received (a : Session ρ) : List UInt8 := a.taken.flatMap Prod.snd

/-- The bytes that a call of `ClearReadBuffer` has taken out. -/
def Session.clearedBy (a : Session ρ) (i : ℕ) : List UInt8 :=
  (a.taken.filter fun entry => entry.1 = some i).flatMap Prod.snd

/-- All is at rest between two sessions: the channel and the buffers are open, the receiving handler has taken
everything out, and no pump can take a step. -/
structure AtRest (a b : Session ρ) (out back : Wire (List UInt8)) : Prop where
  wire_open : out.closed = false
  inbound_open : ring.closed b.inbound = false
  inbound_empty : ring.items b.inbound = []
  sender_runs : ∀ dropped, a.outboundPump ≠ .unbound ∧ a.outboundPump ≠ .ended dropped
  receiver_runs : ∀ dropped, b.inboundPump ≠ .unbound ∧ b.inboundPump ≠ .ended dropped
  sender_rests : a.step ring format out back .fill = none ∧ a.step ring format out back .writeFrame = none
  receiver_rests : b.step ring format back out .readFrame = none ∧ b.step ring format back out .buffer = none

/-- What one session has sent and the other has received. -/
structure Sound (a b : Session ρ) (out back : Wire (List UInt8)) : Prop where
  /-- Every byte is in one place, and they are in order. -/
  conserved : a.written = b.received ++ ring.items b.inbound ++ b.inboundPump.held ++ out.pending.flatten ++
    out.lost.flatten ++ a.outboundPump.held ++ ring.items a.outbound
  /-- Every frame is full. -/
  frames : ∀ frame ∈ out.sent, frame.length = frameBytes format
  held : a.outboundPump.held.length ≤ frameBytes format
  /-- A call that clears the buffer counts what it takes out, which is no more than there was. -/
  clears : ∀ i c, b.clears[i]? = some c → c.cleared = (b.clearedBy i).length ∧ c.cleared ≤ c.remaining
  /-- At rest every full frame of what was written has arrived. -/
  delivered : AtRest ring format a b out back →
    b.received = a.written.take (a.written.length / frameBytes format * frameBytes format)

end Rtvbp.Go.AudioStream
