import Rtvbp.Lib.Machine
import Rtvbp.Lib.Mailbox
import Rtvbp.Lib.Notify

/-!
# The in-process transport pairs

The pair of `sdk/go/transport/memory/memory.go` and that of `sdk/rust/src/transport/memory.rs`. Both keep one media
channel under a mutex: either side opens it, once, and the acceptor of the other side takes it. They differ in how an
acceptor waits: in Go for a token in a channel of one slot, in Rust for a `Notify`. The mailboxes are ordered channels
that still hand out what they hold when they are closed.

In Go one call of `AcceptMedia` at a time is made on a side, as sessions do; in Rust there may be any number of tasks.
-/

namespace Rtvbp.MemoryPair

open Rtvbp.Lib

/-- One end of the media channel. -/
structure MediaChannel (φ : Type) where
  id : String
  format : φ
  side : Bool

/-- The other end. -/
def MediaChannel.peer {φ : Type} (channel : MediaChannel φ) : MediaChannel φ :=
  { channel with side := !channel.side }

/-- A step of `close`: a mailbox of the control channel, the acceptors of a side, a mailbox of the media channel. -/
inductive CloseStep where
  | control (side : Bool)
  | signal (side : Bool)
  | media (side : Bool)
  deriving DecidableEq

/-- What `close` does after it has marked the pair, with the media channel or without. -/
def closeSteps (media : Bool) : List CloseStep :=
  [.control false, .control true, .signal false, .signal true] ++ if media then [.media false, .media true] else []

/-- The part of the pair that is the same in both languages, with the control messages `γ` and the media frames `δ`. The
wires of a side are those out of it. -/
structure Pair (φ γ δ : Type) where
  mediaEnabled : Bool
  closed : Bool
  mediaOpened : Bool
  pendingMedia : Bool → Option (MediaChannel φ)
  /-- The steps that `close` has yet to make. -/
  closing : Option (List CloseStep)
  control : Bool → Wire γ
  media : Bool → Wire δ
  /-- The ends that were returned by `OpenMedia` and by `AcceptMedia`. -/
  opened : List (MediaChannel φ)
  accepted : List (MediaChannel φ)

variable {φ γ δ ι : Type}

/-- A pair before anything has happened. -/
def Pair.new (mediaEnabled : Bool) : Pair φ γ δ where
  mediaEnabled := mediaEnabled
  closed := false
  mediaOpened := false
  pendingMedia _ := none
  closing := none
  control _ := .empty
  media _ := .empty
  opened := []
  accepted := []

/-- `openMedia`, if it succeeds. -/
def Pair.openMedia (p : Pair φ γ δ) (side : Bool) (id : String) (format : φ) : Option (Pair φ γ δ) :=
  if p.mediaEnabled && !p.closed && !p.mediaOpened then
    some { p with
      mediaOpened := true
      pendingMedia := Function.update p.pendingMedia (!side) (some ⟨id, format, !side⟩)
      opened := p.opened ++ [⟨id, format, side⟩] }
  else none

/-- An acceptor takes the channel. -/
def Pair.take (p : Pair φ γ δ) (side : Bool) (channel : MediaChannel φ) : Pair φ γ δ :=
  { p with pendingMedia := Function.update p.pendingMedia side none, accepted := p.accepted ++ [channel] }

/-- The side holds its end of the media channel. -/
def Pair.holds (p : Pair φ γ δ) (side : Bool) : Bool := (p.opened ++ p.accepted).any fun channel => channel.side = side

/-- What can happen to a pair whatever the acceptors do. -/
inductive PairAction (γ δ : Type) where
  /-- `close` marks the pair. -/
  | mark
  | send (side : Bool) (message : γ)
  | recv (side : Bool)
  | writeFrame (side : Bool) (frame : δ)
  | readFrame (side : Bool)
  /-- `Close` of the media channel closes a mailbox. -/
  | closeMedia (side : Bool)

/-- One step that the acceptors have no part in. -/
def Pair.act (p : Pair φ γ δ) : PairAction γ δ → Option (Pair φ γ δ)
  | .mark =>
    if p.closing.isNone then some { p with closed := true, closing := some (closeSteps p.mediaOpened) } else none
  | .send side message =>
    ((p.control side).send message).map fun wire => { p with control := Function.update p.control side wire }
  | .recv side =>
    (p.control !side).recv.map fun r => { p with control := Function.update p.control (!side) r.2 }
  | .writeFrame side frame =>
    if p.holds side then
      ((p.media side).send frame).map fun wire => { p with media := Function.update p.media side wire }
    else none
  | .readFrame side =>
    if p.holds side then
      (p.media !side).recv.map fun r => { p with media := Function.update p.media (!side) r.2 }
    else none
  | .closeMedia side =>
    if p.mediaOpened then some { p with media := Function.update p.media side (p.media side).close } else none

/-- A step of `close` on the mailboxes. -/
def Pair.closeMailbox (p : Pair φ γ δ) : CloseStep → Pair φ γ δ
  | .control side => { p with control := Function.update p.control side (p.control side).close }
  | .signal _ => p
  | .media side => { p with media := Function.update p.media side (p.media side).close }

/-- `close` has reached the acceptors of the side. -/
def Pair.signalled (p : Pair φ γ δ) (side : Bool) : Bool :=
  match p.closing with
  | some rest => !rest.contains (.signal side)
  | none => false

/-- The steps of `close`: which one is next, and the pair after it. -/
def Pair.closeNext (p : Pair φ γ δ) : Option (CloseStep × Pair φ γ δ) :=
  match p.closing with
  | some (step :: rest) => some (step, { p.closeMailbox step with closing := some rest })
  | _ => none

/-! ## Go -/

namespace Go

/-- A call of `AcceptMedia`. -/
inductive Acceptor (φ : Type) where
  | idle
  /-- In the loop, before the look at the pair. -/
  | looking
  /-- In the select. -/
  | parked
  | returned (result : Option (MediaChannel φ))

/-- A pair, the tokens in `mediaReady`, and the calls of `AcceptMedia` of the two sides. -/
structure State (φ γ δ : Type) where
  pair : Pair φ γ δ
  ready : Bool → Bool
  acceptor : Bool → Acceptor φ

inductive Action (φ γ δ : Type) where
  | pair (action : PairAction γ δ)
  | open (side : Bool) (id : String) (format : φ)
  | closeStep
  | accept (side : Bool)
  | look (side : Bool)
  | wake (side : Bool)
  /-- The context of the call is done. -/
  | cancel (side : Bool)

def State.setAcceptor (s : State φ γ δ) (side : Bool) (acceptor : Acceptor φ) : State φ γ δ :=
  { s with acceptor := Function.update s.acceptor side acceptor }

/-- `signal`. -/
def State.signal (s : State φ γ δ) (side : Bool) : State φ γ δ := { s with ready := Function.update s.ready side true }

/-- The look of an acceptor at the pair. -/
def State.look (s : State φ γ δ) (side : Bool) : State φ γ δ :=
  if s.pair.closed then s.setAcceptor side (.returned none)
  else
    match s.pair.pendingMedia side with
    | some channel => { s with pair := s.pair.take side channel }.setAcceptor side (.returned (some channel))
    | none => s.setAcceptor side .parked

/-- What a step of `close` does beside the mailboxes. -/
def State.closed (s : State φ γ δ) : CloseStep → State φ γ δ
  | .signal side => s.signal side
  | _ => s

def step (s : State φ γ δ) : Action φ γ δ → Option (State φ γ δ)
  | .pair action => (s.pair.act action).map fun pair => { s with pair := pair }
  | .open side id format => (s.pair.openMedia side id format).map fun pair => { s with pair := pair }.signal !side
  | .closeStep => s.pair.closeNext.map fun r => { s with pair := r.2 }.closed r.1
  | .accept side =>
    match s.acceptor side with
    | .idle | .returned _ =>
      some (s.setAcceptor side (if s.pair.mediaEnabled then .looking else .returned none))
    | _ => none
  | .look side =>
    match s.acceptor side with
    | .looking => some (s.look side)
    | _ => none
  | .wake side =>
    match s.acceptor side, s.ready side with
    | .parked, true =>
      some ({ s with ready := Function.update s.ready side false }.setAcceptor side .looking)
    | _, _ => none
  | .cancel side =>
    match s.acceptor side with
    | .looking | .parked => some (s.setAcceptor side (.returned none))
    | _ => none

/-- `NewPair`. -/
def initial (mediaEnabled : Bool) : State φ γ δ where
  pair := .new mediaEnabled
  ready _ := false
  acceptor _ := .idle

def machine (mediaEnabled : Bool) : Machine (State φ γ δ) (Action φ γ δ) where
  Start s := s = initial mediaEnabled
  step := step

end Go

/-! ## Rust -/

namespace Rust

/-- A call of `accept_media`. -/
inductive Acceptor (φ : Type) where
  | idle
  /-- `notified` was called, and next is the look at the pair. -/
  | entered (generation : Nat)
  /-- There was nothing, and next is the first poll of the future. -/
  | looked (generation : Nat)
  | waiting
  /-- Woken by a notification of one, or by one of all. -/
  | notified (one : Bool)
  | returned (result : Option (MediaChannel φ))

/-- A pair, `media_ready`, and the calls of `accept_media` of the two sides. -/
structure State (φ γ δ ι : Type) where
  pair : Pair φ γ δ
  mediaReady : Bool → Notify ι
  acceptor : Bool → ι → Acceptor φ

inductive Action (φ γ δ ι : Type) where
  | pair (action : PairAction γ δ)
  | open (side : Bool) (id : String) (format : φ)
  | closeStep
  | accept (side : Bool) (i : ι)
  | look (side : Bool) (i : ι)
  | poll (side : Bool) (i : ι)
  | resume (side : Bool) (i : ι)
  /-- The call is dropped where it awaits. -/
  | drop (side : Bool) (i : ι)

variable [DecidableEq ι]

def State.setAcceptor (s : State φ γ δ ι) (side : Bool) (i : ι) (acceptor : Acceptor φ) : State φ γ δ ι :=
  { s with acceptor := Function.update s.acceptor side (Function.update (s.acceptor side) i acceptor) }

def State.setReady (s : State φ γ δ ι) (side : Bool) (ready : Notify ι) : State φ γ δ ι :=
  { s with mediaReady := Function.update s.mediaReady side ready }

/-- `notify_one`. -/
def State.notifyOne (s : State φ γ δ ι) (side : Bool) : State φ γ δ ι :=
  let (woken, ready) := (s.mediaReady side).notifyOne
  match woken with
  | some i => (s.setReady side ready).setAcceptor side i (.notified true)
  | none => s.setReady side ready

/-- `notify_waiters`. -/
def State.notifyWaiters (s : State φ γ δ ι) (side : Bool) : State φ γ δ ι :=
  { s with
    mediaReady := Function.update s.mediaReady side (s.mediaReady side).notifyWaiters
    acceptor := Function.update s.acceptor side fun i =>
      if i ∈ (s.mediaReady side).waiters then .notified false else s.acceptor side i }

/-- The look of an acceptor at the pair. -/
def State.look (s : State φ γ δ ι) (side : Bool) (i : ι) (generation : Nat) : State φ γ δ ι :=
  if s.pair.closed then s.setAcceptor side i (.returned none)
  else
    match s.pair.pendingMedia side with
    | some channel => { s with pair := s.pair.take side channel }.setAcceptor side i (.returned (some channel))
    | none => s.setAcceptor side i (.looked generation)

/-- A new turn of the loop: `notified` is called. -/
def State.enter (s : State φ γ δ ι) (side : Bool) (i : ι) : State φ γ δ ι :=
  s.setAcceptor side i (.entered (s.mediaReady side).generation)

/-- The first poll: a permit or a notification of all since `notified` completes the future. -/
def State.poll (s : State φ γ δ ι) (side : Bool) (i : ι) (generation : Nat) : Option (State φ γ δ ι) :=
  match (s.mediaReady side).takePermit with
  | some ready => some ((s.setReady side ready).enter side i)
  | none =>
    if generation ≠ (s.mediaReady side).generation then some (s.enter side i)
    else ((s.mediaReady side).register i).map fun ready => (s.setReady side ready).setAcceptor side i .waiting

/-- What a step of `close` does beside the mailboxes. -/
def State.closed (s : State φ γ δ ι) : CloseStep → State φ γ δ ι
  | .signal side => s.notifyWaiters side
  | _ => s

def step (s : State φ γ δ ι) : Action φ γ δ ι → Option (State φ γ δ ι)
  | .pair action => (s.pair.act action).map fun pair => { s with pair := pair }
  | .open side id format => (s.pair.openMedia side id format).map fun pair => { s with pair := pair }.notifyOne !side
  | .closeStep => s.pair.closeNext.map fun r => { s with pair := r.2 }.closed r.1
  | .accept side i =>
    match s.acceptor side i with
    | .idle | .returned _ =>
      some (if s.pair.mediaEnabled then s.enter side i else s.setAcceptor side i (.returned none))
    | _ => none
  | .look side i =>
    match s.acceptor side i with
    | .entered generation => some (s.look side i generation)
    | _ => none
  | .poll side i =>
    match s.acceptor side i with
    | .looked generation => s.poll side i generation
    | _ => none
  | .resume side i =>
    match s.acceptor side i with
    | .notified _ => some (s.enter side i)
    | _ => none
  | .drop side i =>
    match s.acceptor side i with
    | .waiting => some ((s.setReady side ((s.mediaReady side).forget i)).setAcceptor side i .idle)
    | .notified true => some ((s.setAcceptor side i .idle).notifyOne side)
    | .notified false => some (s.setAcceptor side i .idle)
    | _ => none

/-- `MemoryTransport::pair`. -/
def initial (mediaEnabled : Bool) : State φ γ δ ι where
  pair := .new mediaEnabled
  mediaReady _ := .new
  acceptor _ _ := .idle

def machine (mediaEnabled : Bool) : Machine (State φ γ δ ι) (Action φ γ δ ι) where
  Start s := s = initial mediaEnabled
  step := step

/-- The call takes no step by itself: it has not been made, waits, or has returned. -/
def Acceptor.resting : Acceptor φ → Bool
  | .idle | .waiting | .returned _ => true
  | _ => false

end Rust

/-! ## What is asked of a run -/

/-- What holds of the pair itself: the media channel is opened once, and its other end is taken at most once, by the
other side; what is sent is received or under way; and when `close` is through, everything is closed. -/
structure Pair.Sound (p : Pair φ γ δ) : Prop where
  once : (p.opened = [] ∧ p.accepted = []) ∨
    ∃ channel, p.opened = [channel] ∧ (p.accepted = [] ∨ p.accepted = [channel.peer])
  offered : ∀ side channel, p.pendingMedia side = some channel →
    channel.side = side ∧ p.opened = [channel.peer] ∧ p.accepted = []
  control_kept : ∀ side, (p.control side).sent = (p.control side).received ++ (p.control side).pending
  media_kept : ∀ side, (p.media side).sent = (p.media side).received ++ (p.media side).pending
  closed : p.closing = some [] → p.closed = true ∧ (∀ side, (p.control side).closed = true) ∧
    (p.opened ≠ [] → ∀ side, (p.media side).closed = true)

end Rtvbp.MemoryPair
