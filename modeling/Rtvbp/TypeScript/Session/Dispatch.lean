import Rtvbp.Lib.Machine
import Rtvbp.TypeScript.AsyncQueue

/-!
# The reader and the dispatcher

`#readControl`, `#dispatchControl` and the requests of `sdk/typescript/src/session.ts` as a machine. The
reader takes the frames of the control stream in order: a response completes its pending request, and a
request or an event is pushed to the bounded dispatch queue, at which the reader waits when it is full.
The dispatcher runs one handler at a time; a handler may issue requests and wait for them.
-/

namespace Rtvbp.TypeScript.Dispatch

open Rtvbp.Lib

/-- The number of a request; `#nextId` counts. -/
abbrev Id := Nat

/-- A frame for the dispatcher. -/
inductive Call where
  | request (id method : String)
  | event (id name : String)
  deriving DecidableEq

/-- A frame of the control stream, as far as the reader distinguishes them. -/
inductive Frame where
  | response (correlationId : Id)
  | call (call : Call)
  | undecodable
  deriving DecidableEq

/-- The state of `#readControl`. -/
inductive Reader where
  /-- At `control.receive`. -/
  | receiving
  /-- Waiting in `push` at the full dispatch queue. -/
  | pushing
  deriving DecidableEq

/-- The state of `#dispatchControl`. -/
inductive Dispatcher where
  /-- Between two frames. -/
  | idle
  /-- Waiting in `shift` at the empty dispatch queue. -/
  | shifting
  /-- A handler is running. -/
  | handling
  /-- The handler waits for a request. -/
  | awaiting (id : Id)
  deriving DecidableEq

/-- The control path of a running session. -/
structure State where
  /-- The frames that the transport has delivered and the reader has not received. -/
  stream : List Frame
  reader : Reader
  dispatch : AsyncQueue Call
  dispatcher : Dispatcher
  /-- The registered requests. -/
  pending : List Id
  /-- The requests that were completed by their response. -/
  answered : List Id
  sequence : Nat
  stopped : Bool

/-- What can happen next. -/
inductive Action where
  /-- The transport delivers a frame. -/
  | deliver (frame : Frame)
  /-- The reader receives the first frame of the stream. -/
  | receive
  /-- The dispatcher asks for the next frame. -/
  | shift
  /-- Anybody calls `Session.request`. -/
  | request
  /-- The handler waits for a request, continues when it is settled, and returns. -/
  | await (id : Id)
  | resume
  | finish
  /-- A request is cancelled: its signal is aborted or it could not be sent. -/
  | cancel (id : Id)
  /-- A request times out. -/
  | timeout (id : Id)
  /-- The session is stopped. -/
  | stop

namespace State

variable (s : State)

/-- `#completePending`. -/
def completePending (id : Id) : State :=
  if id ∈ s.pending then
    { s with pending := s.pending.filter (· ≠ id), answered := id :: s.answered }
  else s

/-- `#cancelPending`. -/
def cancelPending (id : Id) : State := { s with pending := s.pending.filter (· ≠ id) }

/-- The reader pushes a request or an event to the dispatch queue. -/
def pushCall (call : Call) : Option State :=
  match s.dispatch.push call with
  | none => none
  | some (q, .handed) => some { s with dispatch := q, dispatcher := .handling }
  | some (q, .stored) => some { s with dispatch := q }
  | some (q, .waiting) => some { s with dispatch := q, reader := .pushing }

/-- What the reader does with a frame. -/
def receiveFrame : Frame → Option State
  | .undecodable => some s
  | .response id => some (s.completePending id)
  | .call call => s.pushCall call

/-- The dispatcher takes the next frame, or waits for it. -/
def shiftCall : Option State :=
  match s.dispatch.shift with
  | none => none
  | some (q, .waiting) => some { s with dispatch := q, dispatcher := .shifting }
  | some (q, .value _ admitsWriter) =>
    some
      { s with
        dispatch := q
        dispatcher := .handling
        reader := if admitsWriter then .receiving else s.reader }

end State

/-- One step of a running session; a stopped session makes no more steps here. -/
def step (s : State) (a : Action) : Option State :=
  if s.stopped then none
  else
    match a with
    | .deliver frame => some { s with stream := s.stream ++ [frame] }
    | .receive =>
      match s.reader, s.stream with
      | .receiving, frame :: rest => ({ s with stream := rest } : State).receiveFrame frame
      | _, _ => none
    | .shift => if s.dispatcher = .idle then s.shiftCall else none
    | .request => some { s with sequence := s.sequence + 1, pending := s.sequence :: s.pending }
    | .await id =>
      if s.dispatcher = .handling ∧ id < s.sequence then some { s with dispatcher := .awaiting id }
      else none
    | .resume =>
      match s.dispatcher with
      | .awaiting id => if id ∈ s.pending then none else some { s with dispatcher := .handling }
      | _ => none
    | .finish => if s.dispatcher = .handling then some { s with dispatcher := .idle } else none
    | .cancel id => some (s.cancelPending id)
    | .timeout id => some (s.cancelPending id)
    | .stop => some { s with stopped := true, pending := [] }

/-- The session when its workers start. -/
def initial (capacity : Nat) (h : 0 < capacity) : State where
  stream := []
  reader := .receiving
  dispatch := .new capacity h
  dispatcher := .idle
  pending := []
  answered := []
  sequence := 0
  stopped := false

/-- The runs of sessions with any positive `dispatchCapacity`. -/
def machine : Machine State Action where
  Start s := ∃ capacity h, s = initial capacity h
  step := step

/-- A step that is neither a timeout nor a stop. -/
def Action.proceeds : Action → Prop
  | .timeout _ => False
  | .stop => False
  | _ => True

/-- The request can still be completed by its response, without a timeout or a stop. -/
def State.completable (s : State) (id : Id) : Prop :=
  ∃ t, machine.Steps (fun _ a => a.proceeds) s t ∧ id ∈ t.answered

/-- The number of requests and events before the response to a request. -/
def callsBefore (id : Id) : List Frame → Nat
  | [] => 0
  | .response other :: rest => if other = id then 0 else callsBefore id rest
  | .call _ :: rest => callsBefore id rest + 1
  | .undecodable :: rest => callsBefore id rest

/-- The requests and events that have to fit into the dispatch queue before the reader comes to the
response: those in the queue, the one the reader is waiting with, and those in the stream. -/
def State.load (s : State) (id : Id) : Nat :=
  s.dispatch.items.length + s.dispatch.writers.length + callsBefore id s.stream

end Rtvbp.TypeScript.Dispatch
