import Rtvbp.TypeScript.WebSocket
import Rtvbp.TypeScript.Session.Dispatch
import Rtvbp.TypeScript.Session.Pending

/-!
# The control path of a session over its WebSocket transport

The session over its transport (`sdk/typescript/src/websocket.ts`) put together with what its control
reader does with a message (`#readControl` of `sdk/typescript/src/session.ts`), the bounded dispatch queue
with its dispatcher, and the pending requests. A message that the control queue hands to its waiting reader
is under way until the reader continues; then a response completes its request, and a request or an event
goes to the dispatch queue, at which the reader waits when it is full. The start of the `finally` block of
the supervisor closes the dispatch queue and fails the pending requests in the same turn.
-/

namespace Rtvbp.TypeScript.Control

open Rtvbp.Lib Rtvbp.Pending
open Rtvbp.TypeScript.WebSocket (Thrown)
open Rtvbp.TypeScript.Dispatch (Call Dispatcher)

variable {ι ρ μ : Type}

/-- A decoded message. -/
inductive Frame (ι ρ : Type) where
  | response (id : ι) (response : ρ)
  | call (call : Call)

/-- A session with its transport; `ι` are the requests, `ρ` the responses and `μ` the messages. -/
structure State (ι ρ μ : Type) where
  ws : WebSocket.State μ
  requests : ι → Pending.Call ρ Thrown
  /-- `#failPending` has run. -/
  swept : Bool
  /-- The message that the reader has received and not handled. -/
  held : Option μ
  /-- The reader waits in `push` at the full dispatch queue. -/
  pushing : Bool
  dispatch : AsyncQueue Call
  dispatcher : Dispatcher
  /-- The text messages that the control queue has admitted, each with whether it answers a request. -/
  delivered : List (μ × Bool)
  /-- The text messages that the reader has handled, each with whether it completes a request. -/
  handled : List (μ × Bool)

/-- What can happen next. -/
inductive Action (ι ρ μ : Type) where
  /-- A step of the transport, of its workers or of the supervisor. -/
  | ws (action : WebSocket.Action μ)
  /-- The reader continues with the message that it has received. -/
  | handle
  /-- The dispatcher asks for the next frame, and its handler returns. -/
  | shift
  | finish
  /-- A step of a request. -/
  | request (action : Pending.Action ι ρ Thrown)

/-- `SessionError("closed", "session is closed")`. -/
def sessionClosed : Thrown := .session "closed" "session is closed"

namespace State

variable (s : State ι ρ μ)

/-- The session as the requests see it. -/
def pending : Pending.State ι ρ Thrown := ⟨s.ws.session.life, s.swept, s.requests⟩

/-- The message is a response to a request that is in the map. -/
def answers (decode : μ → Option (Frame ι ρ)) (m : μ) : Bool :=
  match decode m with
  | some (.response id _) => (s.requests id).pending
  | _ => false

/-- A text message arrives: a waiting reader receives it at once. -/
def arrive (decode : μ → Option (Frame ι ρ)) (m : μ) (ws : WebSocket.State μ) : State ι ρ μ :=
  if (s.ws.controls.arrive m).isSome then
    { s with
      ws
      held := if s.ws.controls.queue.readers = 0 then s.held else some m
      delivered := s.delivered ++ [(m, s.answers decode m)] }
  else { s with ws }

/-- The synchronous start of the `finally` block: `#dispatch.close()` and `#failPending`. -/
def finalize : State ι ρ μ :=
  if s.ws.session.pc = .closingAudio ∧ s.swept = false then
    { s with
      swept := true
      dispatch := s.dispatch.close
      requests := fun id =>
        (s.requests id).complete (.shutdown (s.ws.session.life.stopCause.getD sessionClosed)) }
  else s

/-- The reader pushes a request or an event to the dispatch queue. -/
def pushCall (call : Call) : State ι ρ μ :=
  if s.ws.aborted then { s with ws.controls.reader := .over }
  else
    match s.dispatch.push call with
    | none => { s with ws.controls.reader := .over }
    | some (q, .handed) => { s with dispatch := q, dispatcher := .handling }
    | some (q, .stored) => { s with dispatch := q }
    | some (q, .waiting) => { s with dispatch := q, pushing := true }

/-- One turn of the loop in `#readControl`, from `decode` on. -/
def handleMessage [DecidableEq ι] (decode : μ → Option (Frame ι ρ)) (m : μ) : State ι ρ μ :=
  let t := { s with held := none, handled := s.handled ++ [(m, s.answers decode m)] }
  match decode m with
  | none => t
  | some (.response id response) =>
    { t with requests := Function.update s.requests id ((s.requests id).complete (.response response)) }
  | some (.call call) => t.pushCall call

/-- The dispatcher takes the next frame, or waits for it. -/
def shiftCall : Option (State ι ρ μ) :=
  match s.dispatch.shift with
  | none => none
  | some (q, .waiting) => some { s with dispatch := q, dispatcher := .shifting }
  | some (q, .value _ admitsWriter) =>
    some { s with dispatch := q, dispatcher := .handling, pushing := s.pushing && !admitsWriter }

/-- A step of the transport, of its workers or of the supervisor. The reader calls `shift` when it has
handled the message before and its frame is in the dispatch queue. -/
def wsStep (config : Supervise.Config) (decode : μ → Option (Frame ι ρ)) (a : WebSocket.Action μ) :
    Option (State ι ρ μ) :=
  match a with
  | .text m => (WebSocket.step config s.ws a).map (s.arrive decode m)
  | .readControl =>
    if s.held.isNone ∧ s.pushing = false then
      (WebSocket.step config s.ws a).map fun ws =>
        { s with ws, held := s.ws.controls.queue.items.head? }
    else none
  | _ => (WebSocket.step config s.ws a).map fun ws => { s with ws }.finalize

end State

/-- The step is one of a call of `request`; the others are made by the reader and the supervisor. -/
def isRequest : Pending.Action ι ρ Thrown → Bool
  | .reject _ | .call _ _ | .sendSettles _ _ | .catch_ _ | .cancel _ _ | .settle _ => true
  | _ => false

variable [DecidableEq ι]

/-- One step of the session. -/
def step (config : Supervise.Config) (decode : μ → Option (Frame ι ρ)) (s : State ι ρ μ) :
    Action ι ρ μ → Option (State ι ρ μ)
  | .ws a => s.wsStep config decode a
  | .handle => s.held.map (s.handleMessage decode)
  | .shift => if s.dispatcher = .idle ∧ s.ws.aborted = false then s.shiftCall else none
  | .finish => if s.dispatcher = .handling then some { s with dispatcher := .idle } else none
  | .request a =>
    if isRequest a then
      (Pending.step sessionClosed s.pending a).map fun p => { s with requests := p.calls }
    else none

/-- A new session on an open transport. -/
def initial (capacity : Nat) (h : 0 < capacity) (dispatchCapacity : Nat) (hd : 0 < dispatchCapacity) :
    State ι ρ μ where
  ws := WebSocket.initial capacity h
  requests := fun _ => .new
  swept := false
  held := none
  pushing := false
  dispatch := .new dispatchCapacity hd
  dispatcher := .idle
  delivered := []
  handled := []

/-- The session as a machine, for any positive capacities of the queues. -/
def machine (config : Supervise.Config) (decode : μ → Option (Frame ι ρ)) :
    Machine (State ι ρ μ) (Action ι ρ μ) where
  Start s := ∃ capacity h dispatchCapacity hd, s = initial capacity h dispatchCapacity hd
  step := step config decode

/-! ## What is asked of a run -/

/-- Nobody on this side stops the session: no caller or handler, not the parent signal, and no start that
fails. -/
def NoLocalStop (config : Supervise.Config) (s : State ι ρ μ) : Action ι ρ μ → Prop
  | .ws (.session (.stop _ _)) | .ws (.session (.factoryRejects _)) => False
  | .ws (.session (.parentAbort _)) | .ws (.session (.beginRejects _)) => False
  | .ws (.session (.start error)) => error = none ∧ s.ws.session.misconfigured config = false
  | _ => True

/-- The report is that of the control reader. -/
def ofReader : WebSocket.Report → Bool
  | .worker code _ => code == "control_read"
  | _ => false

/-- No other report reaches the session before the control reader has seen the end of its queue: neither
one of the audio stream nor one of a handler that cannot respond or of the keepalive monitor. -/
def ReaderFirst (s : State ι ρ μ) : Action ι ρ μ → Prop
  | .ws .turn =>
    s.ws.controls.reader = .over ∨ ∀ n ∈ s.ws.notices, n.turns = 0 → ofReader n.report = true
  | _ => True

/-- Every response that the control queue admitted reaches its request before the pending requests are
failed. -/
structure Drained (decode : μ → Option (Frame ι ρ)) (s : State ι ρ μ) : Prop where
  /-- The reader has handled every admitted message before `#failPending`. -/
  handled : s.swept = true → s.handled.map Prod.fst = s.delivered.map Prod.fst
  /-- A response that finds its request in the map completes it. -/
  completed : ∀ m id response, (m, true) ∈ s.handled → decode m = some (.response id response) →
    (s.requests id).completions = [.response response]
  /-- The shutdown does not reject a request that was in the map when a response to it was admitted. -/
  kept : ∀ m id response cause, (m, true) ∈ s.delivered → decode m = some (.response id response) →
    .shutdown cause ∉ (s.requests id).completions

instance (config : Supervise.Config) (s : State ι ρ μ) : DecidablePred (NoLocalStop config s) := fun a => by
  unfold NoLocalStop
  split <;> infer_instance

instance (s : State ι ρ μ) : DecidablePred (ReaderFirst s) := fun a => by
  unfold ReaderFirst
  split <;> infer_instance

end Rtvbp.TypeScript.Control
