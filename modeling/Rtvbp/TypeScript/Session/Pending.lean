import Rtvbp.Lib.Machine
import Rtvbp.Pending.Contract
import Rtvbp.TypeScript.Session.Lifecycle

/-!
# Pending requests of the TypeScript session

`Session.request` of `sdk/typescript/src/session.ts` for any number of concurrent calls, with
`#completePending`, `#cancelPending` and `#failPending`. Up to the promise of `control.send` a call runs
synchronously, so that registering the request, the look at the abort signal in `#sendFrame` and the
encoding are one step. The ids that `#nextId` generates are distinct, and the entry of the map for an id
is kept with its call.
-/

namespace Rtvbp.TypeScript.Pending

open Rtvbp.Lib Rtvbp.Pending

/-- The program counter of a call of `request`. -/
inductive Pc (ρ ε : Type) where
  | idle
  /-- Waiting for `control.send`. -/
  | sending
  /-- `#sendFrame` has thrown; next is the `catch` block. -/
  | failed (error : ε)
  /-- Waiting for the result. -/
  | awaiting
  /-- `request` has thrown before it registered the request. -/
  | refused
  /-- The promise of `request` is settled. -/
  | returned (completion : Completion ρ ε)
  deriving DecidableEq

/-- A call, its entry in the map and its result promise. -/
structure Call (ρ ε : Type) where
  pc : Pc ρ ε
  /-- The request is in the map `#pending`. -/
  pending : Bool
  /-- The settled result. -/
  result : Option (Completion ρ ε)
  /-- The completions so far. -/
  completions : List (Completion ρ ε)

/-- A session with its calls. -/
structure State (ι ρ ε : Type) where
  life : Lifecycle ε
  /-- `#failPending` has run. -/
  swept : Bool
  calls : ι → Call ρ ε

/-- What can happen next. -/
inductive Action (ι ρ ε : Type) where
  /-- `request` is called with an aborted signal or without a method. -/
  | reject (id : ι)
  /-- `request` is called; the encoder may reject the frame. -/
  | call (id : ι) (encodeError : Option ε)
  /-- The promise of `control.send` settles. -/
  | sendSettles (id : ι) (error : Option ε)
  /-- The `catch` block of `request`. -/
  | catch_ (id : ι)
  /-- The timer of the request fires, or its signal is aborted. -/
  | cancel (id : ι) (error : ε)
  /-- The result is settled and `request` returns it. -/
  | settle (id : ι)
  /-- The reader completes a response frame. -/
  | response (id : ι) (response : ρ)
  /-- The supervisor starts, becomes active, and ends. -/
  | run
  | activate
  | finish
  /-- `requestStop`. -/
  | requestStop (cause : Option ε) (failed : Bool)
  /-- `#failPending` in the `finally` block of the supervisor. -/
  | failPending (cause : ε)

namespace Call

variable {ρ ε : Type} (c : Call ρ ε)

/-- The request is taken out of the map and its result promise is settled: `#completePending`,
`#cancelPending`, and `#failPending` for one request. -/
def complete (completion : Completion ρ ε) : Call ρ ε :=
  if c.pending then
    { c with pending := false, result := some completion, completions := c.completions ++ [completion] }
  else c

/-- A call that has not been made. -/
def new : Call ρ ε := { pc := .idle, pending := false, result := none, completions := [] }

/-- The synchronous part of `request`; `closedError` is the error "session is closed". -/
def request (closedError : ε) (life : Lifecycle ε) (encodeError : Option ε) : Call ρ ε :=
  if life.state = .connecting ∨ life.state = .active then
    { c with
      pending := true
      pc :=
        if life.aborted then .failed closedError
        else
          match encodeError with
          | some error => .failed error
          | none => .sending }
  else { c with pc := .refused }

end Call

variable {ι ρ ε : Type} [DecidableEq ι] (closedError : ε)

/-- One call is replaced. -/
def State.setCall (s : State ι ρ ε) (id : ι) (c : Call ρ ε) : State ι ρ ε :=
  { s with calls := Function.update s.calls id c }

/-- One step of the session. -/
def step (s : State ι ρ ε) : Action ι ρ ε → Option (State ι ρ ε)
  | .reject id =>
    match (s.calls id).pc with
    | .idle => some (s.setCall id { s.calls id with pc := .refused })
    | _ => none
  | .call id encodeError =>
    match (s.calls id).pc with
    | .idle => some (s.setCall id ((s.calls id).request closedError s.life encodeError))
    | _ => none
  | .sendSettles id error =>
    match (s.calls id).pc, error with
    | .sending, none => some (s.setCall id { s.calls id with pc := .awaiting })
    | .sending, some error => some (s.setCall id { s.calls id with pc := .failed error })
    | _, _ => none
  | .catch_ id =>
    match (s.calls id).pc with
    | .failed error =>
      some (s.setCall id { (s.calls id).complete (.sendError error) with pc := .awaiting })
    | _ => none
  | .cancel id error => some (s.setCall id ((s.calls id).complete (.cancelled error)))
  | .settle id =>
    match (s.calls id).pc, (s.calls id).result with
    | .awaiting, some completion =>
      some (s.setCall id { s.calls id with pc := .returned completion })
    | _, _ => none
  | .response id response => some (s.setCall id ((s.calls id).complete (.response response)))
  | .run =>
    if s.life.state = .inactive then
      some { s with life := { s.life with state := .connecting } }
    else none
  | .activate =>
    if s.life.state = .connecting ∧ s.life.aborted = false then
      some { s with life := { s.life with state := .active } }
    else none
  | .finish => if s.swept then some { s with life := s.life.finish } else none
  | .requestStop cause failed => some { s with life := s.life.requestStop cause failed }
  | .failPending cause =>
    if s.life.aborted ∧ s.swept = false then
      some { s with swept := true, calls := fun id => (s.calls id).complete (.shutdown cause) }
    else none

/-- A session before `run`. -/
def initial : State ι ρ ε where
  life := .new
  swept := false
  calls := fun _ => .new

/-- The runs of the session. -/
def machine : Machine (State ι ρ ε) (Action ι ρ ε) where
  Start s := s = initial
  step := step closedError

/-- The call has registered its request. -/
def Pc.hasRegistered : Pc ρ ε → Bool
  | .idle | .refused => false
  | _ => true

/-- What the caller sees. -/
def Pc.outcome : Pc ρ ε → Outcome ρ ε
  | .refused => .refused
  | .returned completion => .completed completion
  | _ => .running

/-- The `catch` block of the call completes the request. -/
def State.selfCompletes (s : State ι ρ ε) (id : ι) : Prop :=
  ∃ t, step closedError s (.catch_ id) = some t ∧ (t.calls id).completions ≠ []

/-- What can be observed of the session. -/
def State.view (s : State ι ρ ε) : View ι ρ ε where
  registered id := (s.calls id).pc.hasRegistered
  pending id := (s.calls id).pending
  completions id := (s.calls id).completions
  outcome id := (s.calls id).pc.outcome
  swept := s.swept
  selfCompletes id := s.selfCompletes closedError id

end Rtvbp.TypeScript.Pending

/-!
## The promises of a request

`Session.request` of `sdk/typescript/src/session.ts` awaits the promise of `#sendFrame` first and the result
promise afterwards. The machine of the pending requests is refined by what the event loop sees: the promise
of `control.send` settles before the continuation of `request` runs, and a result promise that is rejected
and has no handler when the microtasks have run is reported as an unhandled rejection. The handler of the
result promise is attached when `request` awaits it.
-/

namespace Rtvbp.TypeScript.Request

open Rtvbp.Lib Rtvbp.Pending Rtvbp.TypeScript.Pending

/-- A session with the promises of its calls. -/
structure State (ι ρ ε : Type) where
  session : Pending.State ι ρ ε
  /-- How `control.send` has settled, while `request` has not seen it. -/
  send : ι → Option (Option ε)
  /-- The rejection of the result promise was reported as unhandled. -/
  reported : ι → Bool

/-- What can happen next. -/
inductive Action (ι ρ ε : Type) where
  /-- A step of the session other than `sendSettles`, which is split in two. -/
  | session (action : Pending.Action ι ρ ε)
  /-- The promise of `control.send` settles. -/
  | sendSettles (id : ι) (error : Option ε)
  /-- The continuation of `request` after `#sendFrame`. -/
  | resume (id : ι)
  /-- The microtasks have run, and the result promise is looked at. -/
  | drain (id : ι)

variable {ι ρ ε : Type} [DecidableEq ι]

/-- The completion rejects the result promise; `remoteError` tells the responses with an error. -/
def rejects (remoteError : ρ → Bool) : Completion ρ ε → Bool
  | .response response => remoteError response
  | .cancelled _ | .sendError _ | .shutdown _ => true

/-- A continuation of the call is queued as a microtask. -/
def State.queued (s : State ι ρ ε) (id : ι) : Bool :=
  match (s.session.calls id).pc with
  | .sending => (s.send id).isSome
  | .failed _ => true
  | .awaiting => (s.session.calls id).result.isSome
  | .idle | .refused | .returned _ => false

/-- The result promise is rejected, and `request` does not await it yet. -/
def State.unobserved (remoteError : ρ → Bool) (s : State ι ρ ε) (id : ι) : Bool :=
  match (s.session.calls id).pc, (s.session.calls id).result with
  | .sending, some completion | .failed _, some completion => rejects remoteError completion
  | _, _ => false

/-- One step. -/
def step (remoteError : ρ → Bool) (closedError : ε) (s : State ι ρ ε) :
    Action ι ρ ε → Option (State ι ρ ε)
  | .session (.sendSettles _ _) => none
  | .session action =>
    (Pending.step closedError s.session action).map fun session => { s with session := session }
  | .sendSettles id error =>
    match (s.session.calls id).pc, s.send id with
    | .sending, none => some { s with send := Function.update s.send id (some error) }
    | _, _ => none
  | .resume id =>
    match s.send id with
    | some settled =>
      (Pending.step closedError s.session (.sendSettles id settled)).map fun session =>
        { s with session := session, send := Function.update s.send id none }
    | none => none
  | .drain id =>
    if s.queued id then none
    else
      some { s with
        reported := Function.update s.reported id (s.reported id || s.unobserved remoteError id) }

/-- A session before `run`. -/
def initial : State ι ρ ε where
  session := Pending.initial
  send _ := none
  reported _ := false

/-- The runs of the session. -/
def machine (remoteError : ρ → Bool) (closedError : ε) : Machine (State ι ρ ε) (Action ι ρ ε) where
  Start s := s = initial
  step := step remoteError closedError

/-! ## What is asked of a run -/

/-- A continuation of the call. -/
def Action.continues (id : ι) : Action ι ρ ε → Prop
  | .resume id' | .session (.catch_ id') | .session (.settle id') => id' = id
  | _ => False

/-- The promise of `request` settles by the continuations of the call alone. -/
def State.settlesItself (remoteError : ρ → Bool) (closedError : ε) (s : State ι ρ ε) (id : ι) : Prop :=
  ∃ t, (machine remoteError closedError).Steps (fun _ a => a.continues id) s t ∧
    ∃ completion, (t.session.calls id).pc = .returned completion

/-- As soon as the entry of a request is claimed, its promise settles without waiting for the send; and no
rejection of a result promise is unhandled. -/
def State.Prompt (remoteError : ρ → Bool) (closedError : ε) (s : State ι ρ ε) : Prop :=
  ∀ id, ((s.session.calls id).result ≠ none → s.settlesItself remoteError closedError id) ∧
    s.reported id = false

/-- The entry of the request is in the map, and its send is pending. -/
def State.stalled (s : State ι ρ ε) (id : ι) : Prop :=
  (s.session.calls id).pending = true ∧ (s.session.calls id).pc = .sending ∧ s.send id = none

/-- The condition on a step: nothing claims the entry of a request while its send is pending. -/
def SendsFirst (s : State ι ρ ε) : Action ι ρ ε → Prop
  | .session (.cancel id _) | .session (.response id _) => ¬ s.stalled id
  | .session (.failPending _) => ∀ id, ¬ s.stalled id
  | _ => True

instance [DecidableEq ρ] [DecidableEq ε] (s : State ι ρ ε) (id : ι) : Decidable (s.stalled id) :=
  inferInstanceAs (Decidable (_ ∧ _ ∧ _))

instance [Fintype ι] [DecidableEq ρ] [DecidableEq ε] (s : State ι ρ ε) (a : Action ι ρ ε) :
    Decidable (SendsFirst s a) := by
  unfold SendsFirst
  split <;> infer_instance

end Rtvbp.TypeScript.Request
