import Rtvbp.Rust.Error
import Rtvbp.Lib.Keys
import Rtvbp.Lib.Threads

/-!
# Pending requests of the Rust session

`Session::request_value` of `sdk/rust/src/session/mod.rs` for any number of concurrent calls, with
`resolve_pending` of the reader and `fail_pending` of the shutdown. The id generator is part of the
environment and may return any text. The map `pending` has the senders of `oneshot` channels as its
values, so an entry names the call whose receiver it leads to; a sender that leaves the map without a
result closes its channel. Every access to the map, the flag and a channel is a step of its own, and a
call that waits can be dropped.
-/

namespace Rtvbp.Rust.Pending

open Rtvbp.Lib Rtvbp.Envelope.Rust

/-- Who sends a result. -/
inductive Source where
  | response (frame : ControlFrame)
  | shutdown

/-- The result that `resolve_pending` and `fail_pending` send. -/
def Source.result : Source → Except Error (Option Value)
  | .response frame =>
    match frame.error with
    | some error => .error (.remote error)
    | none => .ok frame.payload
  | .shutdown => .error .sessionClosed

/-- The `oneshot` channel of a call: its sender is there, has sent, or was dropped. -/
inductive Channel where
  | empty
  | sent (source : Source)
  | dropped

/-- `pending_result`. -/
def Channel.result : Channel → Except Error Value
  | .sent source =>
    match source.result with
    | .ok payload => .ok (payload.getD .null)
    | .error error => .error error
  | .empty | .dropped => .error .sessionClosed

/-- How a call has returned. -/
inductive Completion where
  /-- Before it had an entry of its own. -/
  | refused (error : Error)
  | sendFailed (id : String) (error : Error)
  | timedOut (id : String)
  | received (id : String) (channel : Channel)

/-- What `request_value` returns. -/
def Completion.result : Completion → Except Error Value
  | .refused error | .sendFailed _ error => .error error
  | .timedOut _ => .error .requestTimeout
  | .received _ channel => channel.result

/-- The errors of the id generator. -/
def errEmpty : Error := .requestFailed "id generator returned an empty id"

def errDuplicate (id : String) : Error :=
  .requestFailed s!"id generator returned duplicate id {id.quote}"

/-- What the calls share. -/
structure Shared (ι : Type) where
  closing : Bool
  /-- The entries of the map. -/
  pending : List (String × ι)
  channel : ι → Channel
  /-- The reader is in `resolve_pending`, between `remove` and `send`. -/
  taken : Option (ι × ControlFrame)

/-- A call of `request_value`. -/
inductive Call where
  | idle
  /-- Before the look at `closing`. -/
  | entered (method : String) (payload : Value)
  /-- Before the id generator and `insert`. -/
  | checked (method : String) (payload : Value)
  /-- In `send_frame`, before its look at `closing`. -/
  | registered (id : String) (frame : ControlFrame)
  /-- In `send_frame`, before `encode` and `send`. -/
  | encoding (id : String) (frame : ControlFrame)
  /-- Waits for `send`. -/
  | sending (id : String)
  /-- `send_frame` has failed; next is `cancel_pending`. -/
  | sendFailed (id : String) (error : Error)
  /-- Waits for the result, with a timeout. -/
  | waiting (id : String)
  /-- The timeout has passed; next is `cancel_pending`. -/
  | elapsed (id : String)
  /-- `cancel_pending` has returned false; waits for the result. -/
  | receiving (id : String)
  | returned (completion : Completion)
  | dropped (id : String)

/-- The steps of a call. -/
inductive CallAction where
  | call (method : String) (payload : Value)
  | check
  /-- The id generator returns this id, and `insert`. -/
  | insert (id : String)
  | look
  /-- `encode`, and the frame is handed to `send`, which returns later. -/
  | send
  | sendReturns (error : Option Error)
  /-- The timeout passes before a result is there. -/
  | elapse
  /-- `cancel_pending`. -/
  | cancel
  /-- The result is there. -/
  | receive
  /-- The future of the call is dropped. -/
  | drop

/-- The steps of everybody else. -/
inductive EnvAction where
  /-- `remove` in `resolve_pending`. -/
  | resolve (frame : ControlFrame)
  /-- `send` in `resolve_pending`. -/
  | deliver
  /-- The shutdown sets `closing`, and `fail_pending`. -/
  | beginShutdown
  | failPending

variable {ι : Type} [DecidableEq ι]

namespace Shared

/-- The entry of an id is removed from the map. -/
def remove (s : Shared ι) (id : String) : Shared ι :=
  { s with pending := s.pending.filter fun entry => entry.1 ≠ id }

/-- The sender of a call is dropped. -/
def dropSender (s : Shared ι) (i : ι) : Shared ι :=
  { s with channel := Function.update s.channel i .dropped }

/-- `insert`. -/
def insert (s : Shared ι) (id : String) (i : ι) : Shared ι :=
  { s.remove id with pending := (id, i) :: (s.remove id).pending }

end Shared

/-- One step of a call; `encode` is `Envelope::encode`. -/
def act {β : Type} (encode : ControlFrame → Except Error β) (i : ι) (s : Shared ι) (c : Call) :
    CallAction → Option (Shared ι × Call)
  | .call method payload =>
    match c with
    | .idle => some (s, .entered method payload)
    | _ => none
  | .check =>
    match c with
    | .entered method payload =>
      some (s, if s.closing then .returned (.refused .sessionClosed) else .checked method payload)
    | _ => none
  | .insert id =>
    match c with
    | .checked method payload =>
      if id = "" then some (s, .returned (.refused errEmpty))
      else
        match s.pending.lookup id with
        | some j => some ((s.insert id i).dropSender j, .returned (.refused (errDuplicate id)))
        | none => some (s.insert id i, .registered id (.request id method (some payload)))
    | _ => none
  | .look =>
    match c with
    | .registered id frame =>
      some (s, if s.closing then .sendFailed id .sessionClosed else .encoding id frame)
    | _ => none
  | .send =>
    match c with
    | .encoding id frame =>
      match encode frame with
      | .error error => some (s, .sendFailed id error)
      | .ok _ => some (s, .sending id)
    | _ => none
  | .sendReturns error =>
    match c, error with
    | .sending id, some error => some (s, .sendFailed id error)
    | .sending id, none => some (s, .waiting id)
    | _, _ => none
  | .elapse =>
    match c, s.channel i with
    | .waiting id, .empty => some (s, .elapsed id)
    | _, _ => none
  | .cancel =>
    match c with
    | .sendFailed id error =>
      match s.pending.lookup id with
      | some j => some ((s.remove id).dropSender j, .returned (.sendFailed id error))
      | none => some (s, .receiving id)
    | .elapsed id =>
      match s.pending.lookup id with
      | some j => some ((s.remove id).dropSender j, .returned (.timedOut id))
      | none => some (s, .receiving id)
    | _ => none
  | .receive =>
    match c, s.channel i with
    | .waiting _, .empty | .receiving _, .empty => none
    | .waiting id, channel | .receiving id, channel => some (s, .returned (.received id channel))
    | _, _ => none
  | .drop =>
    match c with
    | .sending id | .waiting id | .receiving id => some (s, .dropped id)
    | _ => none

/-- One step of everybody else. -/
def env (s : Shared ι) : EnvAction → Option (Shared ι)
  | .resolve frame =>
    match s.taken with
    | some _ => none
    | none =>
      match s.pending.lookup frame.correlationId with
      | some i => some { s.remove frame.correlationId with taken := some (i, frame) }
      | none => some s
  | .deliver =>
    match s.taken with
    | some (i, frame) =>
      some { s with
        channel := Function.update s.channel i (.sent (.response frame))
        taken := none }
    | none => none
  | .beginShutdown => some { s with closing := true }
  | .failPending =>
    if s.closing then
      some { s with
        pending := []
        channel := fun i => if i ∈ s.pending.map Prod.snd then .sent .shutdown else s.channel i }
    else none

/-- Before the first call. -/
def Start (s : Shared ι) : Prop := s.pending = [] ∧ (∀ i, s.channel i = .empty) ∧ s.taken = none

/-- The calls of a session. -/
def threads {β : Type} (encode : ControlFrame → Except Error β) :
    Threads ι (Shared ι) Call CallAction EnvAction where
  Start := Start
  new _ := .idle
  act := act encode
  env := env

/-- A session with its calls. -/
abbrev State (ι : Type) := Threads.State ι (Shared ι) Call

/-! ## What is asked of a run -/

/-- The id of a call that has inserted its entry, while its future is alive. -/
def Call.awaits : Call → Option String
  | .registered id _ | .encoding id _ | .sending id | .sendFailed id _ => some id
  | .waiting id | .elapsed id | .receiving id => some id
  | _ => none

omit [DecidableEq ι] in
/-- The result of the call has been sent, or the reader is about to send it. -/
def Shared.completed (s : Shared ι) (i : ι) : Prop :=
  (∃ frame, s.taken = some (i, frame)) ∨ ∃ source, s.channel i = .sent source

/-- The result is the response to this id, or comes from the shutdown. -/
def Source.answers (id : String) : Source → Prop
  | .response frame => frame.correlationId = id
  | .shutdown => True

/-- The call returned by its own doing, or with its response, or by the shutdown. -/
def Completion.own : Completion → Prop
  | .received id (.sent source) => source.answers id
  | .received _ _ => False
  | _ => True

omit [DecidableEq ι] in
/-- Every call is left alone by the others: the entry of an outstanding call holds its own sender, the
call is completed only by its response, its timeout, its own send or the shutdown, and every entry has a
live caller. -/
structure State.Unaffected (s : State ι) : Prop where
  owned : ∀ i id, (s.locals i).awaits = some id → ¬ s.shared.completed i → (id, i) ∈ s.shared.pending
  live : ∀ id i, (id, i) ∈ s.shared.pending → (s.locals i).awaits = some id
  taken : ∀ i id frame, (s.locals i).awaits = some id → s.shared.taken = some (i, frame) →
    frame.correlationId = id
  sent : ∀ i id source, (s.locals i).awaits = some id → s.shared.channel i = .sent source →
    source.answers id
  returned : ∀ i completion, s.locals i = .returned completion → completion.own

omit [DecidableEq ι] in
/-- The map holds exactly the requests whose future is alive and not yet completed. -/
def State.Exact (s : State ι) : Prop :=
  ∀ id i, (id, i) ∈ s.shared.pending ↔ (s.locals i).awaits = some id ∧ ¬ s.shared.completed i

/-- The condition on a step of a call for the ids: an id is not inserted while the map has an entry for
it, and a call that cancels its request does not find the entry of another call under its id. -/
def Unconfused (i : ι) (s : Shared ι) (c : Call) : CallAction → Prop
  | .insert id => id = "" ∨ s.pending.lookup id = none
  | .cancel =>
    match c with
    | .sendFailed id _ | .elapsed id =>
      s.pending.lookup id = none ∨ s.pending.lookup id = some i
    | _ => True
  | _ => True

/-- The condition on a step of a call for its future: it is not dropped while the map has its entry. -/
def NotAbandoned (i : ι) (s : Shared ι) (_ : Call) : CallAction → Prop
  | .drop => ∀ entry ∈ s.pending, entry.2 ≠ i
  | _ => True

/-- Both conditions. -/
def Careful (i : ι) (s : Shared ι) (c : Call) (a : CallAction) : Prop :=
  Unconfused i s c a ∧ NotAbandoned i s c a

instance (i : ι) (s : Shared ι) (c : Call) (a : CallAction) : Decidable (Unconfused i s c a) := by
  unfold Unconfused
  split
  · infer_instance
  · split <;> infer_instance
  · infer_instance

instance (i : ι) (s : Shared ι) (c : Call) (a : CallAction) : Decidable (NotAbandoned i s c a) := by
  unfold NotAbandoned
  split <;> infer_instance

instance (i : ι) (s : Shared ι) (c : Call) (a : CallAction) : Decidable (Careful i s c a) :=
  inferInstanceAs (Decidable (_ ∧ _))

end Rtvbp.Rust.Pending
