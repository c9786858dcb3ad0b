import Rtvbp.Lib.Machine
import Mathlib.Tactic

/-!
# Asynchronous queues with clear

`AsyncQueue` of `sdk/typescript/src/async.ts` with all of its operations, as a machine whose steps are the calls
and the aborts of waiting calls. The calls are numbered in the order in which they are made: a waiting reader is
its call of `shift`, and a value carries the call that offered it, which is history. `clear` may store more values
than the capacity, so that the bounds are a property of states here, and no field.
-/

namespace Rtvbp.TypeScript.QueueMachine

open Rtvbp.Lib

/-- A value, and the call of `push` or `tryPush` that offered it. -/
structure Offer (α : Type) where
  call : Nat
  value : α

/-- A queue and its history. -/
structure State (α : Type) where
  items : List (Offer α)
  readers : List Nat
  writers : List (Offer α)
  closed : Bool
  /-- History: the number of calls, the values that were offered, those whose `push` resolved or `tryPush`
  returned true, what each `shift` returned, the values that `clear` threw away, those that were refused, and the
  calls of `shift` that were rejected because the queue is closed. -/
  calls : Nat
  offered : List (Offer α)
  accepted : List (Offer α)
  returned : List (Nat × Offer α)
  cleared : List (Offer α)
  refused : List (Offer α)
  ended : List Nat

/-- The calls, where `aborted` says that the signal is aborted already, and the aborts of waiting calls. -/
inductive Action (α : Type) where
  | tryPush (v : α)
  | push (v : α) (aborted : Bool)
  | shift (aborted : Bool)
  | abortPush (call : Nat)
  | abortShift (call : Nat)
  | close
  | clear

variable {α : Type}

/-- The constructor. -/
def new : State α where
  items := []
  readers := []
  writers := []
  closed := false
  calls := 0
  offered := []
  accepted := []
  returned := []
  cleared := []
  refused := []
  ended := []

/-! ## The operations -/

/-- The next call offers a value. -/
def State.offer (s : State α) (v : α) : State α × Offer α :=
  let o : Offer α := { call := s.calls, value := v }
  ({ s with calls := s.calls + 1, offered := s.offered ++ [o] }, o)

def State.refuse (s : State α) (o : Offer α) : State α := { s with refused := s.refused ++ [o] }

/-- A reader is resolved with a value. -/
def State.deliver (s : State α) (reader : Nat) (o : Offer α) : State α :=
  { s with returned := s.returned ++ [(reader, o)] }

/-- What a call of `shift` has returned. -/
def State.result (s : State α) (call : Nat) : Option (Offer α) :=
  (s.returned.find? fun r => r.1 = call).map Prod.snd

/-- The value goes to the first waiting reader or is stored, if there is a reader or room. -/
def State.place (capacity : Nat) (s : State α) (o : Offer α) : Option (State α) :=
  match s.readers with
  | reader :: readers => some ({ s with readers := readers, accepted := s.accepted ++ [o] }.deliver reader o)
  | [] =>
    if s.items.length < capacity then
      some { s with items := s.items ++ [o], accepted := s.accepted ++ [o] }
    else none

/-- `tryPush`. -/
def tryPush (capacity : Nat) (s : State α) (o : Offer α) : State α :=
  if s.closed then s.refuse o
  else
    match s.place capacity o with
    | some t => t
    | none => s.refuse o

/-- `push`. -/
def push (capacity : Nat) (s : State α) (o : Offer α) (aborted : Bool) : State α :=
  if aborted then s.refuse o
  else if s.closed then s.refuse o
  else
    match s.place capacity o with
    | some t => t
    | none => { s with writers := s.writers ++ [o] }

/-- `#closeReaders`. -/
def closeReaders (s : State α) : State α := { s with readers := [], ended := s.ended ++ s.readers }

/-- `#admitWriter`. -/
def admitWriter (s : State α) : State α :=
  match s.writers with
  | [] => if s.closed ∧ s.items = [] then closeReaders s else s
  | writer :: writers =>
    match s.readers with
    | reader :: readers =>
      { s with writers := writers, readers := readers, accepted := s.accepted ++ [writer] }.deliver reader writer
    | [] => { s with writers := writers, items := s.items ++ [writer], accepted := s.accepted ++ [writer] }

/-- `shift`. -/
def shift (s : State α) (call : Nat) (aborted : Bool) : State α :=
  if aborted then s
  else
    match s.items, s.writers with
    | o :: items, _ => admitWriter ({ s with items := items }.deliver call o)
    | [], writer :: writers =>
      { s with writers := writers, accepted := s.accepted ++ [writer] }.deliver call writer
    | [], [] =>
      if s.closed then { s with ended := s.ended ++ [call] } else { s with readers := s.readers ++ [call] }

/-- `close`. -/
def close (s : State α) : State α :=
  if s.closed then s
  else
    let s := { s with closed := true, writers := [], refused := s.refused ++ s.writers }
    if s.items = [] then closeReaders s else s

/-- The loop of `clear`; every pass takes a writer out. -/
def admitWriters : Nat → State α → State α
  | 0, s => s
  | fuel + 1, s => if s.writers ≠ [] ∧ s.closed = false then admitWriters fuel (admitWriter s) else s

/-- `clear`. -/
def clear (s : State α) : State α :=
  let s := admitWriters s.writers.length { s with items := [], cleared := s.cleared ++ s.items }
  if s.closed then closeReaders s else s

/-- One step; only a call that waits can be aborted. -/
def step (capacity : Nat) (s : State α) : Action α → Option (State α)
  | .tryPush v => some (tryPush capacity (s.offer v).1 (s.offer v).2)
  | .push v aborted => some (push capacity (s.offer v).1 (s.offer v).2 aborted)
  | .shift aborted => some (shift { s with calls := s.calls + 1 } s.calls aborted)
  | .abortPush call =>
    match s.writers.find? fun writer => writer.call = call with
    | some writer => some { s with
        writers := s.writers.eraseP fun writer => writer.call = call
        refused := s.refused ++ [writer] }
    | none => none
  | .abortShift call =>
    if call ∈ s.readers then some { s with readers := s.readers.erase call } else none
  | .close => some (close s)
  | .clear => some (clear s)

/-- The queues of a capacity. -/
def machine (α : Type) (capacity : Nat) : Machine (State α) (Action α) where
  Start s := s = new
  step := step capacity

/-! ## What is asked of a run -/

/-- The bounds of a queue: the items fit in, no reader waits together with an item or a writer, and a writer waits
at a full queue only. -/
structure State.Bounded (capacity : Nat) (s : State α) : Prop where
  items : s.items.length ≤ capacity
  readers : s.readers ≠ [] → s.items = [] ∧ s.writers = []
  writers : s.writers ≠ [] → s.items.length = capacity

/-- The step does not clear an open queue at which more writers wait than it has room for. -/
def Admits (capacity : Nat) (s : State α) : Action α → Prop
  | .clear => s.closed = false → s.writers.length ≤ capacity
  | _ => True

instance (capacity : Nat) (s : State α) : DecidablePred (Admits capacity s) := fun a => by
  unfold Admits
  split <;> infer_instance

/-- The values of a list without those of another one. -/
def without (l cleared : List (Offer α)) : List (Offer α) :=
  l.filter fun o => !(cleared.map Offer.call).contains o.call

/-- The values that were accepted and not thrown away, in the order of their acceptance. -/
def State.kept (s : State α) : List (Offer α) := without s.accepted s.cleared

/-- What becomes of the values: each that was offered has one fate, none that was accepted is refused, the calls
of `shift` return in their order the values that were accepted and not thrown away, in the order of their
acceptance, and none is left when a call is told that the queue is closed. -/
structure State.Delivered (s : State α) : Prop where
  fates : s.offered.Perm
    (s.returned.map Prod.snd ++ s.cleared ++ s.refused ++ s.items ++ s.writers)
  once : (s.offered.map Offer.call).Nodup
  resolved : ∀ o ∈ s.accepted, ∀ r ∈ s.refused, o.call ≠ r.call
  ordered : s.returned.Pairwise fun a b => a.1 < b.1
  fifo : s.kept = s.returned.map Prod.snd ++ s.items
  drained : s.ended ≠ [] → s.closed = true ∧ s.items = [] ∧ s.writers = []

end Rtvbp.TypeScript.QueueMachine
