import Mathlib.Tactic
import Mathlib.Data.List.Infix

/-!
# Mailboxes

A queue between the goroutines or tasks of a program that is closed with a reason: a closed mailbox drops
what is pushed, keeps its first reason, and still hands out what it holds.
-/

namespace Rtvbp.Lib

/-- A mailbox with items `α` and the reasons `κ` to close it. -/
structure Mailbox (α κ : Type*) where
  items : List α
  closed : Option κ

namespace Mailbox

variable {α κ : Type*}

def empty : Mailbox α κ := ⟨[], none⟩

/-- A value is put in, unless the mailbox is closed. -/
def push (q : Mailbox α κ) (value : α) : Mailbox α κ :=
  if q.closed.isSome then q else { q with items := q.items ++ [value] }

/-- The mailbox is closed, unless it is already. -/
def close (q : Mailbox α κ) (reason : κ) : Mailbox α κ :=
  if q.closed.isSome then q else { q with closed := some reason }

variable {q : Mailbox α κ}

@[simp] theorem push_closed (value : α) : (q.push value).closed = q.closed := by
  unfold push
  split_ifs <;> rfl

theorem push_eq_of_closed (h : q.closed.isSome) (value : α) : q.push value = q := if_pos h

theorem push_items_of_open (h : ¬ q.closed.isSome) (value : α) :
    (q.push value).items = q.items ++ [value] := by
  rw [push, if_neg h]

@[simp] theorem close_items (reason : κ) : (q.close reason).items = q.items := by
  unfold close
  split_ifs <;> rfl

theorem close_eq_of_closed (h : q.closed.isSome) (reason : κ) : q.close reason = q := if_pos h

/-- What a mailbox is closed with is the reason it had before, or the given one. -/
theorem closed_of_close {reason r : κ} (h : (q.close reason).closed = some r) :
    q.closed = some r ∨ r = reason := by
  unfold close at h
  split_ifs at h
  · exact .inl h
  · exact .inr (Option.some.inj h).symm

end Mailbox

end Rtvbp.Lib

/-!
## Ordered channels

A channel between two processes hands out what was sent in the order in which it was sent, until it is closed. The
channel carries its own history, and with it the fact that nothing is lost, doubled or overtaken: what was sent is
what was received, then what is under way, then what the close has thrown away.
-/

namespace Rtvbp.Lib

/-- A channel with its history. -/
structure Wire (β : Type*) where
  sent : List β
  received : List β
  pending : List β
  /-- What a close has thrown away. -/
  lost : List β
  closed : Bool
  fifo : sent = received ++ pending ++ lost
  lost_of_open : closed = false → lost = []

namespace Wire

variable {β : Type*} {w v : Wire β} {x : β}

/-- A channel that nothing was sent on. -/
def empty : Wire β := ⟨[], [], [], [], false, rfl, fun _ => rfl⟩

/-- Send, unless the channel is closed. -/
def send (w : Wire β) (x : β) : Option (Wire β) :=
  if h : w.closed = false then
    some { w with
      sent := w.sent ++ [x]
      pending := w.pending ++ [x]
      fifo := by rw [w.fifo, w.lost_of_open h]; simp }
  else none

/-- Receive the first of what is under way. -/
def recv (w : Wire β) : Option (β × Wire β) :=
  match h : w.pending with
  | [] => none
  | x :: rest => some (x, { w with received := w.received ++ [x], pending := rest, fifo := by rw [w.fifo, h]; simp })

/-- Close; what is under way can still be received. -/
def close (w : Wire β) : Wire β := { w with closed := true, lost_of_open := by simp }

/-- Close, and throw away what is under way. -/
def discard (w : Wire β) : Wire β :=
  { w with closed := true, pending := [], lost := w.pending ++ w.lost, fifo := by rw [w.fifo]; simp, lost_of_open := by simp }

/-- The end is seen: the channel is closed and nothing is under way. -/
def ended (w : Wire β) : Bool := w.closed && w.pending.isEmpty

theorem sent_of_send (h : w.send x = some v) : v.sent = w.sent ++ [x] := by
  unfold send at h
  split_ifs at h
  cases h
  rfl

theorem received_of_send (h : w.send x = some v) : v.received = w.received := by
  unfold send at h
  split_ifs at h
  cases h
  rfl

theorem sent_of_recv (h : w.recv = some (x, v)) : v.sent = w.sent := by
  unfold recv at h
  split at h
  · cases h
  · cases h
    rfl

theorem received_of_recv (h : w.recv = some (x, v)) : v.received = w.received ++ [x] := by
  unfold recv at h
  split at h
  · cases h
  · cases h
    rfl

@[simp] theorem sent_close : w.close.sent = w.sent := rfl

@[simp] theorem received_close : w.close.received = w.received := rfl

@[simp] theorem sent_discard : w.discard.sent = w.sent := rfl

@[simp] theorem received_discard : w.discard.received = w.received := rfl

@[simp] theorem sent_empty : (empty : Wire β).sent = [] := rfl

@[simp] theorem received_empty : (empty : Wire β).received = [] := rfl

/-- What was received is a first part of what was sent. -/
theorem received_isPrefix (w : Wire β) : w.received <+: w.sent :=
  ⟨w.pending ++ w.lost, by rw [w.fifo, List.append_assoc]⟩

end Wire

end Rtvbp.Lib
