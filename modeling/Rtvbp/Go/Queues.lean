import Rtvbp.Go.WebSocket
import Rtvbp.Lib.ReadyQueue

/-!
# The queues with one consumer

`dispatchQueue` of `sdk/go/session_control.go`, `outboundQueue` and `inbox` of
`sdk/go/transport/ws/semantic_transport.go`, and `mailbox` of `sdk/go/transport/memory/memory.go`. Each is a slice
under a mutex with a channel `ready` of one slot, and they differ in what a close does with the rest, in where they
ask for their context, and in the error at the end. Sessions and transports each pop from one goroutine.
-/

namespace Rtvbp.Go.Queues

open Rtvbp.Lib
open Rtvbp.Go.WebSocket (Err)

variable {ι α ε : Type}

/-- `dispatchQueue`. A refused push is false, and the end is `io.EOF`. -/
def dispatchQueue : ReadyQueue Unit (Err ε) where
  discards := true
  closesWith := false
  pushAsks := false
  popAsks := true
  result _ := .eof

/-- `outboundQueue`, with `shutdown` as its close. A refused push is `io.ErrClosedPipe`. The context is asked for in
the select only. -/
def outboundQueue : ReadyQueue Unit (Err ε) where
  discards := false
  closesWith := true
  pushAsks := false
  popAsks := false
  result _ := .eof

/-- `inbox`. It is closed with an error, which may be nil. -/
def inbox : ReadyQueue (Option (Err ε)) (Err ε) where
  discards := false
  closesWith := false
  pushAsks := false
  popAsks := true
  result err := err.getD .eof

/-- `mailbox`. -/
def mailbox : ReadyQueue Unit (Err ε) where
  discards := false
  closesWith := false
  pushAsks := true
  popAsks := true
  result _ := .eof

/-- The four queues, in every run of any number of producers, closes and one consumer. Items are popped in the order
of the pushes, each of them once; a push after the close fails; a consumer that waits although there is something to
see has its token or will get it. `outboundQueue`, `inbox` and `mailbox` report the end after every item that was
accepted, and `dispatchQueue` returns none of the items that a close finds. -/
theorem queues_reliable [DecidableEq ι] [DecidableEq α] [DecidableEq ε] :
    (∀ (ls : List (ReadyQueue.Action ι α Unit (Err ε))) t,
      dispatchQueue.machine.exec ReadyQueue.initial ls = some t →
        dispatchQueue.Ordered ls t ∧ dispatchQueue.Discards ls t) ∧
    (∀ (ls : List (ReadyQueue.Action ι α Unit (Err ε))) t,
      outboundQueue.machine.exec ReadyQueue.initial ls = some t →
        outboundQueue.Ordered ls t ∧ ReadyQueue.Drains ls t) ∧
    (∀ (ls : List (ReadyQueue.Action ι α (Option (Err ε)) (Err ε))) t,
      inbox.machine.exec ReadyQueue.initial ls = some t → inbox.Ordered ls t ∧ ReadyQueue.Drains ls t) ∧
    (∀ (ls : List (ReadyQueue.Action ι α Unit (Err ε))) t,
      mailbox.machine.exec ReadyQueue.initial ls = some t → mailbox.Ordered ls t ∧ ReadyQueue.Drains ls t) := by
  refine ⟨?_, ?_, ?_, ?_⟩
  · intro ls t h
    exact ⟨ReadyQueue.ordered_of_exec h, ReadyQueue.discards_of_exec rfl h⟩
  · intro ls t h
    exact ⟨ReadyQueue.ordered_of_exec h, ReadyQueue.drains_of_exec rfl h⟩
  · intro ls t h
    exact ⟨ReadyQueue.ordered_of_exec h, ReadyQueue.drains_of_exec rfl h⟩
  · intro ls t h
    exact ⟨ReadyQueue.ordered_of_exec h, ReadyQueue.drains_of_exec rfl h⟩

/-- The consumer waits; an item is pushed, and the queue is closed before the consumer has seen it. -/
def closeRun {κ : Type} (reason : κ) : List (ReadyQueue.Action Bool ℕ κ (Err Empty)) :=
  [.pop, .look, .park, .call true (.push 7), .call false (.close reason), .accept true 7, .signal true,
    .returned true true, .mark false, .unlock false, .wake, .look]

theorem closeRun_reliable :
    (∃ t, (dispatchQueue (ε := Empty)).machine.exec ReadyQueue.initial (closeRun ()) = some t ∧
      t.consumer = .ending () ∧ dispatchQueue.Discards (closeRun ()) t) ∧
    (∃ t, (outboundQueue (ε := Empty)).machine.exec ReadyQueue.initial (closeRun ()) = some t ∧
      t.consumer = .holding 7 ∧ ReadyQueue.Drains (closeRun ()) t) ∧
    (∃ t, (inbox (ε := Empty)).machine.exec ReadyQueue.initial (closeRun none) = some t ∧
      t.consumer = .holding 7 ∧ ReadyQueue.Drains (closeRun none) t) ∧
    (∃ t, (mailbox (ε := Empty)).machine.exec ReadyQueue.initial (closeRun ()) = some t ∧
      t.consumer = .holding 7 ∧ ReadyQueue.Drains (closeRun ()) t) := by
  have hreliable := queues_reliable (ι := Bool) (α := ℕ) (ε := Empty)
  refine ⟨⟨_, rfl, rfl, ?_⟩, ⟨_, rfl, rfl, ?_⟩, ⟨_, rfl, rfl, ?_⟩, ⟨_, rfl, rfl, ?_⟩⟩
  · exact (hreliable.1 _ _ rfl).2
  · exact (hreliable.2.1 _ _ rfl).2
  · exact (hreliable.2.2.1 _ _ rfl).2
  · exact (hreliable.2.2.2 _ _ rfl).2

end Rtvbp.Go.Queues
