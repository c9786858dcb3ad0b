import Mathlib.Data.List.Forall2

/-!
# Serving a queue

A server takes the items of a queue one after the other until it is stopped. Handling an item sends one
message, or stops the server. `isolated_iff` says when the items of a queue do not disturb each other:
exactly if each of them has a proper answer of its own.
-/

namespace Rtvbp.Lib

/-- A server: whether it is stopped, and the messages that it has sent. -/
structure Server (β : Type*) where
  stopped : Bool
  sent : List β

namespace Server

variable {ρ β : Type*}

/-- Send a message. -/
def send (s : Server β) (message : β) : Server β := { s with sent := s.sent ++ [message] }

/-- Stop the server. -/
def stop (s : Server β) : Server β := { s with stopped := true }

/-- The items of a queue are handled until the server is stopped; what is left of the queue is returned. -/
def serve (handle : Server β → ρ → Server β) : Server β → List ρ → Server β × List ρ
  | s, [] => (s, [])
  | s, item :: queue =>
    if s.stopped then (s, item :: queue) else serve handle (handle s item) queue

/-- A running server answers an item by `reply`, and stops if there is no reply. -/
def Answers (handle : Server β → ρ → Server β) (reply : ρ → Option β) : Prop :=
  ∀ s item, s.stopped = false → handle s item = (reply item).elim s.stop s.send

/-- The items of a queue are isolated: all of them are handled, each is answered by one message that `P`
accepts, and the server goes on. -/
structure Isolated (P : ρ → β → Prop) (run : Server β → List ρ → Server β × List ρ) (s : Server β)
    (queue : List ρ) : Prop where
  all : (run s queue).2 = []
  goes_on : (run s queue).1.stopped = false
  answered : ∃ messages, (run s queue).1.sent = s.sent ++ messages ∧ List.Forall₂ P queue messages

variable {P : ρ → β → Prop} {handle : Server β → ρ → Server β} {reply : ρ → Option β}
  {s : Server β} {item : ρ} {queue : List ρ}

theorem serve_stopped (hs : s.stopped = true) : serve handle s queue = (s, queue) := by
  cases queue with
  | nil => rfl
  | cons item queue => rw [serve, if_pos hs]

theorem serve_cons (hs : s.stopped = false) :
    serve handle s (item :: queue) = serve handle (handle s item) queue := by
  rw [serve, if_neg (by simp [hs])]

/-- The server only adds to its messages. -/
theorem exists_sent (h : Answers handle reply) :
    ∃ messages, (serve handle s queue).1.sent = s.sent ++ messages := by
  induction queue generalizing s with
  | nil => exact ⟨[], (List.append_nil _).symm⟩
  | cons item queue ih =>
    cases hs : s.stopped with
    | true =>
      rw [serve_stopped hs]
      exact ⟨[], (List.append_nil _).symm⟩
    | false =>
      rw [serve_cons hs]
      obtain ⟨messages, hm⟩ := ih (s := handle s item)
      rw [h s item hs] at hm ⊢
      cases hr : reply item with
      | none =>
        rw [hr] at hm
        exact ⟨messages, hm⟩
      | some message =>
        rw [hr] at hm
        refine ⟨message :: messages, ?_⟩
        rw [Option.elim_some] at hm ⊢
        rw [hm, send, List.append_assoc, List.singleton_append]

/-- An item without a reply stops the server. -/
theorem not_isolated_cons (h : Answers handle reply) (hs : s.stopped = false)
    (hr : reply item = none) : ¬ Isolated P (serve handle) s (item :: queue) := by
  intro hiso
  have hon := hiso.goes_on
  rw [serve_cons hs, h s item hs, hr, Option.elim_none, serve_stopped rfl] at hon
  cases hon

/-- An item with a reply leaves the rest of the queue to a running server. -/
theorem isolated_cons_iff (h : Answers handle reply) (hs : s.stopped = false) {message : β}
    (hr : reply item = some message) :
    Isolated P (serve handle) s (item :: queue) ↔
      P item message ∧ Isolated P (serve handle) (s.send message) queue := by
  have hserve : serve handle s (item :: queue) = serve handle (s.send message) queue := by
    rw [serve_cons hs, h s item hs, hr, Option.elim_some]
  constructor
  · rintro ⟨hall, hon, messages, hsent, hP⟩
    rw [hserve] at hall hon hsent
    obtain ⟨more, hmore⟩ := exists_sent (s := s.send message) h
    cases hP with
    | cons hfirst hrest =>
      rename_i first rest
      have heq : s.sent ++ message :: more = s.sent ++ first :: rest := by
        rw [← hsent, hmore, send, List.append_assoc, List.singleton_append]
      obtain ⟨rfl, rfl⟩ := List.cons.inj (List.append_cancel_left heq)
      exact ⟨hfirst, hall, hon, more, hmore, hrest⟩
  · rintro ⟨hfirst, hall, hon, messages, hsent, hP⟩
    refine ⟨hserve ▸ hall, hserve ▸ hon, message :: messages, ?_, hP.cons hfirst⟩
    rw [hserve, hsent, send, List.append_assoc, List.singleton_append]

/-- The items of a queue are isolated exactly if each of them has a proper reply. -/
theorem isolated_iff (h : Answers handle reply) (hs : s.stopped = false) :
    Isolated P (serve handle) s queue ↔
      ∀ item ∈ queue, ∃ message, reply item = some message ∧ P item message := by
  induction queue generalizing s with
  | nil =>
    simp only [List.not_mem_nil, false_implies, implies_true, iff_true]
    exact ⟨rfl, hs, [], (List.append_nil _).symm, .nil⟩
  | cons item queue ih =>
    rw [List.forall_mem_cons]
    cases hr : reply item with
    | none =>
      refine iff_of_false (not_isolated_cons h hs hr) ?_
      rintro ⟨⟨message, hm, -⟩, -⟩
      cases hm
    | some message =>
      rw [isolated_cons_iff h hs hr, ih (s := s.send message) hs]
      simp

end Server

end Rtvbp.Lib
