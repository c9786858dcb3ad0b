import Rtvbp.Go.WebSocket

/-!
# Proofs: the WebSocket transport flushes its queue before it closes

Each step of the transport is a step of its outbox. Without a failure of the socket the write pump stops
only when the close frame is written, and that is the last message of the queue, or at the end of a queue
that `finish` has shut and that is empty.
-/

namespace Rtvbp.Go.Flush

open Rtvbp.Lib
open Rtvbp.Go.WebSocket

variable {ε δ : Type} {s : State ε δ} {t u : Transport ε} {b : Outbox (Message δ)} {maxMisses : Int}

/-! ## The invariant -/

/-- `finish` has shut the outgoing queue. -/
def hasShut : FinishPc → Bool
  | .idle | .recorded => false
  | _ => true

/-- The write pump and the message that it writes; a pump that goes on no more has written everything. -/
def PumpInv (b : Outbox (Message δ)) : WritePc ε → Prop
  | .popping => b.writing = none
  | .writing kind => ∃ m, b.writing = some m ∧ m.kind = kind
  | .finishing _ | .stopped => b.writing = none ∧ b.queue = [] ∧ b.closed = true

/-- The outbox holds the messages of the outgoing queue. -/
structure Inv (s : State ε δ) : Prop where
  opened : s.transport.opened = true
  items : s.outbox.queue.map Message.kind = s.transport.outgoing.items
  closed : s.outbox.closed = s.transport.outgoing.closed
  shut : hasShut s.transport.finishPc = true → s.transport.outgoing.closed = true
  pump : PumpInv s.outbox s.transport.writePump

/-- What a step that has nothing to do with the outgoing queue leaves. -/
structure Same (t u : Transport ε) : Prop where
  opened : u.opened = t.opened
  outgoing : u.outgoing = t.outgoing
  writePump : u.writePump = t.writePump
  shut : hasShut u.finishPc = true → hasShut t.finishPc = true

theorem Same.refl (t : Transport ε) : Same t t := ⟨rfl, rfl, rfl, fun h => h⟩

theorem Same.congr (h : Same t u) {v : Transport ε} (hopened : v.opened = u.opened)
    (houtgoing : v.outgoing = u.outgoing) (hpump : v.writePump = u.writePump)
    (hfinish : v.finishPc = u.finishPc) : Same t v := by
  refine ⟨hopened.trans h.opened, houtgoing.trans h.outgoing, hpump.trans h.writePump, ?_⟩
  rw [hfinish]
  exact h.shut

theorem same_finish (t : Transport ε) (err : Err ε) : Same t (t.finish err) := by
  unfold Transport.finish
  split_ifs
  · exact ⟨rfl, rfl, rfl, fun h => by cases h⟩
  · exact .refl t

theorem Inv.same (h : Inv ⟨t, b⟩) (hsame : Same t u) : Inv ⟨u, b⟩ := by
  refine ⟨hsame.opened.trans h.opened, ?_, ?_, fun hshut => ?_, ?_⟩
  · show b.queue.map Message.kind = u.outgoing.items
    rw [hsame.outgoing]
    exact h.items
  · show b.closed = u.outgoing.closed
    rw [hsame.outgoing]
    exact h.closed
  · show u.outgoing.closed = true
    rw [hsame.outgoing]
    exact h.shut (hsame.shut hshut)
  · show PumpInv b u.writePump
    rw [hsame.writePump]
    exact h.pump

/-! ## The senders -/

/-- A message that is added to an open queue does not disturb the pump. -/
theorem PumpInv.push {pc : WritePc ε} (h : PumpInv b pc) (m : Message δ) : PumpInv (b.push m) pc := by
  unfold Outbox.push
  split_ifs with hclosed
  · exact h
  · cases pc with
    | popping | writing kind => exact h
    | finishing ack | stopped => exact absurd h.2.2 hclosed

/-- A message is pushed, if the queue is open. -/
theorem Inv.enqueue (h : Inv s) (m : Message δ) (hm : ¬ m.isClose) :
    Inv (s.enqueue m) ∧ Outbox.Step Message.isClose s.outbox (s.enqueue m).outbox := by
  unfold State.enqueue
  cases hu : s.transport.enqueue m.kind with
  | none => exact ⟨h, .same⟩
  | some u =>
    refine ⟨?_, .push m hm⟩
    obtain ⟨q, hq, rfl⟩ := Option.map_eq_some_iff.mp hu
    simp only [OutboundQueue.push, Option.ite_none_left_eq_some] at hq
    obtain ⟨hopen, hq⟩ := hq
    obtain rfl := Option.some.inj hq
    have hpush : s.outbox.push m =
        { s.outbox with queue := s.outbox.queue ++ [m], admitted := s.outbox.admitted ++ [m] } :=
      if_neg (by rw [h.closed]; exact hopen)
    refine ⟨h.opened, ?_, ?_, h.shut, h.pump.push m⟩
    · rw [hpush, List.map_append, h.items]
      rfl
    · rw [hpush]
      exact h.closed

/-- `Close` closes the queue with the close frame, if it is open. -/
theorem Inv.closeCommand (h : Inv s) (data : δ) :
    Inv ⟨s.transport.closeCommand, s.outbox.closeWith ⟨.close, data⟩⟩ := by
  unfold Transport.closeCommand OutboundQueue.closeWith
  by_cases hclosed : s.transport.outgoing.closed = true
  · have hsame : s.outbox.closeWith ⟨.close, data⟩ = s.outbox := if_pos (by rw [h.closed]; exact hclosed)
    rw [hsame, if_pos hclosed]
    exact h.same ⟨rfl, rfl, rfl, fun h => h⟩
  · have hopen : ¬ s.outbox.closed = true := by rw [h.closed]; exact hclosed
    have hclose : s.outbox.closeWith ⟨.close, data⟩ =
        { s.outbox with
          queue := s.outbox.queue ++ [⟨.close, data⟩]
          admitted := s.outbox.admitted ++ [⟨.close, data⟩]
          closed := true } := by
      rw [Outbox.closeWith, if_neg hopen, Outbox.push, if_neg hopen]
    rw [hclose, if_neg hclosed]
    refine ⟨h.opened, ?_, rfl, fun _ => rfl, ?_⟩
    · show (s.outbox.queue ++ [(⟨.close, data⟩ : Message δ)]).map Message.kind = _
      rw [List.map_append, h.items]
      rfl
    · have hpump := h.pump
      show PumpInv _ s.transport.writePump
      cases hpc : s.transport.writePump with
      | popping | writing kind =>
        rw [hpc] at hpump
        exact hpump
      | finishing ack | stopped =>
        rw [hpc] at hpump
        exact absurd hpump.2.2 hopen

/-! ## The pumps -/

/-- One step of the pumps and of `finish`, without a failure of the socket. -/
theorem Inv.socket (h : Inv s) (hflushed : s.outbox.Flushed Message.isClose) {a : SocketAction ε}
    (hfail : NoFailure s (.socket a)) (hstep : s.transport.step a = some u) :
    Inv ⟨u, follow s.transport s.outbox a⟩ ∧
      Outbox.Step Message.isClose s.outbox (follow s.transport s.outbox a) := by
  cases a with
  | newTransport =>
    simp [Transport.step, h.opened] at hstep
  | text data | binary data =>
    simp only [Transport.step, Option.ite_none_right_eq_some] at hstep
    obtain rfl := Option.some.inj hstep.2
    exact ⟨h.same ⟨rfl, rfl, rfl, fun h => h⟩, .same⟩
  | readFails err => exact hfail.elim
  | pop =>
    simp only [Transport.step] at hstep
    split at hstep <;> simp only [reduceCtorEq, Option.some.injEq] at hstep
    rename_i kind rest hopened hpopping hitems
    subst hstep
    have hpump := h.pump
    rw [hpopping] at hpump
    refine ⟨?_, .take hpump⟩
    have hqueue := h.items
    rw [hitems] at hqueue
    obtain ⟨m, queue, hcons, hkind, hrest⟩ := List.map_eq_cons_iff.mp hqueue
    have htake : s.outbox.take = { s.outbox with queue := queue, writing := some m } := by
      rw [Outbox.take, hcons]
      rfl
    show Inv ⟨_, s.outbox.take⟩
    rw [htake]
    exact ⟨h.opened, hrest, h.closed, h.shut, m, rfl, hkind⟩
  | popEnds =>
    simp only [Transport.step] at hstep
    split at hstep <;> simp only [reduceCtorEq, Option.ite_none_right_eq_some] at hstep
    rename_i hopened hpopping hitems
    obtain ⟨hdone, hstep⟩ := hstep
    obtain rfl := Option.some.inj hstep
    have hpump := h.pump
    rw [hpopping] at hpump
    have hclosed : s.transport.outgoing.closed = true := by
      rcases hdone with hclosed | hctx
      · exact hclosed
      · refine h.shut ?_
        cases hpc : s.transport.finishPc <;> rw [hpc] at hctx <;> first | rfl | cases hctx
    refine ⟨⟨h.opened, h.items, h.closed, h.shut, hpump, ?_, h.closed.trans hclosed⟩, .same⟩
    have hqueue := h.items
    rw [hitems] at hqueue
    exact List.map_eq_nil_iff.mp hqueue
  | writes err =>
    cases err with
    | some err => exact hfail.elim
    | none =>
      simp only [Transport.step] at hstep
      split at hstep <;> simp only [reduceCtorEq, Option.some.injEq] at hstep
      rename_i kind hwriting
      have hpump := h.pump
      rw [hwriting] at hpump
      obtain ⟨m, hm, hkind⟩ := hpump
      refine ⟨?_, .wrote⟩
      have hack : ∀ kind, Same s.transport (s.transport.acknowledge kind none) := by
        intro kind
        unfold Transport.acknowledge
        split_ifs
        · exact ⟨rfl, rfl, rfl, fun h => h⟩
        · exact .refl _
      have hinv := h.same (hack kind)
      have hother : ∀ {v : Transport ε}, Same s.transport v →
          Inv ⟨{ v with writePump := .popping }, s.outbox.wrote⟩ := by
        intro v hv
        have hv' := h.same hv
        exact ⟨hv'.opened, hv'.items, hv'.closed, hv'.shut, rfl⟩
      cases kind with
      | text | binary | ping =>
        subst hstep
        exact hother (hack _)
      | close =>
        -- the close frame was the last message
        obtain ⟨hqueue, hclosed⟩ := hflushed.queue_of_close hkind hm
        have hfinish := hinv.same (same_finish _ .eof)
        subst hstep
        exact ⟨hfinish.opened, hfinish.items, hfinish.closed, hfinish.shut, rfl, hqueue, hclosed⟩
  | writeFinished =>
    simp only [Transport.step] at hstep
    split at hstep <;> simp only [reduceCtorEq, Option.ite_none_right_eq_some] at hstep
    rename_i ack hfinishing
    obtain rfl := Option.some.inj hstep.2
    have hpump := h.pump
    rw [hfinishing] at hpump
    exact ⟨⟨h.opened, h.items, h.closed, h.shut, hpump⟩, .same⟩
  | finish =>
    have hshut : ∀ pc : FinishPc, hasShut s.transport.finishPc = true →
        Inv (⟨{ s.transport with finishPc := pc }, s.outbox⟩ : State ε δ) :=
      fun pc hshut => ⟨h.opened, h.items, h.closed, fun _ => h.shut hshut, h.pump⟩
    cases hpc : s.transport.finishPc <;>
      simp only [Transport.step, Transport.finishStep, hpc, reduceCtorEq, Option.some.injEq] at hstep <;>
      subst hstep <;> simp only [follow, hpc, if_true]
    case recorded =>
      refine ⟨⟨h.opened, h.items, rfl, fun _ => rfl, ?_⟩, .shutdown⟩
      have hpump := h.pump
      show PumpInv _ s.transport.writePump
      cases hpc : s.transport.writePump with
      | popping | writing kind =>
        rw [hpc] at hpump
        exact hpump
      | finishing ack | stopped =>
        rw [hpc] at hpump
        exact ⟨hpump.1, hpump.2.1, rfl⟩
    case outgoingShutDown => exact ⟨(hshut _ (by rw [hpc]; rfl)).same ⟨rfl, rfl, rfl, fun h => h⟩, .same⟩
    case controlClosed => exact ⟨(hshut _ (by rw [hpc]; rfl)).same ⟨rfl, rfl, rfl, fun h => h⟩, .same⟩
    case mediaClosed => exact ⟨hshut _ (by rw [hpc]; rfl), .same⟩
    case canceled => exact ⟨hshut _ (by rw [hpc]; rfl), .same⟩
    case connClosed => exact ⟨hshut _ (by rw [hpc]; rfl), .same⟩

/-- One step of the monitor. -/
theorem Inv.monitor (h : Inv s) {a : MonitorAction ε} {canceled : Bool} (payload : δ)
    (hstep : s.transport.monitorStep maxMisses canceled a = some u) :
    Inv ⟨u, followMonitor u s.outbox payload a⟩ ∧
      Outbox.Step Message.isClose s.outbox (followMonitor u s.outbox payload a) := by
  have hsame : Same s.transport u → (∀ data : δ, followMonitor u s.outbox data a = s.outbox) →
      Inv ⟨u, followMonitor u s.outbox payload a⟩ ∧
        Outbox.Step Message.isClose s.outbox (followMonitor u s.outbox payload a) := by
    intro hu hfollow
    rw [hfollow]
    exact ⟨h.same hu, .same⟩
  cases a with
  | acquire | interval =>
    simp only [Transport.monitorStep, Option.ite_none_right_eq_some] at hstep
    obtain rfl := Option.some.inj hstep.2
    exact hsame ⟨rfl, rfl, rfl, fun h => h⟩ fun _ => rfl
  | ping =>
    simp only [Transport.monitorStep, Option.ite_none_right_eq_some] at hstep
    obtain ⟨-, hstep⟩ := hstep
    split_ifs at hstep
    · obtain rfl := Option.some.inj hstep
      exact hsame ⟨rfl, rfl, rfl, fun h => h⟩ fun _ => rfl
    · cases henqueue : s.transport.enqueue .ping with
      | none =>
        rw [henqueue] at hstep
        obtain rfl := Option.some.inj hstep
        exact hsame ⟨rfl, rfl, rfl, fun h => h⟩ fun _ => rfl
      | some v =>
        rw [henqueue] at hstep
        obtain rfl := Option.some.inj hstep
        obtain ⟨hinv, houtbox⟩ := h.enqueue ⟨.ping, payload⟩ (by simp [Message.isClose])
        have heq : s.enqueue ⟨.ping, payload⟩ = ⟨v, s.outbox.push ⟨.ping, payload⟩⟩ := by
          simp only [State.enqueue, henqueue]
        rw [heq] at hinv houtbox
        exact ⟨hinv.same ⟨rfl, rfl, rfl, fun h => h⟩, houtbox⟩
  | acknowledged =>
    simp only [Transport.monitorStep] at hstep
    split at hstep <;> simp only [reduceCtorEq, Option.some.injEq] at hstep <;> subst hstep <;>
      exact hsame ⟨rfl, rfl, rfl, fun h => h⟩ fun _ => rfl
  | pong matched =>
    simp only [Transport.monitorStep, Option.ite_none_right_eq_some] at hstep
    obtain rfl := Option.some.inj hstep.2
    refine hsame ?_ fun _ => rfl
    split_ifs
    · exact ⟨rfl, rfl, rfl, fun h => h⟩
    · exact .refl _
  | timeout =>
    simp only [Transport.monitorStep, Option.ite_none_right_eq_some] at hstep
    obtain rfl := Option.some.inj hstep.2
    refine hsame ?_ fun _ => rfl
    unfold Transport.miss
    split_ifs
    · exact (same_finish _ _).congr rfl rfl rfl rfl
    · exact ⟨rfl, rfl, rfl, fun h => h⟩
  | finished | transportDone | ctxDone =>
    simp only [Transport.monitorStep, Option.ite_none_right_eq_some] at hstep
    obtain rfl := Option.some.inj hstep.2
    exact hsame ⟨rfl, rfl, rfl, fun h => h⟩ fun _ => rfl

/-! ## Runs -/

/-- Every step without a failure is a step of the outbox. -/
theorem Inv.step (h : Inv s) (hflushed : s.outbox.Flushed Message.isClose) {a : Action ε δ} {t : State ε δ}
    (hfail : NoFailure s a) (hstep : Flush.step maxMisses s a = some t) :
    Inv t ∧ Outbox.Step Message.isClose s.outbox t.outbox := by
  cases a with
  | socket a =>
    obtain ⟨u, hu, rfl⟩ := Option.map_eq_some_iff.mp hstep
    exact h.socket hflushed hfail hu
  | monitor a canceled payload =>
    obtain ⟨u, hu, rfl⟩ := Option.map_eq_some_iff.mp hstep
    exact h.monitor payload hu
  | send data =>
    obtain rfl := Option.some.inj hstep
    exact h.enqueue _ (by simp [Message.isClose])
  | writeFrame data =>
    obtain rfl := Option.some.inj hstep
    exact h.enqueue _ (by simp [Message.isClose])
  | close data =>
    obtain rfl := Option.some.inj hstep
    split_ifs
    · exact ⟨h, .same⟩
    · exact ⟨h.closeCommand data, .closeWith _⟩
  | closeTimesOut err => exact hfail.elim

theorem inv_start (h : Start s) : Inv s ∧ s.outbox = .empty := by
  obtain ⟨monitor, -, hstep, hempty⟩ := h
  simp only [Transport.step, Transport.initial, Bool.false_eq_true, if_false, Option.some.injEq] at hstep
  refine ⟨?_, hempty⟩
  constructor <;> rw [← hstep]
  · rw [hempty]
    rfl
  · rw [hempty]
    rfl
  · intro hshut
    cases hshut
  · rw [hempty]
    exact rfl

/-- The write pump goes on as long as something is not written. -/
theorem Inv.progresses (maxMisses : Int) (h : Inv s)
    (hrest : s.outbox.writing ≠ none ∨ s.outbox.queue ≠ []) :
    ∃ a t, NoFailure s a ∧ (machine maxMisses).Progresses State.outbox Action.isWriter s a t := by
  have hpump := h.pump
  cases hpc : s.transport.writePump with
  | popping =>
    rw [hpc] at hpump
    have hqueue : s.outbox.queue ≠ [] := hrest.resolve_left fun hne => hne hpump
    obtain ⟨m, rest, hcons⟩ := List.exists_cons_of_ne_nil hqueue
    have hitems := h.items
    rw [hcons] at hitems
    refine ⟨.socket .pop, ⟨{ s.transport with
      writePump := .writing m.kind
      outgoing := { s.transport.outgoing with items := rest.map Message.kind } }, s.outbox.take⟩,
      trivial, trivial, ?_, .inl ⟨hqueue, hpump, rfl⟩⟩
    show (s.transport.step .pop).map _ = _
    simp only [Transport.step, h.opened, hpc, ← hitems, List.map_cons, Option.map_some]
    rfl
  | writing kind =>
    rw [hpc] at hpump
    obtain ⟨m, hm, -⟩ := hpump
    refine ⟨.socket (.writes none), ⟨(s.transport.acknowledge kind none).afterWrite kind none,
      s.outbox.wrote⟩, trivial, trivial, ?_, .inr ⟨by simp [hm], rfl⟩⟩
    show (s.transport.step (.writes none)).map _ = _
    simp only [Transport.step, hpc, Option.map_some]
    rfl
  | finishing ack | stopped =>
    rw [hpc] at hpump
    rcases hrest with hne | hne
    · exact absurd hpump.1 hne
    · exact absurd hpump.2.1 hne

/-- The Go transport flushes its queue before it closes. -/
theorem flushes (maxMisses : Int) :
    (machine (ε := ε) (δ := δ) maxMisses).Flushes NoFailure State.outbox Message.isClose Action.isWriter :=
  .of_invariant (I := Inv) (fun _ hs => inv_start hs)
    (fun _ _ _ h hflushed hfail hstep => h.step hflushed hfail hstep)
    fun _ h _ hrest => h.progresses maxMisses hrest

end Rtvbp.Go.Flush
