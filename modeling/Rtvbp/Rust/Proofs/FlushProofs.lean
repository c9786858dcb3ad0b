import Rtvbp.Rust.WebSocket

/-!
# Proofs: the WebSocket transport of the Rust SDK flushes its queue before it closes

Each step of the transport is a step of its outbox. Without a failure of the socket the write pump stops
only when the close frame is written, and that is the last message of the queue, or at the end of an empty
queue whose sender is gone.
-/

namespace Rtvbp.Rust.Flush

open Rtvbp.Lib
open Rtvbp.Rust.WebSocket

variable {δ : Type} {s : State δ} {t u : Transport} {b : Outbox (Message δ)} {maxMisses : Nat}

/-! ## The invariant -/

/-- The write pump and the message that it writes; a pump that has stopped has written everything. -/
def PumpInv (b : Outbox (Message δ)) : WritePc → Prop
  | .receiving => b.writing = none
  | .writing kind => ∃ m, b.writing = some m ∧ m.kind = kind
  | .stopped => b.writing = none ∧ b.queue = [] ∧ b.closed = true

/-- The outbox holds the messages of the outgoing queue, and is closed when the sender is gone. -/
structure Inv (s : State δ) : Prop where
  started : s.transport.started = true
  items : s.outbox.queue.map Message.kind = s.transport.outgoing
  closed : s.outbox.closed = !s.transport.sender
  pump : PumpInv s.outbox s.transport.writePump

/-- What a step that has nothing to do with the outgoing queue leaves. -/
structure Same (t u : Transport) : Prop where
  started : u.started = t.started
  outgoing : u.outgoing = t.outgoing
  sender : u.sender = t.sender
  writePump : u.writePump = t.writePump

theorem Same.refl (t : Transport) : Same t t := ⟨rfl, rfl, rfl, rfl⟩

theorem Same.trans {v : Transport} (h : Same t u) (h' : Same u v) : Same t v :=
  ⟨h'.started.trans h.started, h'.outgoing.trans h.outgoing, h'.sender.trans h.sender,
    h'.writePump.trans h.writePump⟩

theorem same_finish (t : Transport) (terminal : Terminal) : Same t (t.finish terminal) := by
  unfold Transport.finish
  split_ifs
  · exact .refl t
  · exact ⟨rfl, rfl, rfl, rfl⟩

theorem Inv.same (h : Inv ⟨t, b⟩) (hsame : Same t u) : Inv ⟨u, b⟩ := by
  refine ⟨hsame.started.trans h.started, ?_, ?_, ?_⟩
  · show b.queue.map Message.kind = u.outgoing
    rw [hsame.outgoing]
    exact h.items
  · show b.closed = !u.sender
    rw [hsame.sender]
    exact h.closed
  · show PumpInv b u.writePump
    rw [hsame.writePump]
    exact h.pump

/-- The queue is open as long as the sender is there. -/
theorem Inv.closed_iff (h : Inv s) : s.outbox.closed = true ↔ s.transport.sender = false := by
  rw [h.closed]
  simp

/-! ## The senders -/

/-- A message that is added to an open queue, or the last one, does not disturb the pump. -/
theorem PumpInv.append {pc : WritePc} (h : PumpInv b pc) (hpc : pc ≠ .stopped) (queue : List (Message δ))
    (closed : Bool) (admitted : List (Message δ)) : PumpInv { b with queue, closed, admitted } pc := by
  cases pc with
  | receiving | writing kind => exact h
  | stopped => exact absurd rfl hpc

/-- A message is sent, if the sender is there. -/
theorem Inv.enqueue (h : Inv s) (m : Message δ) (hm : ¬ m.isClose) :
    Inv (s.enqueue m) ∧ Outbox.Step Message.isClose s.outbox (s.enqueue m).outbox := by
  unfold State.enqueue
  cases hu : s.transport.enqueue m.kind with
  | none => exact ⟨h, .same⟩
  | some u =>
    refine ⟨?_, .push m hm⟩
    simp only [Transport.enqueue, Option.ite_none_right_eq_some] at hu
    obtain ⟨⟨hsender, hpump⟩, hu⟩ := hu
    obtain rfl := Option.some.inj hu
    have hopen : ¬ s.outbox.closed = true := by
      rw [h.closed_iff, hsender]
      decide
    rw [Outbox.push, if_neg hopen]
    refine ⟨h.started, ?_, h.closed, h.pump.append hpump _ _ _⟩
    show (s.outbox.queue ++ [m]).map Message.kind = _
    rw [List.map_append, h.items]
    rfl

/-- `close` closes the queue, with the close frame if it is open. -/
theorem Inv.close (h : Inv s) (data : δ) :
    Inv (s.close data) ∧ Outbox.Step Message.isClose s.outbox (s.close data).outbox := by
  unfold State.close
  split_ifs with hopen
  · refine ⟨?_, .closeWith _⟩
    obtain ⟨hsender, hpump⟩ := hopen
    have hnot : ¬ s.outbox.closed = true := by
      rw [h.closed_iff, hsender]
      decide
    rw [Outbox.closeWith, if_neg hnot, Outbox.push, if_neg hnot, Transport.close, if_pos ⟨hsender, hpump⟩]
    refine ⟨h.started, ?_, rfl, h.pump.append hpump _ _ _⟩
    show (s.outbox.queue ++ [(⟨.close, data⟩ : Message δ)]).map Message.kind = _
    rw [List.map_append, h.items]
    rfl
  · refine ⟨⟨h.started, h.items, rfl, ?_⟩, .shutdown⟩
    have hpump := h.pump
    show PumpInv _ s.transport.writePump
    cases hpc : s.transport.writePump with
    | receiving | writing kind =>
      rw [hpc] at hpump
      exact hpump
    | stopped =>
      rw [hpc] at hpump
      exact ⟨hpump.1, hpump.2.1, rfl⟩

/-! ## The pumps -/

/-- A step of `finish`. -/
theorem Inv.finishStep (h : Inv s) (hstep : s.transport.finishStep = some u) :
    Inv ⟨u, follow s.transport s.outbox .finish⟩ ∧
      Outbox.Step Message.isClose s.outbox (follow s.transport s.outbox .finish) := by
  cases hpc : s.transport.finishPc <;>
    simp only [Transport.finishStep, hpc, reduceCtorEq, Option.some.injEq] at hstep <;> subst hstep <;>
    simp only [follow, hpc, if_true]
  case recorded =>
    refine ⟨⟨h.started, h.items, rfl, ?_⟩, .shutdown⟩
    have hpump := h.pump
    show PumpInv _ s.transport.writePump
    cases hpc : s.transport.writePump with
    | receiving | writing kind =>
      rw [hpc] at hpump
      exact hpump
    | stopped =>
      rw [hpc] at hpump
      exact ⟨hpump.1, hpump.2.1, rfl⟩
  case senderTaken | controlClosed | mediaClosed => exact ⟨h.same ⟨rfl, rfl, rfl, rfl⟩, .same⟩

/-- One step of the pumps and of `finish`, without a failure of the socket. -/
theorem Inv.socket (h : Inv s) (hflushed : s.outbox.Flushed Message.isClose) {a : SocketAction}
    (hfail : NoFailure s (.socket a)) (hstep : s.transport.step a = some u) :
    Inv ⟨u, follow s.transport s.outbox a⟩ ∧
      Outbox.Step Message.isClose s.outbox (follow s.transport s.outbox a) := by
  cases a with
  | start =>
    simp [Transport.step, h.started] at hstep
  | text data | binary data =>
    simp only [Transport.step, Option.ite_none_right_eq_some] at hstep
    obtain rfl := Option.some.inj hstep.2
    exact ⟨h.same ⟨rfl, rfl, rfl, rfl⟩, .same⟩
  | readCloses => exact hfail.elim
  | readFails error => exact hfail.elim
  | receive =>
    simp only [Transport.step] at hstep
    split at hstep <;> simp only [reduceCtorEq, Option.some.injEq] at hstep
    rename_i kind rest hstarted hreceiving hitems
    subst hstep
    have hpump := h.pump
    rw [hreceiving] at hpump
    refine ⟨?_, .take hpump⟩
    have hqueue := h.items
    rw [hitems] at hqueue
    obtain ⟨m, queue, hcons, hkind, hrest⟩ := List.map_eq_cons_iff.mp hqueue
    have htake : s.outbox.take = { s.outbox with queue := queue, writing := some m } := by
      rw [Outbox.take, hcons]
      rfl
    show Inv ⟨_, s.outbox.take⟩
    rw [htake]
    exact ⟨h.started, hrest, h.closed, m, rfl, hkind⟩
  | receiveEnds =>
    simp only [Transport.step] at hstep
    split at hstep <;> simp only [reduceCtorEq, Option.ite_none_left_eq_some] at hstep
    rename_i hstarted hreceiving hitems
    obtain ⟨hsender, hstep⟩ := hstep
    obtain rfl := Option.some.inj hstep
    have hpump := h.pump
    rw [hreceiving] at hpump
    have hqueue := h.items
    rw [hitems] at hqueue
    have hnil := List.map_eq_nil_iff.mp hqueue
    refine ⟨⟨h.started, ?_, h.closed, hpump, hnil, h.closed_iff.mpr (by simpa using hsender)⟩, .same⟩
    show s.outbox.queue.map Message.kind = []
    rw [hnil]
    rfl
  | writes error =>
    cases error with
    | some message => exact hfail.elim
    | none =>
      simp only [Transport.step] at hstep
      split at hstep <;> simp only [reduceCtorEq, Option.some.injEq] at hstep
      rename_i kind hwriting
      have hpump := h.pump
      rw [hwriting] at hpump
      obtain ⟨m, hm, hkind⟩ := hpump
      refine ⟨?_, .wrote⟩
      have hack : Same s.transport (s.transport.acknowledge kind none) := by
        cases kind <;> exact ⟨rfl, rfl, rfl, rfl⟩
      have hinv := h.same hack
      cases kind with
      | text | binary | ping =>
        subst hstep
        exact ⟨hinv.started, hinv.items, hinv.closed, rfl⟩
      | close =>
        -- the close frame was the last message
        obtain ⟨hqueue, hclosed⟩ := hflushed.queue_of_close hkind hm
        have hfinish := hinv.same (same_finish _ .orderly)
        subst hstep
        refine ⟨hfinish.started, ?_, hfinish.closed, rfl, hqueue, hclosed⟩
        show s.outbox.queue.map Message.kind = []
        rw [hqueue]
        rfl
  | finish => exact h.finishStep hstep

/-- One step of the monitor. -/
theorem Inv.monitor (h : Inv s) {a : MonitorAction} (payload : δ)
    (hstep : s.transport.monitorStep maxMisses a = some u) :
    Inv ⟨u, followMonitor u s.outbox payload a⟩ ∧
      Outbox.Step Message.isClose s.outbox (followMonitor u s.outbox payload a) := by
  have hsame : Same s.transport u → (∀ data : δ, followMonitor u s.outbox data a = s.outbox) →
      Inv ⟨u, followMonitor u s.outbox payload a⟩ ∧
        Outbox.Step Message.isClose s.outbox (followMonitor u s.outbox payload a) := by
    intro hu hfollow
    rw [hfollow]
    exact ⟨h.same hu, .same⟩
  cases a with
  | interval | pong =>
    simp only [Transport.monitorStep, Option.ite_none_right_eq_some] at hstep
    obtain rfl := Option.some.inj hstep.2
    exact hsame ⟨rfl, rfl, rfl, rfl⟩ fun _ => rfl
  | ping =>
    simp only [Transport.monitorStep, Option.ite_none_right_eq_some] at hstep
    obtain ⟨-, hstep⟩ := hstep
    cases henqueue : s.transport.enqueue .ping with
    | none =>
      rw [henqueue] at hstep
      obtain rfl := Option.some.inj hstep
      exact hsame ⟨rfl, rfl, rfl, rfl⟩ fun _ => rfl
    | some v =>
      rw [henqueue] at hstep
      obtain rfl := Option.some.inj hstep
      obtain ⟨hinv, houtbox⟩ := h.enqueue ⟨.ping, payload⟩ (by simp [Message.isClose])
      have heq : s.enqueue ⟨.ping, payload⟩ = ⟨v, s.outbox.push ⟨.ping, payload⟩⟩ := by
        simp only [State.enqueue, henqueue]
      rw [heq] at hinv houtbox
      exact ⟨hinv.same ⟨rfl, rfl, rfl, rfl⟩, houtbox⟩
  | acknowledged =>
    simp only [Transport.monitorStep] at hstep
    split at hstep <;> simp only [reduceCtorEq, Option.some.injEq] at hstep <;> subst hstep <;>
      exact hsame ⟨rfl, rfl, rfl, rfl⟩ fun _ => rfl
  | timeout =>
    simp only [Transport.monitorStep, Option.ite_none_right_eq_some] at hstep
    obtain rfl := Option.some.inj hstep.2
    refine hsame ?_ fun _ => rfl
    unfold Transport.miss
    split_ifs
    · exact (same_finish _ _).trans ⟨rfl, rfl, rfl, rfl⟩
    · exact ⟨rfl, rfl, rfl, rfl⟩
  | closed =>
    simp only [Transport.monitorStep] at hstep
    split at hstep
    · simp only [Option.ite_none_right_eq_some] at hstep
      obtain rfl := Option.some.inj hstep.2
      exact hsame ⟨rfl, rfl, rfl, rfl⟩ fun _ => rfl
    · cases hstep

/-! ## Runs -/

/-- Every step without a failure is a step of the outbox. -/
theorem Inv.step (h : Inv s) (hflushed : s.outbox.Flushed Message.isClose) {a : Action δ} {t : State δ}
    (hfail : NoFailure s a) (hstep : Flush.step maxMisses s a = some t) :
    Inv t ∧ Outbox.Step Message.isClose s.outbox t.outbox := by
  cases a with
  | socket a =>
    obtain ⟨u, hu, rfl⟩ := Option.map_eq_some_iff.mp hstep
    exact h.socket hflushed hfail hu
  | monitor a payload =>
    obtain ⟨u, hu, rfl⟩ := Option.map_eq_some_iff.mp hstep
    exact h.monitor payload hu
  | send data =>
    obtain rfl := Option.some.inj hstep
    exact h.enqueue _ (by simp [Message.isClose])
  | writeFrame data =>
    obtain rfl := Option.some.inj hstep
    exact h.enqueue _ (by simp [Message.isClose])
  | close data =>
    obtain rfl := Option.some.inj hstep
    exact h.close data

theorem inv_start (h : Start s) : Inv s ∧ s.outbox = .empty := by
  obtain ⟨monitor, -, hstep, hempty⟩ := h
  simp only [Transport.step, Transport.initial, Bool.false_eq_true, if_false, Option.some.injEq] at hstep
  refine ⟨?_, hempty⟩
  constructor <;> rw [← hstep] <;> rw [hempty]
  · rfl
  · rfl
  · exact rfl

/-- The write pump goes on as long as something is not written. -/
theorem Inv.progresses (maxMisses : Nat) (h : Inv s)
    (hrest : s.outbox.writing ≠ none ∨ s.outbox.queue ≠ []) :
    ∃ a t, NoFailure s a ∧ (machine maxMisses).Progresses State.outbox Action.isWriter s a t := by
  have hpump := h.pump
  cases hpc : s.transport.writePump with
  | receiving =>
    rw [hpc] at hpump
    have hqueue : s.outbox.queue ≠ [] := hrest.resolve_left fun hne => hne hpump
    obtain ⟨m, rest, hcons⟩ := List.exists_cons_of_ne_nil hqueue
    have hitems := h.items
    rw [hcons] at hitems
    refine ⟨.socket .receive, ⟨{ s.transport with
      writePump := .writing m.kind, outgoing := rest.map Message.kind }, s.outbox.take⟩,
      trivial, trivial, ?_, .inl ⟨hqueue, hpump, rfl⟩⟩
    show (s.transport.step .receive).map _ = _
    simp only [Transport.step, h.started, hpc, ← hitems, List.map_cons, Option.map_some]
    rfl
  | writing kind =>
    rw [hpc] at hpump
    obtain ⟨m, hm, -⟩ := hpump
    refine ⟨.socket (.writes none), ⟨(s.transport.acknowledge kind none).afterWrite kind none,
      s.outbox.wrote⟩, trivial, trivial, ?_, .inr ⟨by simp [hm], rfl⟩⟩
    show (s.transport.step (.writes none)).map _ = _
    simp only [Transport.step, hpc, Option.map_some]
    rfl
  | stopped =>
    rw [hpc] at hpump
    rcases hrest with hne | hne
    · exact absurd hpump.1 hne
    · exact absurd hpump.2.1 hne

/-- The Rust transport flushes its queue before it closes. -/
theorem flushes (maxMisses : Nat) :
    (machine (δ := δ) maxMisses).Flushes NoFailure State.outbox Message.isClose Action.isWriter :=
  .of_invariant (I := Inv) (fun _ hs => inv_start hs)
    (fun _ _ _ h hflushed hfail hstep => h.step hflushed hfail hstep)
    fun _ h _ hrest => h.progresses maxMisses hrest

end Rtvbp.Rust.Flush
