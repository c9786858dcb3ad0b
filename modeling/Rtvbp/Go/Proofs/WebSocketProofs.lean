import Rtvbp.Go.WebSocket

/-!
# The end of the WebSocket transport

A socket that the peer closes in an orderly way ends the transport with `io.EOF`, whichever of the pumps
sees it first. What the inboxes are closed with is that error.
-/

namespace Rtvbp.Go.WebSocket

open Rtvbp.Lib

variable {ε : Type} {t u : Transport ε}

/-- The transport ends, if it does, with `io.EOF`. -/
structure Transport.Orderly (t : Transport ε) : Prop where
  terminal : ∀ err, t.terminalErr = some err → err = .eof
  control : ∀ err, t.control.closed = some err → err = .eof ∧ t.finishPc ≠ .idle
  media : ∀ err, t.media.closed = some err → err = .eof

namespace Transport.Orderly

/-- Only these fields matter. -/
theorem of_eq (h : t.Orderly) (hterminal : u.terminalErr = t.terminalErr)
    (hcontrol : u.control.closed = t.control.closed) (hmedia : u.media.closed = t.media.closed)
    (hfinish : u.finishPc = t.finishPc) : u.Orderly := by
  refine ⟨?_, ?_, ?_⟩
  · rw [hterminal]
    exact h.terminal
  · rw [hcontrol, hfinish]
    exact h.control
  · rw [hmedia]
    exact h.media

theorem finish (h : t.Orderly) {err : Err ε} (herr : err = .eof) : (t.finish err).Orderly := by
  unfold Transport.finish
  split_ifs with hidle
  · refine ⟨?_, ?_, h.media⟩
    · intro e he
      exact (Option.some.inj he).symm.trans herr
    · intro e he
      exact absurd hidle (h.control e he).2
  · exact h

theorem terminal_getD (h : t.Orderly) : t.terminalErr.getD .eof = .eof := by
  cases he : t.terminalErr with
  | none => rfl
  | some err => exact h.terminal err he

theorem finishStep (h : t.Orderly) (hstep : t.finishStep = some u) : u.Orderly := by
  cases hpc : t.finishPc <;>
    simp only [Transport.finishStep, hpc, reduceCtorEq, Option.some.injEq] at hstep <;> subst hstep
  case recorded | mediaClosed | canceled | connClosed =>
    exact ⟨h.terminal, fun e he => ⟨(h.control e he).1, by simp⟩, h.media⟩
  case outgoingShutDown =>
    refine ⟨h.terminal, fun e he => ⟨?_, by simp⟩, h.media⟩
    rcases Mailbox.closed_of_close he with he | rfl
    · exact (h.control e he).1
    · exact h.terminal_getD
  case controlClosed =>
    refine ⟨h.terminal, fun e he => ⟨(h.control e he).1, by simp⟩, fun e he => ?_⟩
    rcases Mailbox.closed_of_close he with he | rfl
    · exact h.media e he
    · exact h.terminal_getD

theorem acknowledge (h : t.Orderly) (message : OutboundMessage) (err : Option (Err ε)) :
    (t.acknowledge message err).Orderly := by
  unfold Transport.acknowledge
  split_ifs
  · exact h.of_eq rfl rfl rfl rfl
  · exact h

theorem afterWrite (h : t.Orderly) (message : OutboundMessage) {err : Option (Err ε)}
    (herr : ∀ e, err = some e → normalizeSocketError e = .eof) : (t.afterWrite message err).Orderly := by
  cases err with
  | none =>
    cases message with
    | close => exact (h.finish rfl).of_eq rfl rfl rfl rfl
    | text | binary | ping => exact h.of_eq rfl rfl rfl rfl
  | some e =>
    have hfinish := h.finish (herr e rfl)
    cases message <;> exact hfinish.of_eq rfl rfl rfl rfl

theorem enqueue (h : t.Orderly) {message : OutboundMessage} (hu : t.enqueue message = some u) :
    u.Orderly := by
  obtain ⟨outgoing, -, rfl⟩ := Option.map_eq_some_iff.mp hu
  exact h.of_eq rfl rfl rfl rfl

theorem closeCommand (h : t.Orderly) : t.closeCommand.Orderly := by
  unfold Transport.closeCommand
  split <;> exact h.of_eq rfl rfl rfl rfl

/-- A socket that ends in an orderly way closes the transport with `io.EOF`. -/
theorem step (h : t.Orderly) {a : SocketAction ε}
    (hread : ∀ err, a = .readFails err → normalizeSocketError err = .eof)
    (hwrite : ∀ err, a = .writes (some err) → normalizeSocketError err = .eof)
    (hstep : t.step a = some u) : u.Orderly := by
  cases a with
  | newTransport =>
    simp only [Transport.step, Option.ite_none_left_eq_some] at hstep
    obtain rfl := Option.some.inj hstep.2
    exact h.of_eq rfl rfl rfl rfl
  | text data =>
    simp only [Transport.step, Option.ite_none_right_eq_some] at hstep
    obtain rfl := Option.some.inj hstep.2
    exact h.of_eq rfl (Mailbox.push_closed _) rfl rfl
  | binary data =>
    simp only [Transport.step, Option.ite_none_right_eq_some] at hstep
    obtain rfl := Option.some.inj hstep.2
    exact h.of_eq rfl rfl (Mailbox.push_closed _) rfl
  | readFails err =>
    simp only [Transport.step, Option.ite_none_right_eq_some] at hstep
    obtain rfl := Option.some.inj hstep.2
    exact (h.finish (hread err rfl)).of_eq rfl rfl rfl rfl
  | pop =>
    simp only [Transport.step] at hstep
    split at hstep <;> simp only [reduceCtorEq, Option.some.injEq] at hstep
    subst hstep
    exact h.of_eq rfl rfl rfl rfl
  | popEnds =>
    simp only [Transport.step] at hstep
    split at hstep <;> simp only [reduceCtorEq, Option.ite_none_right_eq_some] at hstep
    obtain rfl := Option.some.inj hstep.2
    exact h.of_eq rfl rfl rfl rfl
  | writes err =>
    simp only [Transport.step] at hstep
    split at hstep <;> simp only [reduceCtorEq, Option.some.injEq] at hstep
    subst hstep
    exact (h.acknowledge _ err).afterWrite _ fun e he => hwrite e (by rw [he])
  | writeFinished =>
    simp only [Transport.step] at hstep
    split at hstep <;> simp only [reduceCtorEq, Option.ite_none_right_eq_some] at hstep
    obtain rfl := Option.some.inj hstep.2
    exact h.of_eq rfl rfl rfl rfl
  | finish => exact h.finishStep hstep

end Transport.Orderly

@[simp] theorem Transport.finish_control (err : Err ε) : (t.finish err).control = t.control := by
  unfold Transport.finish
  split_ifs <;> rfl

@[simp] theorem Transport.acknowledge_control (message : OutboundMessage) (err : Option (Err ε)) :
    (t.acknowledge message err).control = t.control := by
  unfold Transport.acknowledge
  split_ifs <;> rfl

@[simp] theorem Transport.afterWrite_control (message : OutboundMessage) (err : Option (Err ε)) :
    (t.afterWrite message err).control = t.control := by
  cases err <;> cases message <;> simp [Transport.afterWrite]

@[simp] theorem Transport.closeCommand_control : t.closeCommand.control = t.control := by
  unfold Transport.closeCommand
  split <;> rfl

theorem Transport.enqueue_control {message : OutboundMessage} (hu : t.enqueue message = some u) :
    u.control = t.control := by
  obtain ⟨outgoing, -, rfl⟩ := Option.map_eq_some_iff.mp hu
  rfl

/-- What the socket does to the control inbox: it pushes a text message, or closes the inbox, or nothing. -/
theorem Transport.step_control {a : SocketAction ε} (hstep : t.step a = some u) :
    (∃ text, a = .text text ∧ u.control = t.control.push text) ∨
      ((∀ text, a ≠ .text text) ∧ (u.control = t.control ∨ ∃ err, u.control = t.control.close err)) := by
  cases a with
  | text data =>
    simp only [Transport.step, Option.ite_none_right_eq_some] at hstep
    obtain rfl := Option.some.inj hstep.2
    exact .inl ⟨data, rfl, rfl⟩
  | newTransport =>
    simp only [Transport.step, Option.ite_none_left_eq_some] at hstep
    obtain rfl := Option.some.inj hstep.2
    exact .inr ⟨by simp, .inl rfl⟩
  | binary data | readFails err =>
    simp only [Transport.step, Option.ite_none_right_eq_some] at hstep
    obtain rfl := Option.some.inj hstep.2
    exact .inr ⟨by simp, .inl (by simp)⟩
  | pop | popEnds | writes err | writeFinished =>
    simp only [Transport.step] at hstep
    split at hstep <;>
      simp only [reduceCtorEq, Option.some.injEq, Option.ite_none_right_eq_some] at hstep
    all_goals
      first
      | subst hstep
      | obtain rfl := hstep.2
      exact .inr ⟨by simp, .inl (by simp)⟩
  | finish =>
    refine .inr ⟨by simp, ?_⟩
    simp only [Transport.step] at hstep
    cases hpc : t.finishPc <;>
      simp only [Transport.finishStep, hpc, reduceCtorEq, Option.some.injEq] at hstep <;> subst hstep
    case outgoingShutDown => exact .inr ⟨_, rfl⟩
    all_goals exact .inl rfl

@[simp] theorem Transport.finish_monitor (err : Err ε) : (t.finish err).monitor = t.monitor := by
  unfold Transport.finish
  split_ifs <;> rfl

@[simp] theorem Transport.afterWrite_monitor (message : OutboundMessage) (err : Option (Err ε)) :
    ((t.acknowledge message err).afterWrite message err).monitor = t.monitor := by
  cases err <;> cases message <;> simp [Transport.afterWrite, Transport.acknowledge]

/-- The pumps leave the monitor alone. -/
theorem Transport.step_monitor {a : SocketAction ε} (hstep : t.step a = some u) :
    u.monitor = t.monitor := by
  cases a with
  | newTransport =>
    simp only [Transport.step, Option.ite_none_left_eq_some] at hstep
    obtain rfl := Option.some.inj hstep.2
    rfl
  | text _ | binary _ | readFails _ =>
    simp only [Transport.step, Option.ite_none_right_eq_some] at hstep
    obtain rfl := Option.some.inj hstep.2
    simp
  | pop | popEnds | writes _ | writeFinished =>
    simp only [Transport.step] at hstep
    split at hstep <;>
      simp only [reduceCtorEq, Option.some.injEq, Option.ite_none_right_eq_some] at hstep
    all_goals
      first
      | subst hstep
      | obtain rfl := hstep.2
      simp
  | finish =>
    simp only [Transport.step] at hstep
    cases hpc : t.finishPc <;>
      simp only [Transport.finishStep, hpc, reduceCtorEq, Option.some.injEq] at hstep <;> subst hstep
    all_goals rfl

/-- Where there is no monitor it takes no step. -/
theorem Transport.monitorStep_off {maxMisses : Int} {canceled : Bool} (h : t.monitor = .off)
    (a : MonitorAction ε) : t.monitorStep maxMisses canceled a = none := by
  cases a <;> simp [Transport.monitorStep, h, MonitorPc.selecting]

@[simp] theorem Transport.closeCommand_monitor : t.closeCommand.monitor = t.monitor := by
  unfold Transport.closeCommand
  split <;> rfl

theorem Transport.enqueue_monitor {message : OutboundMessage} (hu : t.enqueue message = some u) :
    u.monitor = t.monitor := by
  obtain ⟨outgoing, -, rfl⟩ := Option.map_eq_some_iff.mp hu
  rfl

/-- The monitor leaves the inboxes alone, and ends the transport only when it gives up on the peer. -/
theorem Transport.monitorStep_orderly {maxMisses : Int} {canceled : Bool} {a : MonitorAction ε}
    (h : t.Orderly) (halive : a = .timeout → (t.misses + 1 : Nat) < maxMisses)
    (hstep : t.monitorStep maxMisses canceled a = some u) : u.Orderly ∧ u.control = t.control := by
  cases a with
  | ping =>
    simp only [Transport.monitorStep, Option.ite_none_right_eq_some] at hstep
    obtain ⟨-, hstep⟩ := hstep
    split_ifs at hstep
    · obtain rfl := Option.some.inj hstep
      exact ⟨h.of_eq rfl rfl rfl rfl, rfl⟩
    · split at hstep <;> obtain rfl := Option.some.inj hstep
      · rename_i v hv
        have hcontrol : v.control = t.control := Transport.enqueue_control hv
        exact ⟨(h.enqueue hv).of_eq rfl rfl rfl rfl, hcontrol⟩
      · exact ⟨h.of_eq rfl rfl rfl rfl, rfl⟩
  | acknowledged =>
    simp only [Transport.monitorStep] at hstep
    split at hstep <;> simp only [reduceCtorEq, Option.some.injEq] at hstep
    all_goals
      subst hstep
      exact ⟨h.of_eq rfl rfl rfl rfl, rfl⟩
  | pong matched =>
    simp only [Transport.monitorStep, Option.ite_none_right_eq_some] at hstep
    obtain rfl := Option.some.inj hstep.2
    split_ifs
    · exact ⟨h.of_eq rfl rfl rfl rfl, rfl⟩
    · exact ⟨h, rfl⟩
  | timeout =>
    simp only [Transport.monitorStep, Option.ite_none_right_eq_some] at hstep
    obtain rfl := Option.some.inj hstep.2
    have hmore : ¬ maxMisses ≤ (t.misses + 1 : Nat) := not_le.mpr (halive rfl)
    rw [Transport.miss, if_neg hmore]
    exact ⟨h.of_eq rfl rfl rfl rfl, rfl⟩
  | acquire | interval | finished | transportDone | ctxDone =>
    simp only [Transport.monitorStep, Option.ite_none_right_eq_some] at hstep
    obtain rfl := Option.some.inj hstep.2
    exact ⟨h.of_eq rfl rfl rfl rfl, rfl⟩

end Rtvbp.Go.WebSocket
