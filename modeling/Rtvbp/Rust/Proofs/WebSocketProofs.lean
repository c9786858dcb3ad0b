import Rtvbp.Rust.WebSocket

/-!
# The end of the WebSocket transport

A socket that the peer closes in an orderly way ends the transport with `Terminal::Orderly`, whichever of
the pumps sees it first. What the inboxes are closed with is that terminal state.
-/

namespace Rtvbp.Rust.WebSocket

open Rtvbp.Lib

variable {t u : Transport}

/-- The transport ends, if it does, in an orderly way. -/
structure Transport.Orderly (t : Transport) : Prop where
  terminal : ∀ terminal, t.terminal = some terminal → terminal = .orderly
  control : ∀ terminal, t.control.closed = some terminal → terminal = .orderly
  media : ∀ terminal, t.media.closed = some terminal → terminal = .orderly

namespace Transport.Orderly

theorem initial : Transport.initial.Orderly := ⟨nofun, nofun, nofun⟩

/-- Only these fields matter. -/
theorem of_eq (h : t.Orderly) (hterminal : u.terminal = t.terminal)
    (hcontrol : u.control.closed = t.control.closed) (hmedia : u.media.closed = t.media.closed) :
    u.Orderly := by
  refine ⟨?_, ?_, ?_⟩
  · rw [hterminal]
    exact h.terminal
  · rw [hcontrol]
    exact h.control
  · rw [hmedia]
    exact h.media

theorem finish (h : t.Orderly) {terminal : Terminal} (hterminal : terminal = .orderly) :
    (t.finish terminal).Orderly := by
  unfold Transport.finish
  split_ifs
  · exact h
  · refine ⟨?_, h.control, h.media⟩
    intro e he
    exact (Option.some.inj he).symm.trans hterminal

theorem terminal_getD (h : t.Orderly) : t.terminal.getD .orderly = .orderly := by
  cases he : t.terminal with
  | none => rfl
  | some terminal => exact h.terminal terminal he

/-- The media channel is closed by the shutdown, or by `finish`. -/
theorem closeMedia (h : t.Orderly) {terminal : Terminal} (hterminal : terminal = .orderly) :
    Transport.Orderly { t with media := t.media.close terminal } := by
  refine ⟨h.terminal, h.control, fun e he => ?_⟩
  rcases Mailbox.closed_of_close he with he | rfl
  · exact h.media e he
  · exact hterminal

theorem finishStep (h : t.Orderly) (hstep : t.finishStep = some u) : u.Orderly := by
  cases hpc : t.finishPc <;>
    simp only [Transport.finishStep, hpc, reduceCtorEq, Option.some.injEq] at hstep <;> subst hstep
  case recorded | mediaClosed => exact h.of_eq rfl rfl rfl
  case senderTaken =>
    refine ⟨h.terminal, fun e he => ?_, h.media⟩
    rcases Mailbox.closed_of_close he with he | rfl
    · exact h.control e he
    · exact h.terminal_getD
  case controlClosed => exact (h.closeMedia h.terminal_getD).of_eq rfl rfl rfl

theorem acknowledge (h : t.Orderly) (command : Outbound) (error : Option String) :
    (t.acknowledge command error).Orderly := by
  cases command <;> exact h.of_eq rfl rfl rfl

theorem afterWrite (h : t.Orderly) (command : Outbound) {error : Option String}
    (herror : ∀ message, error = some message → normalizeErrorMessage message = .orderly) :
    (t.afterWrite command error).Orderly := by
  cases error with
  | none =>
    cases command with
    | close => exact (h.finish rfl).of_eq rfl rfl rfl
    | text | binary | ping => exact h.of_eq rfl rfl rfl
  | some message =>
    have hfinish := h.finish (herror message rfl)
    cases command <;> exact hfinish.of_eq rfl rfl rfl

theorem enqueue (h : t.Orderly) {command : Outbound} (hu : t.enqueue command = some u) : u.Orderly := by
  simp only [Transport.enqueue, Option.ite_none_right_eq_some] at hu
  obtain rfl := Option.some.inj hu.2
  exact h.of_eq rfl rfl rfl

theorem close (h : t.Orderly) : t.close.Orderly := by
  unfold Transport.close
  split_ifs <;> exact h.of_eq rfl rfl rfl

/-- The errors of the closed channels are not failures. -/
theorem closedError_eq (h : t.Orderly) : t.closedError = .closed := by
  rw [Transport.closedError, h.terminal_getD]
  rfl

/-- A socket that ends in an orderly way ends the transport in that way. -/
theorem step (h : t.Orderly) {a : SocketAction}
    (hread : ∀ error, a = .readFails error → normalizeSocketError error = .orderly)
    (hwrite : ∀ message, a = .writes (some message) → normalizeErrorMessage message = .orderly)
    (hstep : t.step a = some u) : u.Orderly := by
  cases a with
  | start =>
    simp only [Transport.step, Option.ite_none_left_eq_some] at hstep
    obtain rfl := Option.some.inj hstep.2
    exact h.of_eq rfl rfl rfl
  | text data =>
    simp only [Transport.step, Option.ite_none_right_eq_some] at hstep
    obtain rfl := Option.some.inj hstep.2
    exact h.of_eq rfl (Mailbox.push_closed _) rfl
  | binary data =>
    simp only [Transport.step, Option.ite_none_right_eq_some] at hstep
    obtain rfl := Option.some.inj hstep.2
    exact h.of_eq rfl rfl (Mailbox.push_closed _)
  | readCloses =>
    simp only [Transport.step, Option.ite_none_right_eq_some] at hstep
    obtain rfl := Option.some.inj hstep.2
    exact (h.finish rfl).of_eq rfl rfl rfl
  | readFails error =>
    simp only [Transport.step, Option.ite_none_right_eq_some] at hstep
    obtain rfl := Option.some.inj hstep.2
    exact (h.finish (hread error rfl)).of_eq rfl rfl rfl
  | receive =>
    simp only [Transport.step] at hstep
    split at hstep <;> simp only [reduceCtorEq, Option.some.injEq] at hstep
    subst hstep
    exact h.of_eq rfl rfl rfl
  | receiveEnds =>
    simp only [Transport.step] at hstep
    split at hstep <;> simp only [reduceCtorEq, Option.ite_none_left_eq_some] at hstep
    obtain rfl := Option.some.inj hstep.2
    exact h.of_eq rfl rfl rfl
  | writes error =>
    simp only [Transport.step] at hstep
    split at hstep <;> simp only [reduceCtorEq, Option.some.injEq] at hstep
    subst hstep
    exact (h.acknowledge _ error).afterWrite _ fun message he => hwrite message (by rw [he])
  | finish => exact h.finishStep hstep

end Transport.Orderly

@[simp] theorem Transport.finish_control (terminal : Terminal) :
    (t.finish terminal).control = t.control := by
  unfold Transport.finish
  split_ifs <;> rfl

@[simp] theorem Transport.stopWriting_control : t.stopWriting.control = t.control := rfl

@[simp] theorem Transport.afterWrite_control (command : Outbound) (error : Option String) :
    ((t.acknowledge command error).afterWrite command error).control = t.control := by
  cases error <;> cases command <;> simp [Transport.afterWrite, Transport.acknowledge]

@[simp] theorem Transport.close_control : t.close.control = t.control := by
  unfold Transport.close
  split_ifs <;> rfl

theorem Transport.enqueue_control {command : Outbound} (hu : t.enqueue command = some u) :
    u.control = t.control := by
  simp only [Transport.enqueue, Option.ite_none_right_eq_some] at hu
  obtain rfl := Option.some.inj hu.2
  rfl

/-- What the socket does to the control inbox: it pushes a text message, or closes the inbox, or nothing. -/
theorem Transport.step_control {a : SocketAction} (hstep : t.step a = some u) :
    (∃ data, a = .text data ∧ u.control = t.control.push data) ∨
      ((∀ data, a ≠ .text data) ∧
        (u.control = t.control ∨ ∃ terminal, u.control = t.control.close terminal)) := by
  cases a with
  | text data =>
    simp only [Transport.step, Option.ite_none_right_eq_some] at hstep
    obtain rfl := Option.some.inj hstep.2
    exact .inl ⟨data, rfl, rfl⟩
  | start =>
    simp only [Transport.step, Option.ite_none_left_eq_some] at hstep
    obtain rfl := Option.some.inj hstep.2
    exact .inr ⟨by simp, .inl rfl⟩
  | binary _ | readCloses | readFails _ =>
    simp only [Transport.step, Option.ite_none_right_eq_some] at hstep
    obtain rfl := Option.some.inj hstep.2
    exact .inr ⟨by simp, .inl (by simp)⟩
  | receive | writes _ =>
    simp only [Transport.step] at hstep
    split at hstep <;> simp only [reduceCtorEq, Option.some.injEq] at hstep
    subst hstep
    exact .inr ⟨by simp, .inl (by simp)⟩
  | receiveEnds =>
    simp only [Transport.step] at hstep
    split at hstep <;> simp only [reduceCtorEq, Option.ite_none_left_eq_some] at hstep
    obtain rfl := Option.some.inj hstep.2
    exact .inr ⟨by simp, .inl rfl⟩
  | finish =>
    refine .inr ⟨by simp, ?_⟩
    simp only [Transport.step] at hstep
    cases hpc : t.finishPc <;>
      simp only [Transport.finishStep, hpc, reduceCtorEq, Option.some.injEq] at hstep <;> subst hstep
    case senderTaken => exact .inr ⟨_, rfl⟩
    all_goals exact .inl rfl

/-- The monitor leaves the inboxes alone, and ends the transport only when it gives up on the peer. -/
theorem Transport.monitorStep_orderly {maxMisses : Nat} {a : MonitorAction} (h : t.Orderly)
    (halive : a = .timeout → t.misses + 1 < maxMisses) (hstep : t.monitorStep maxMisses a = some u) :
    u.Orderly ∧ u.control = t.control := by
  cases a with
  | ping =>
    simp only [Transport.monitorStep, Option.ite_none_right_eq_some] at hstep
    obtain ⟨-, hstep⟩ := hstep
    split at hstep <;> obtain rfl := Option.some.inj hstep
    · rename_i v hv
      have hcontrol : v.control = t.control := Transport.enqueue_control hv
      exact ⟨(h.enqueue hv).of_eq rfl rfl rfl, hcontrol⟩
    · exact ⟨h.of_eq rfl rfl rfl, rfl⟩
  | acknowledged =>
    simp only [Transport.monitorStep] at hstep
    split at hstep <;> simp only [reduceCtorEq, Option.some.injEq] at hstep
    all_goals
      subst hstep
      exact ⟨h.of_eq rfl rfl rfl, rfl⟩
  | timeout =>
    simp only [Transport.monitorStep, Option.ite_none_right_eq_some] at hstep
    obtain rfl := Option.some.inj hstep.2
    have hmore : ¬ maxMisses ≤ t.misses + 1 := not_le.mpr (halive rfl)
    rw [Transport.miss, if_neg hmore]
    exact ⟨h.of_eq rfl rfl rfl, rfl⟩
  | closed =>
    simp only [Transport.monitorStep] at hstep
    split at hstep <;> simp only [reduceCtorEq, Option.ite_none_right_eq_some] at hstep
    obtain rfl := Option.some.inj hstep.2
    exact ⟨h.of_eq rfl rfl rfl, rfl⟩
  | interval | pong =>
    simp only [Transport.monitorStep, Option.ite_none_right_eq_some] at hstep
    obtain rfl := Option.some.inj hstep.2
    exact ⟨h.of_eq rfl rfl rfl, rfl⟩

end Rtvbp.Rust.WebSocket
