import Rtvbp.Rust.Session.Run
import Mathlib.Tactic

/-!
# Proofs: when a stop request reaches the supervisor

`run` tests `stop.requested` first and creates the future of its `select!` afterwards. A stop request
whose notification is issued in between reaches nobody. The stop is kept exactly if no future is
created that late.
-/

namespace Rtvbp.Rust.Run

open Rtvbp.Lib

variable {keepalive : KeepalivePolicy} {s t : State} {a : Action}

/-! ## What the operations leave alone -/

@[simp] theorem finishTerminal_pc : s.finishTerminal.pc = .returned := by
  unfold State.finishTerminal
  split_ifs <;> rfl

@[simp] theorem finishWithoutTransport_pc : s.finishWithoutTransport.pc = .returned :=
  finishTerminal_pc

@[simp] theorem recordReaderResult_pc (result : Joined) : (s.recordReaderResult result).pc = s.pc := by
  rcases result with _ | ⟨_ | _ | _⟩ | _ | _ <;> rfl

@[simp] theorem recordKeepaliveResult_pc (result : Joined) :
    (s.recordKeepaliveResult result).pc = s.pc := by
  cases result <;> rfl

@[simp] theorem recordBeginResult_pc (result : Joined) : (s.recordBeginResult result).pc = s.pc := by
  cases result <;> rfl

/-- A `select!` that is left is not entered again at once. -/
theorem leaveSelect_not_parked (h : s.pc.parked) : ¬ s.leaveSelect.pc.parked := by
  unfold State.leaveSelect
  split <;> simp_all [Pc.parked, State.shutdown]

theorem start_not_parked : ¬ (start keepalive s).pc.parked := by
  unfold start
  dsimp only
  split <;> simp [Pc.parked]

/-! ## The invariant -/

/-- `run` is parked and its future has not been notified. -/
def Pc.waiting : Pc → Bool
  | .connecting notified | .beginning notified | .active notified => !notified
  | _ => false

/-- While `run` waits, every stop that is requested has a notification still to come. -/
def StopKept (s : State) : Prop := s.pc.waiting → s.stop.requested → 0 < s.notifying

theorem stopKept_of_not_waiting (h : ¬ s.pc.waiting) : StopKept s := fun hw => absurd hw h

theorem not_waiting_of_not_parked {pc : Pc} (h : ¬ pc.parked) : ¬ pc.waiting := by
  cases pc <;> simp_all [Pc.parked, Pc.waiting]

/-- How `run` can come to wait: it has just created its future, or it was waiting before and the step
was one of another task. -/
theorem step_waiting (hstep : step keepalive s a = some t) (hw : t.pc.waiting) :
    (a = .park ∧ t.stop = s.stop ∧ t.notifying = s.notifying) ∨
    (s.pc.waiting ∧ (0 < t.notifying ∨ t.stop = s.stop ∧ t.notifying = s.notifying)) := by
  -- The results that a `select!` waits for leave it, and what is left is not waiting.
  have leave : ∀ u : State, u.pc.parked → ¬ u.leaveSelect.pc.waiting := fun u hu =>
    not_waiting_of_not_parked (leaveSelect_not_parked hu)
  cases a with
  | run =>
    simp only [step, Option.ite_none_left_eq_some] at hstep
    obtain ⟨-, hstep⟩ := hstep
    obtain rfl := Option.some.inj hstep
    exact absurd hw (not_waiting_of_not_parked start_not_parked)
  | close =>
    simp only [step] at hstep
    split_ifs at hstep with hrun <;> obtain rfl := Option.some.inj hstep
    · exact .inr ⟨hw, .inl (Nat.succ_pos _)⟩
    · exact .inr ⟨hw, .inr ⟨rfl, rfl⟩⟩
  | requestClose =>
    simp only [step, Option.ite_none_right_eq_some] at hstep
    obtain ⟨-, hstep⟩ := hstep
    obtain rfl := Option.some.inj hstep
    exact .inr ⟨hw, .inl (Nat.succ_pos _)⟩
  | requestFailure message =>
    simp only [step, Option.ite_none_right_eq_some] at hstep
    obtain ⟨-, hstep⟩ := hstep
    obtain rfl := Option.some.inj hstep
    exact .inr ⟨hw, .inl (Nat.succ_pos _)⟩
  | notifyWaiters =>
    simp only [step, Option.ite_none_right_eq_some] at hstep
    obtain ⟨-, hstep⟩ := hstep
    obtain rfl := Option.some.inj hstep
    cases hpc : s.pc <;> simp_all [State.notifyWaiters, Pc.waiting]
  | park =>
    simp only [step] at hstep
    split at hstep <;> simp only [reduceCtorEq, Option.some.injEq] at hstep <;> subst hstep <;>
      exact .inl ⟨rfl, rfl, rfl⟩
  | wake =>
    simp only [step] at hstep
    split at hstep <;> simp only [reduceCtorEq, Option.some.injEq] at hstep <;> subst hstep
    all_goals exact absurd hw (leave s (by simp_all [Pc.parked]))
  | test =>
    simp only [step] at hstep
    split at hstep
    · obtain rfl := Option.some.inj hstep
      dsimp only at hw
      split_ifs at hw <;> cases hw
    · split_ifs at hstep <;> obtain rfl := Option.some.inj hstep <;> cases hw
    · cases hstep
  | connect result =>
    simp only [step] at hstep
    split at hstep <;> simp only [reduceCtorEq, Option.some.injEq] at hstep <;> subst hstep
    · cases hw
    · simp [Pc.waiting] at hw
  | beginReturns result =>
    simp only [step] at hstep
    split at hstep <;> simp only [reduceCtorEq, Option.some.injEq] at hstep
    subst hstep
    exact absurd hw (leave _ (by simp_all [Pc.parked]))
  | readerReturns result =>
    simp only [step] at hstep
    split at hstep <;> simp only [reduceCtorEq, Option.some.injEq] at hstep <;> subst hstep
    all_goals exact absurd hw (leave _ (by simp_all [Pc.parked]))
  | keepaliveReturns result =>
    simp only [step] at hstep
    split at hstep <;> simp only [reduceCtorEq, Option.some.injEq] at hstep <;> subst hstep
    all_goals exact absurd hw (leave _ (by simp_all [Pc.parked]))
  | mediaCloses error =>
    simp only [step, Option.ite_none_right_eq_some] at hstep
    obtain ⟨-, hstep⟩ := hstep
    obtain rfl := Option.some.inj hstep
    cases hw
  | transportCloses result =>
    simp only [step, Option.ite_none_right_eq_some] at hstep
    obtain ⟨-, hstep⟩ := hstep
    obtain rfl := Option.some.inj hstep
    simp [Pc.waiting] at hw

/-- Every step but a late creation of a future keeps the stop. -/
theorem StopKept.step (h : StopKept s) (hpark : ¬ ParksLate s a)
    (hstep : step keepalive s a = some t) : StopKept t := by
  intro hw hr
  rcases step_waiting hstep hw with ⟨rfl, hstop, hn⟩ | ⟨hws, hn | ⟨hstop, hn⟩⟩
  · rw [hn]
    exact Nat.pos_of_ne_zero fun h0 => hpark ⟨hstop ▸ hr, h0⟩
  · exact hn
  · rw [hn]
    exact h hws (hstop ▸ hr)

/-- While the stop is kept, some step of `run` or of a stop request under way leads to it. -/
theorem StopKept.not_stopLost (h : StopKept s) : ¬ StopLost keepalive s := by
  rintro ⟨hr, hparked, hall⟩
  by_cases hw : s.pc.waiting
  · have hn : 0 < s.notifying := h hw hr
    exact absurd (hall _ (enabled_notifyWaiters hn)) (by decide)
  · have henabled : (machine keepalive).Enabled s .wake := by
      cases hpc : s.pc <;>
        simp_all [Pc.parked, Pc.waiting, Machine.Enabled, machine, Run.step]
    exact absurd (hall _ henabled) (by decide)

/-- A future that is created late is not notified any more. -/
theorem ParksLate.stopLost (h : ParksLate s a) (hstep : step keepalive s a = some t) :
    StopLost keepalive t := by
  cases a with
  | park => ?_
  | _ => exact h.elim
  obtain ⟨hr, hn⟩ := h
  simp only [step] at hstep
  split at hstep <;> simp only [reduceCtorEq, Option.some.injEq] at hstep <;> subst hstep
  all_goals
    refine ⟨hr, rfl, fun a ha => ?_⟩
    cases a <;> simp_all [Action.arrival, Machine.Enabled, machine, step]

/-- In every run, at every moment, a requested stop has a step on its way to the parked supervisor,
exactly if no step of the run creates a future after the last notification for the stop. -/
theorem stop_kept_iff_not_parksLate (keepalive : KeepalivePolicy) (schedule : List Action) (s : State)
    (hexec : (machine keepalive).exec initial schedule = some s) :
    (machine keepalive).Throughout (fun s => ¬ StopLost keepalive s) initial schedule ↔
      (machine keepalive).Along (fun s a => ¬ ParksLate s a) initial schedule := by
  refine Machine.throughout_iff_along (fun s (hs : StopKept s) => hs.not_stopLost)
    (fun s a t hs hpark hstep => hs.step hpark hstep) (fun s a t hs hpark hstep => ?_)
    (stopKept_of_not_waiting (by decide)) hexec
  exact not_not.mpr ((not_not.mp hpark).stopLost hstep)

/-- No keepalive. -/
def noKeepalive : KeepalivePolicy := ⟨0, 0, 0⟩

/-- A run that becomes active, is closed by another task and returns. -/
def closedRun : List Action :=
  [.run, .park, .connect (.ok ()), .test, .park, .beginReturns .ok, .test, .park, .close,
    .notifyWaiters, .wake, .mediaCloses none, .transportCloses .ok]

theorem closedRun_stop_kept :
    (∃ s, (machine noKeepalive).exec initial closedRun = some s ∧ s.state = .closed) ∧
      (machine noKeepalive).Throughout (fun s => ¬ StopLost noKeepalive s) initial closedRun :=
  ⟨⟨_, rfl, rfl⟩, (stop_kept_iff_not_parksLate noKeepalive closedRun _ rfl).mpr (by decide)⟩

/-- A run in which the whole stop request falls between the last test and the creation of the
future. -/
def lateRun : List Action :=
  [.run, .park, .connect (.ok ()), .test, .park, .beginReturns .ok, .test, .close, .notifyWaiters,
    .park]

/-- The session stays active although it was closed. -/
theorem lateRun_stopLost :
    ∃ s, (machine noKeepalive).Reachable s ∧ s.state = .active ∧ StopLost noKeepalive s := by
  refine ⟨_, @Machine.Reachable.of_exec _ _ (machine noKeepalive) _ _ lateRun rfl rfl, rfl, rfl, rfl,
    fun a ha => ?_⟩
  cases a with
  | notifyWaiters => cases ha
  | park => cases ha
  | wake => cases ha
  | test => cases ha
  | _ => rfl

end Rtvbp.Rust.Run
