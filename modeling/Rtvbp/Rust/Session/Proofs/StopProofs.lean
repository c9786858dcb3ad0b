import Rtvbp.Rust.Session.Proofs.RunProofs

/-!
# How a run ends

`run` records what its tasks and the transport return. As long as none of these is a failure the session
ends closed, and as long as nobody stops it and the reader goes on it does not begin to shut down.
-/

namespace Rtvbp.Rust.Run

open Rtvbp.Lib

variable {keepalive : KeepalivePolicy} {s t : State} {a : Action}

/-! ## Runs without a failure -/

/-- The action brings no failure: the results that `run` waits for are those of an orderly end, and the
keepalive monitor gives none. -/
def Harmless (keepalive : KeepalivePolicy) : Action → Prop
  | .run => keepalive.validate = .ok ()
  | .requestFailure _ | .keepaliveReturns _ => False
  | .connect result => result = .ok ()
  | .beginReturns result => result = .ok
  | .readerReturns result => result = .ok ∨ result = .error .closed
  | .mediaCloses error => error = none
  | .transportCloses result => result = .ok
  | _ => True

/-- Nothing has failed, and a session that has returned is closed. -/
structure Clean (s : State) : Prop where
  failures : s.stop.failures = []
  finalError : s.finalError = none
  returned : s.pc = .returned → s.state = .closed

theorem Clean.initial : Clean initial := ⟨rfl, rfl, nofun⟩

theorem Clean.finishTerminal (h : Clean s) : Clean s.finishTerminal := by
  rw [State.finishTerminal, if_pos (List.isEmpty_iff.mpr h.failures)]
  exact ⟨h.failures, h.finalError, fun _ => rfl⟩

theorem Clean.finishWithoutTransport (h : Clean s) : Clean s.finishWithoutTransport :=
  Clean.finishTerminal ⟨h.failures, h.finalError, h.returned⟩

theorem Clean.leaveSelect (h : Clean s) : Clean s.leaveSelect := by
  unfold State.leaveSelect
  split
  · exact h.finishWithoutTransport
  · exact ⟨h.failures, h.finalError, nofun⟩
  · exact ⟨h.failures, h.finalError, nofun⟩
  · exact h

theorem recordReaderResult_eq {result : Joined} (h : result = .ok ∨ result = .error .closed) :
    s.recordReaderResult result = s.setRequested := by
  rcases h with rfl | rfl <;> rfl

/-- Without a failure the session ends closed. -/
theorem Clean.step (h : Clean s) (ha : Harmless keepalive a) (hstep : step keepalive s a = some t) :
    Clean t := by
  have hpc : ∀ {u : State}, u.stop.failures = s.stop.failures → u.finalError = s.finalError →
      u.pc ≠ .returned → Clean u := fun hfailures hfinal hne =>
    ⟨hfailures.trans h.failures, hfinal.trans h.finalError, fun hret => absurd hret hne⟩
  cases a with
  | run =>
    simp only [Run.step, Option.ite_none_left_eq_some] at hstep
    obtain ⟨-, hstep⟩ := hstep
    have hvalid : keepalive.validate = .ok () := ha
    simp only [start, hvalid] at hstep
    obtain rfl := Option.some.inj hstep
    exact hpc rfl rfl (by simp)
  | close =>
    simp only [Run.step] at hstep
    split_ifs at hstep <;> obtain rfl := Option.some.inj hstep
    · exact ⟨h.failures, h.finalError, h.returned⟩
    · exact ⟨h.failures, h.finalError, fun _ => rfl⟩
  | requestClose =>
    simp only [Run.step, Option.ite_none_right_eq_some] at hstep
    obtain rfl := Option.some.inj hstep.2
    exact ⟨h.failures, h.finalError, h.returned⟩
  | notifyWaiters =>
    simp only [Run.step, Option.ite_none_right_eq_some] at hstep
    obtain rfl := Option.some.inj hstep.2
    refine ⟨h.failures, h.finalError, fun hret => h.returned ?_⟩
    cases hs : s.pc <;> simp_all [State.notifyWaiters]
  | park =>
    simp only [Run.step] at hstep
    split at hstep <;> simp only [reduceCtorEq, Option.some.injEq] at hstep <;> subst hstep <;>
      exact hpc rfl rfl (by simp)
  | wake =>
    simp only [Run.step] at hstep
    split at hstep <;> simp only [reduceCtorEq, Option.some.injEq] at hstep <;> subst hstep <;>
      exact h.leaveSelect
  | test =>
    simp only [Run.step] at hstep
    split at hstep
    · obtain rfl := Option.some.inj hstep
      refine hpc rfl rfl ?_
      dsimp only
      split_ifs <;> simp
    · split_ifs at hstep <;> obtain rfl := Option.some.inj hstep <;>
        exact hpc rfl rfl (by simp [State.shutdown])
    · cases hstep
  | connect result =>
    obtain rfl : result = .ok () := ha
    simp only [Run.step] at hstep
    split at hstep <;> simp only [reduceCtorEq, Option.some.injEq] at hstep
    · subst hstep
      exact hpc rfl rfl (by simp)
    · contradiction
  | beginReturns result =>
    obtain rfl : result = .ok := ha
    simp only [Run.step] at hstep
    split at hstep <;> simp only [reduceCtorEq, Option.some.injEq] at hstep
    rename_i notified hbegin
    have hclean : Clean (s.recordBeginResult .ok) :=
      ⟨h.failures, h.finalError, fun hret => by cases hret.symm.trans hbegin⟩
    subst hstep
    exact hclean.leaveSelect
  | readerReturns result =>
    have hclean : Clean s.setRequested := ⟨h.failures, h.finalError, h.returned⟩
    simp only [Run.step] at hstep
    split at hstep <;> simp only [reduceCtorEq, Option.some.injEq] at hstep <;> subst hstep <;>
      rw [recordReaderResult_eq ha] <;> exact hclean.leaveSelect
  | mediaCloses error =>
    obtain rfl : error = none := ha
    simp only [Run.step, Option.ite_none_right_eq_some] at hstep
    obtain rfl := Option.some.inj hstep.2
    exact hpc rfl rfl (by simp)
  | transportCloses result =>
    obtain rfl : result = .ok := ha
    simp only [Run.step, Option.ite_none_right_eq_some] at hstep
    obtain rfl := Option.some.inj hstep.2
    exact h.finishTerminal
  | requestFailure _ | keepaliveReturns _ => exact ha.elim

/-! ## Runs without a stop -/

/-- Nobody stops the session, and the control reader goes on. -/
def Undisturbed : Action → Prop
  | .close | .requestClose | .readerReturns _ => False
  | _ => True

/-- The program counters of a session that nobody has stopped. -/
def State.onTheWay (s : State) : Prop :=
  match s.pc with
  | .idle | .entered | .connecting false | .connected | .begins | .beginning false => True
  | .activates | .active false => True
  | .begun => s.state = .active
  | _ => False

/-- Nobody has stopped the session. -/
structure Quiet (s : State) : Prop where
  requested : s.stop.requested = false
  notifying : s.notifying = 0
  closing : s.closing = false
  pc : s.onTheWay

theorem Quiet.initial : Quiet initial := ⟨rfl, rfl, rfl, trivial⟩

/-- As long as nobody stops a session, it goes on. -/
theorem Quiet.step (h : Quiet s) (ha : Harmless keepalive a) (hu : Undisturbed a)
    (hstep : step keepalive s a = some t) : Quiet t := by
  have hpc := h.pc
  cases a with
  | run =>
    simp only [Run.step, Option.ite_none_left_eq_some] at hstep
    obtain ⟨-, hstep⟩ := hstep
    have hvalid : keepalive.validate = .ok () := ha
    simp only [start, hvalid] at hstep
    obtain rfl := Option.some.inj hstep
    exact ⟨h.requested, h.notifying, h.closing, trivial⟩
  | notifyWaiters =>
    simp only [Run.step, h.notifying, lt_irrefl, if_false, reduceCtorEq] at hstep
  | park =>
    simp only [Run.step] at hstep
    split at hstep <;> simp only [reduceCtorEq, Option.some.injEq] at hstep <;> subst hstep <;>
      exact ⟨h.requested, h.notifying, h.closing, trivial⟩
  | wake =>
    simp only [Run.step] at hstep
    split at hstep
    · simp_all [State.onTheWay]
    · simp_all [State.onTheWay]
    · simp_all [State.onTheWay]
    · cases hstep
  | test =>
    simp only [Run.step] at hstep
    split at hstep
    · simp only [h.requested, Bool.false_eq_true, if_false] at hstep
      obtain rfl := Option.some.inj hstep
      exact ⟨h.requested, h.notifying, h.closing, trivial⟩
    · rename_i hbegun
      have hactive : s.state = .active := by simpa [State.onTheWay, hbegun] using hpc
      rw [if_pos ⟨hactive, by simp [h.requested]⟩] at hstep
      obtain rfl := Option.some.inj hstep
      exact ⟨h.requested, h.notifying, h.closing, trivial⟩
    · cases hstep
  | connect result =>
    obtain rfl : result = .ok () := ha
    simp only [Run.step] at hstep
    split at hstep <;> simp only [reduceCtorEq, Option.some.injEq] at hstep
    · subst hstep
      exact ⟨h.requested, h.notifying, h.closing, trivial⟩
    · contradiction
  | beginReturns result =>
    obtain rfl : result = .ok := ha
    simp only [Run.step] at hstep
    split at hstep <;> simp only [reduceCtorEq, Option.some.injEq] at hstep
    rename_i notified hbegin
    have hleave : (s.recordBeginResult .ok).leaveSelect =
        { s.recordBeginResult .ok with pc := .begun } := by
      simp [State.leaveSelect, State.recordBeginResult, hbegin]
    rw [hleave] at hstep
    subst hstep
    exact ⟨h.requested, h.notifying, h.closing, rfl⟩
  | mediaCloses error =>
    simp only [Run.step, Option.ite_none_right_eq_some] at hstep
    simp [State.onTheWay, hstep.1] at hpc
  | transportCloses result =>
    simp only [Run.step, Option.ite_none_right_eq_some] at hstep
    simp [State.onTheWay, hstep.1] at hpc
  | requestFailure _ | keepaliveReturns _ => exact ha.elim
  | close | requestClose | readerReturns _ => exact hu.elim

/-! ## The first `select!` -/

/-- `run` is past the first `select!`. -/
def Pc.connected? : Pc → Bool
  | .idle | .entered | .connecting _ => false
  | _ => true

@[simp] theorem finishTerminal_runStarted : s.finishTerminal.runStarted = s.runStarted := by
  unfold State.finishTerminal
  split_ifs <;> rfl

@[simp] theorem leaveSelect_runStarted : s.leaveSelect.runStarted = s.runStarted := by
  unfold State.leaveSelect
  split
  · exact finishTerminal_runStarted
  · rfl
  · rfl
  · rfl

@[simp] theorem recordReaderResult_runStarted (result : Joined) :
    (s.recordReaderResult result).runStarted = s.runStarted := by
  rcases result with _ | ⟨_ | _ | _⟩ | _ | _ <;> rfl

@[simp] theorem recordKeepaliveResult_runStarted (result : Joined) :
    (s.recordKeepaliveResult result).runStarted = s.runStarted := by
  cases result <;> rfl

@[simp] theorem recordBeginResult_runStarted (result : Joined) :
    (s.recordBeginResult result).runStarted = s.runStarted := by
  cases result <;> rfl

theorem start_runStarted : (start keepalive s).runStarted = true := by
  unfold start
  dsimp only
  split
  · exact finishTerminal_runStarted
  · rfl

theorem leaveSelect_connected (h : s.pc.parked) : s.leaveSelect.pc.connected? := by
  unfold State.leaveSelect
  split
  · rw [finishWithoutTransport_pc]
    rfl
  · rfl
  · rfl
  · cases hpc : s.pc <;> simp_all [Pc.parked]

/-- `run` has been called, unless it is idle. -/
def State.StartsOnce (s : State) : Prop := s.runStarted = false → s.pc = .idle

/-- `run` does not come back to where it connects. -/
theorem State.StartsOnce.step (h : s.StartsOnce) (hstep : step keepalive s a = some t) :
    t.StartsOnce ∧ (s.pc.connected? → t.pc.connected?) := by
  have hsame : ∀ {u : State}, u.runStarted = s.runStarted → u.pc = s.pc →
      u.StartsOnce ∧ (s.pc.connected? → u.pc.connected?) := by
    intro u hrun hpc
    unfold State.StartsOnce
    rw [hrun, hpc]
    exact ⟨h, fun hc => hc⟩
  -- a step away from `idle` comes from a session that has been started
  have hmoved : ∀ {u : State}, s.pc ≠ .idle → u.runStarted = s.runStarted →
      (s.pc.connected? → u.pc.connected?) → u.StartsOnce ∧ (s.pc.connected? → u.pc.connected?) := by
    intro u hne hrun hconnected
    refine ⟨fun hfalse => absurd (h (hrun.symm.trans hfalse)) hne, hconnected⟩
  cases a with
  | run =>
    simp only [Run.step, Option.ite_none_left_eq_some] at hstep
    obtain ⟨hrun, hstep⟩ := hstep
    obtain rfl := Option.some.inj hstep
    refine ⟨fun hfalse => ?_, fun hconnected => ?_⟩
    · rw [start_runStarted] at hfalse
      cases hfalse
    · rw [h (by simpa using hrun)] at hconnected
      cases hconnected
  | close =>
    simp only [Run.step] at hstep
    split_ifs at hstep <;> obtain rfl := Option.some.inj hstep
    · exact hsame rfl rfl
    · exact ⟨fun hfalse => (by cases hfalse), fun hconnected => hconnected⟩
  | requestClose | requestFailure _ =>
    simp only [Run.step, Option.ite_none_right_eq_some] at hstep
    obtain rfl := Option.some.inj hstep.2
    exact hsame rfl rfl
  | notifyWaiters =>
    simp only [Run.step, Option.ite_none_right_eq_some] at hstep
    obtain rfl := Option.some.inj hstep.2
    refine ⟨fun hfalse => ?_, fun hconnected => ?_⟩
    · simp [State.notifyWaiters, h hfalse]
    · cases hpc : s.pc <;> simp_all [State.notifyWaiters, Pc.connected?]
  | park =>
    simp only [Run.step] at hstep
    split at hstep <;> simp only [reduceCtorEq, Option.some.injEq] at hstep <;> subst hstep <;>
      refine hmoved (by simp [*]) rfl ?_ <;> simp [*, Pc.connected?]
  | wake =>
    simp only [Run.step] at hstep
    split at hstep <;> simp only [reduceCtorEq, Option.some.injEq] at hstep <;> subst hstep <;>
      exact hmoved (by simp [*]) leaveSelect_runStarted
        fun _ => leaveSelect_connected (by simp [*, Pc.parked])
  | test =>
    simp only [Run.step] at hstep
    split at hstep
    · obtain rfl := Option.some.inj hstep
      refine hmoved (by simp [*]) rfl fun _ => ?_
      dsimp only
      split_ifs <;> rfl
    · split_ifs at hstep <;> obtain rfl := Option.some.inj hstep <;>
        exact hmoved (by simp [*]) rfl fun _ => rfl
    · cases hstep
  | connect result =>
    simp only [Run.step] at hstep
    split at hstep <;> simp only [reduceCtorEq, Option.some.injEq] at hstep <;> subst hstep
    · exact hmoved (by simp [*]) rfl fun _ => rfl
    · exact hmoved (by simp [*]) finishTerminal_runStarted fun _ => by
        rw [finishWithoutTransport_pc]
        rfl
  | beginReturns result | readerReturns result | keepaliveReturns result =>
    simp only [Run.step] at hstep
    split at hstep <;> simp only [reduceCtorEq, Option.some.injEq] at hstep <;> subst hstep <;>
      exact hmoved (by simp [*]) (by simp) fun _ => leaveSelect_connected (by simp [*, Pc.parked])
  | mediaCloses error =>
    simp only [Run.step, Option.ite_none_right_eq_some] at hstep
    obtain ⟨hpc, hstep⟩ := hstep
    obtain rfl := Option.some.inj hstep
    refine hmoved (by simp [hpc]) ?_ fun _ => rfl
    cases error <;> rfl
  | transportCloses result =>
    simp only [Run.step, Option.ite_none_right_eq_some] at hstep
    obtain ⟨hpc, hstep⟩ := hstep
    obtain rfl := Option.some.inj hstep
    refine hmoved (by simp [hpc]) ?_ fun _ => ?_
    · rw [finishTerminal_runStarted]
      cases result <;> rfl
    · rw [finishTerminal_pc]
      rfl

end Rtvbp.Rust.Run
