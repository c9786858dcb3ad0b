import Rtvbp.Go.Proofs.SuperviseProofs

/-!
# A session that nobody stops, and stops without an error

A supervisor that has seen no stop request and no end of its parent stays in its selects, unless it has no
transport to run with. And a result that has not failed has no error in it.
-/

namespace Rtvbp.Go.Supervise

open Rtvbp.Lib

variable {ε : Type} {config : Config} {is : ε → ε → Bool} {canceled : ε} {s t : State ε} {a : Action ε}

/-! ## Quiet sessions -/

/-- Nobody has asked the session to stop. -/
structure State.Quiet (s : State ε) : Prop where
  pc : s.pc.leftSelects = false
  token : s.token = false
  offering : s.offering = 0
  queue : s.stopQueue = []
  parent : s.parent = none
  /-- A transport is there once it was accepted. -/
  transport : s.transport = true → s.pc = .beginning ∨ s.pc = .active

/-- The session ends without a transport. -/
def State.Aborted (s : State ε) : Prop := s.pc.leftSelects = true ∧ s.transport = false

theorem quiet_initial : (initial : State ε).Quiet where
  pc := rfl
  token := rfl
  offering := rfl
  queue := rfl
  parent := rfl
  transport := by simp [initial]

theorem State.Quiet.stopCommit (h : Inv s) (hq : s.Quiet) : s.stopCommit = false := by
  have hpc := hq.pc
  rw [h.commit]
  cases hs : s.pc <;> simp_all [Pc.leftSelects, Pc.committed]

/-- The transport is accepted, or the session ends without one. -/
theorem acceptTransportResult_quiet (hq : s.Quiet) (hpc : s.pc = .creating) (created : TransportResult ε) :
    (s.acceptTransportResult is created).Quiet ∨ (s.acceptTransportResult is created).Aborted := by
  have htransport : s.transport = false := by
    by_contra hne
    rcases hq.transport (by simpa using hne) with h | h <;> simp [hpc] at h
  unfold State.acceptTransportResult
  split_ifs
  · exact .inl ⟨rfl, hq.token, hq.offering, hq.queue, hq.parent, fun _ => .inl rfl⟩
  · exact .inr ⟨rfl, htransport⟩
  · exact .inr ⟨rfl, htransport⟩

/-- A quiet session stays quiet, or ends for want of a transport. -/
theorem State.Quiet.step [DecidableEq ε] (h : Inv s) (hq : s.Quiet) (hrequest : a.request = none)
    (hparent : ∀ err, a ≠ .parentEnds err) (hbegin : a = .beginReceived → s.beginResult = some none)
    (hstep : step config is canceled s a = some t) : t.Quiet ∨ t.Aborted := by
  obtain ⟨hpc, htoken, hoffering, hqueue, hparent', htransport⟩ := hq
  cases a with
  | run =>
    simp only [Supervise.step, Option.ite_none_left_eq_some] at hstep
    obtain ⟨hrun, hstep⟩ := hstep
    obtain rfl := Option.some.inj hstep
    have hidle : s.pc = .idle := h.idle.mp (by simpa using hrun)
    refine .inl ⟨rfl, htoken, hoffering, hqueue, hparent', fun ht => ?_⟩
    rcases htransport ht with h' | h' <;> simp [hidle] at h'
  | requestStop request => cases hrequest
  | offer =>
    simp only [Supervise.step, Option.ite_none_right_eq_some] at hstep
    exact absurd hstep.1 (by simp [hoffering])
  | parentEnds err => exact absurd rfl (hparent err)
  | onClose =>
    obtain rfl := Option.some.inj hstep
    exact .inl ⟨hpc, htoken, hoffering, hqueue, hparent', htransport⟩
  | factoryReturns result =>
    simp only [Supervise.step, Option.ite_none_right_eq_some] at hstep
    obtain rfl := Option.some.inj hstep.2
    exact .inl ⟨hpc, htoken, hoffering, hqueue, hparent', htransport⟩
  | onBeginReturns err =>
    simp only [Supervise.step, Option.ite_none_right_eq_some] at hstep
    obtain rfl := Option.some.inj hstep.2
    exact .inl ⟨hpc, htoken, hoffering, hqueue, hparent', htransport⟩
  | configure =>
    simp only [Supervise.step, Option.ite_none_right_eq_some] at hstep
    obtain ⟨hstarted, hstep⟩ := hstep
    have hnone : s.transport = false := by
      by_contra hne
      rcases htransport (by simpa using hne) with h' | h' <;> simp [hstarted] at h'
    cases hcheck : config.check with
    | some text =>
      simp only [hcheck] at hstep
      obtain rfl := Option.some.inj hstep
      exact .inr ⟨rfl, hnone⟩
    | none =>
      simp only [hcheck] at hstep
      obtain rfl := Option.some.inj hstep
      exact .inl ⟨rfl, htoken, hoffering, hqueue, hparent', fun ht => absurd ht (by simp [hnone])⟩
  | created =>
    simp only [Supervise.step, Option.ite_none_right_eq_some] at hstep
    obtain ⟨hcreating, hstep⟩ := hstep
    obtain ⟨created, -, rfl⟩ := Option.map_eq_some_iff.mp hstep
    exact acceptTransportResult_quiet ⟨hpc, htoken, hoffering, hqueue, hparent', htransport⟩ hcreating created
  | createStopped ctxErr => simp [Supervise.step, htoken] at hstep
  | createParentDone ctxErr => simp [Supervise.step, hparent'] at hstep
  | beginReceived =>
    simp only [Supervise.step, Option.ite_none_right_eq_some] at hstep
    obtain ⟨hbeginning, hstep⟩ := hstep
    rw [hbegin rfl, Option.map_some] at hstep
    obtain rfl := Option.some.inj hstep
    have hterminal : s.terminal = .empty := h.clean (by rw [hbeginning]; rfl)
    have hactive : (s.receiveBegin none).afterBegin = { s with state := .active, pc := .active } := by
      simp [State.receiveBegin, State.afterBegin, hterminal, StopRequest.empty]
    rw [hactive]
    exact .inl ⟨rfl, htoken, hoffering, hqueue, hparent', fun _ => .inr rfl⟩
  | beginStopped => simp [Supervise.step, htoken] at hstep
  | beginParentDone => simp [Supervise.step, hparent'] at hstep
  | activeStopped => simp [Supervise.step, htoken] at hstep
  | activeParentDone => simp [Supervise.step, hparent'] at hstep
  | partialCloses _ | joined | joinTimeout | canceledCloses _ | commit | mediaCloses _ | transportCloses _
  | closeHandlerReturns _ | workersDone | workersTimeout | complete =>
    -- the supervisor is in one of its selects
    cases hs : s.pc <;> simp [hs, Pc.leftSelects] at hpc <;> simp [Supervise.step, hs] at hstep

@[simp] theorem runHandlers_leftSelects (rest : Nat) : (s.runHandlers rest).pc.leftSelects = true := by
  cases rest with
  | zero =>
    simp only [State.runHandlers, State.afterHandlers]
    split_ifs <;> rfl
  | succ rest => rfl

@[simp] theorem runHandlers_transport (rest : Nat) : (s.runHandlers rest).transport = s.transport := by
  cases rest <;> rfl

/-- Once it has left its selects, the supervisor does not come back, nor gets it another transport. -/
theorem leftSelects_step [DecidableEq ε] (h : Inv s) (hpc : s.pc.leftSelects = true)
    (hstep : step config is canceled s a = some t) :
    t.pc.leftSelects = true ∧ t.transport = s.transport := by
  cases a with
  | run =>
    simp only [Supervise.step, Option.ite_none_left_eq_some] at hstep
    have hidle : s.pc = .idle := h.idle.mp (by simpa using hstep.1)
    simp [hidle, Pc.leftSelects] at hpc
  | requestStop request =>
    obtain rfl := Option.some.inj hstep
    unfold State.requestStop
    split_ifs <;> exact ⟨hpc, rfl⟩
  | onClose =>
    obtain rfl := Option.some.inj hstep
    exact ⟨hpc, rfl⟩
  | offer | parentEnds _ | factoryReturns _ | onBeginReturns _ =>
    simp only [Supervise.step, Option.ite_none_right_eq_some] at hstep
    obtain rfl := Option.some.inj hstep.2
    exact ⟨hpc, rfl⟩
  | configure | created | createStopped _ | createParentDone _ | beginReceived | beginStopped
  | beginParentDone | activeStopped | activeParentDone =>
    simp only [Supervise.step, Option.ite_none_right_eq_some] at hstep
    obtain ⟨hsource, -⟩ := hstep
    have hselects : s.pc.leftSelects = false := by simp_all [Pc.leftSelects]
    simp [hselects] at hpc
  | partialCloses _ | commit | workersDone | workersTimeout | complete =>
    simp only [Supervise.step, Option.ite_none_right_eq_some] at hstep
    obtain rfl := Option.some.inj hstep.2
    exact ⟨rfl, rfl⟩
  | joined | joinTimeout | canceledCloses _ | closeHandlerReturns _ =>
    simp only [Supervise.step] at hstep
    repeat' split at hstep
    all_goals simp only [reduceCtorEq, Option.some.injEq] at hstep
    all_goals
      subst hstep
      first
      | exact ⟨rfl, rfl⟩
      | exact ⟨runHandlers_leftSelects _, runHandlers_transport _⟩
  | mediaCloses err =>
    simp only [Supervise.step, Option.ite_none_right_eq_some] at hstep
    obtain rfl := Option.some.inj hstep.2
    split_ifs
    · exact ⟨rfl, rfl⟩
    · exact ⟨runHandlers_leftSelects _, runHandlers_transport _⟩
  | transportCloses err =>
    simp only [Supervise.step, Option.ite_none_right_eq_some] at hstep
    obtain rfl := Option.some.inj hstep.2
    exact ⟨runHandlers_leftSelects _, runHandlers_transport _⟩

/-- A session that ends without a transport stays without one. -/
theorem State.Aborted.step [DecidableEq ε] (h : Inv s) (ha : s.Aborted)
    (hstep : step config is canceled s a = some t) : t.Aborted := by
  obtain ⟨hleft, htransport⟩ := leftSelects_step h ha.1 hstep
  exact ⟨hleft, htransport.trans ha.2⟩

/-- The session has accepted its transport. -/
def State.Accepted (s : State ε) : Prop :=
  s.transport = true ∧ (s.pc = .beginning ∨ s.pc = .active ∨ s.pc.leftSelects = true)

theorem State.Quiet.accepted (hq : s.Quiet) (htransport : s.transport = true) : s.Accepted :=
  ⟨htransport, (hq.transport htransport).imp_right .inl⟩

theorem State.Accepted.of_eq (h : s.Accepted) (htransport : t.transport = s.transport)
    (hpc : t.pc = s.pc) : t.Accepted := by
  unfold State.Accepted
  rw [htransport, hpc]
  exact h

theorem afterBegin_accepted (h : s.transport = true) : s.afterBegin.Accepted := by
  unfold State.afterBegin
  split_ifs
  · exact ⟨h, .inr (.inl rfl)⟩
  · exact ⟨h, .inr (.inr rfl)⟩

/-- The transport of a session is not replaced. -/
theorem State.Accepted.step [DecidableEq ε] (h : Inv s) (ha : s.Accepted)
    (hstep : step config is canceled s a = some t) : t.Accepted := by
  obtain ⟨htransport, hpc⟩ := ha
  by_cases hleft : s.pc.leftSelects = true
  · obtain ⟨hpc', htransport'⟩ := leftSelects_step h hleft hstep
    exact ⟨htransport'.trans htransport, .inr (.inr hpc')⟩
  have hselect : s.pc = .beginning ∨ s.pc = .active := by
    rcases hpc with hpc | hpc | hpc
    · exact .inl hpc
    · exact .inr hpc
    · exact absurd hpc hleft
  have haccepted : s.Accepted := ⟨htransport, hpc⟩
  cases a with
  | run =>
    simp only [Supervise.step, Option.ite_none_left_eq_some] at hstep
    have hidle : s.pc = .idle := h.idle.mp (by simpa using hstep.1)
    rcases hselect with hs | hs <;> simp [hidle] at hs
  | requestStop request =>
    obtain rfl := Option.some.inj hstep
    unfold State.requestStop
    split_ifs <;> exact haccepted.of_eq rfl rfl
  | onClose =>
    obtain rfl := Option.some.inj hstep
    exact haccepted.of_eq rfl rfl
  | offer | parentEnds _ | factoryReturns _ | onBeginReturns _ =>
    simp only [Supervise.step, Option.ite_none_right_eq_some] at hstep
    obtain rfl := Option.some.inj hstep.2
    exact haccepted.of_eq rfl rfl
  | beginReceived =>
    simp only [Supervise.step, Option.ite_none_right_eq_some] at hstep
    obtain ⟨err, -, rfl⟩ := Option.map_eq_some_iff.mp hstep.2
    refine afterBegin_accepted ?_
    cases err <;> exact htransport
  | beginStopped | beginParentDone =>
    simp only [Supervise.step, Option.ite_none_right_eq_some] at hstep
    obtain rfl := Option.some.inj hstep.2
    exact afterBegin_accepted htransport
  | activeStopped | activeParentDone =>
    simp only [Supervise.step, Option.ite_none_right_eq_some] at hstep
    obtain rfl := Option.some.inj hstep.2
    exact ⟨htransport, .inr (.inr rfl)⟩
  | configure | created | createStopped _ | createParentDone _ | partialCloses _ | joined | joinTimeout
  | canceledCloses _ | commit | mediaCloses _ | transportCloses _ | closeHandlerReturns _ | workersDone
  | workersTimeout | complete =>
    rcases hselect with hs | hs <;> simp [Supervise.step, hs] at hstep

/-- Only `commit` commits. -/
theorem stopCommit_step [DecidableEq ε] (h : Inv s) (hstep : step config is canceled s a = some t) :
    (a = .commit ∧ t = s.commitStopRequests) ∨ t.stopCommit = s.stopCommit := by
  cases hcommit : s.stopCommit with
  | false => exact (queue_step h hcommit hstep).imp_right And.left
  | true => exact .inr (teardown_step h hcommit hstep).1

/-! ## Stops without an error -/

/-- A request that has not failed has no error. -/
def StopRequest.Sound (request : StopRequest ε) : Prop := request.failed = false → request.cause = []

theorem StopRequest.Sound.merge {terminal observed : StopRequest ε} (h : terminal.Sound)
    (hobserved : observed.Sound) : (terminal.merge observed).Sound := by
  intro hfailed
  simp only [StopRequest.merge, Bool.or_eq_false_iff] at hfailed
  simp [StopRequest.merge, h hfailed.1, hobserved hfailed.2]

theorem StopRequest.Sound.mergeFailure {terminal : StopRequest ε} (h : terminal.Sound)
    (cause : Option (Cause ε)) : (terminal.mergeFailure cause).Sound := by
  cases cause with
  | none => exact h
  | some cause => exact h.merge (by simp [StopRequest.Sound, StopRequest.failure])

theorem StopRequest.Sound.foldl {requests : List (StopRequest ε)} {terminal : StopRequest ε}
    (h : terminal.Sound) (hrequests : ∀ request ∈ requests, request.Sound) :
    (requests.foldl StopRequest.merge terminal).Sound := by
  induction requests generalizing terminal with
  | nil => exact h
  | cons request requests ih =>
    exact ih (h.merge (hrequests request List.mem_cons_self))
      fun r hr => hrequests r (List.mem_cons_of_mem request hr)

theorem StopRequest.sound_failure (cause : Cause ε) : (StopRequest.failure cause).Sound := by
  simp [StopRequest.Sound, StopRequest.failure]

theorem StopRequest.sound_empty : (StopRequest.empty : StopRequest ε).Sound := fun _ => rfl

/-- The result and the queued requests have no error unless they have failed. -/
structure State.Sound (s : State ε) : Prop where
  terminal : s.terminal.Sound
  queue : ∀ request ∈ s.stopQueue, request.Sound

theorem sound_initial : (initial : State ε).Sound :=
  ⟨StopRequest.sound_empty, by simp [initial]⟩

theorem State.Sound.runHandlers (h : s.Sound) (rest : Nat) : (s.runHandlers rest).Sound := by
  cases rest <;> exact ⟨h.terminal, h.queue⟩

theorem State.Sound.afterBegin (h : s.Sound) : s.afterBegin.Sound := by
  unfold State.afterBegin
  split_ifs <;> exact ⟨h.terminal, h.queue⟩

theorem State.Sound.acceptTransportResult (h : s.Sound) (created : TransportResult ε) :
    (s.acceptTransportResult is created).Sound := by
  unfold State.acceptTransportResult
  split_ifs
  · exact ⟨h.terminal, h.queue⟩
  all_goals exact ⟨StopRequest.sound_empty.mergeFailure _, h.queue⟩

theorem State.Sound.requestStop (h : s.Sound) {request : StopRequest ε} (hrequest : request.Sound) :
    (s.requestStop request).Sound := by
  unfold State.requestStop
  split_ifs
  · exact ⟨h.terminal, h.queue⟩
  · refine ⟨h.terminal, fun r hr => ?_⟩
    rcases List.mem_append.mp hr with hr | hr
    · exact h.queue r hr
    · obtain rfl := List.mem_singleton.mp hr
      exact hrequest

/-- No step but a stop request brings in an error without a failure. -/
theorem State.Sound.step [DecidableEq ε] (h : s.Sound)
    (hrequest : ∀ request, a = .requestStop request → request.Sound)
    (hstep : step config is canceled s a = some t) : t.Sound := by
  have hempty : (StopRequest.empty : StopRequest ε).Sound := StopRequest.sound_empty
  cases a with
  | requestStop request =>
    obtain rfl := Option.some.inj hstep
    exact h.requestStop (hrequest request rfl)
  | run =>
    simp only [Supervise.step, Option.ite_none_left_eq_some] at hstep
    obtain rfl := Option.some.inj hstep.2
    exact ⟨h.terminal, h.queue⟩
  | onClose =>
    obtain rfl := Option.some.inj hstep
    exact ⟨h.terminal, h.queue⟩
  | offer | parentEnds _ | factoryReturns _ | onBeginReturns _ | activeStopped | workersDone | complete =>
    simp only [Supervise.step, Option.ite_none_right_eq_some] at hstep
    obtain rfl := Option.some.inj hstep.2
    exact ⟨h.terminal, h.queue⟩
  | createStopped _ | createParentDone _ | activeParentDone =>
    simp only [Supervise.step, Option.ite_none_right_eq_some] at hstep
    obtain rfl := Option.some.inj hstep.2
    exact ⟨hempty, h.queue⟩
  | configure =>
    simp only [Supervise.step, Option.ite_none_right_eq_some] at hstep
    obtain ⟨-, hstep⟩ := hstep
    split at hstep <;> obtain rfl := Option.some.inj hstep
    · exact ⟨StopRequest.sound_failure _, h.queue⟩
    · exact ⟨h.terminal, h.queue⟩
  | created =>
    simp only [Supervise.step, Option.ite_none_right_eq_some] at hstep
    obtain ⟨created, -, rfl⟩ := Option.map_eq_some_iff.mp hstep.2
    exact h.acceptTransportResult created
  | partialCloses err =>
    simp only [Supervise.step, Option.ite_none_right_eq_some] at hstep
    obtain rfl := Option.some.inj hstep.2
    exact ⟨h.terminal.mergeFailure _, h.queue⟩
  | joined =>
    simp only [Supervise.step] at hstep
    repeat' split at hstep
    all_goals simp only [reduceCtorEq, Option.some.injEq] at hstep
    · subst hstep
      exact ⟨h.terminal, h.queue⟩
    · subst hstep
      exact ⟨h.terminal.mergeFailure _, h.queue⟩
  | joinTimeout =>
    simp only [Supervise.step] at hstep
    split at hstep <;> simp only [reduceCtorEq, Option.some.injEq] at hstep
    subst hstep
    exact ⟨h.terminal.merge (StopRequest.sound_failure _), h.queue⟩
  | canceledCloses err =>
    simp only [Supervise.step] at hstep
    split at hstep <;> simp only [reduceCtorEq, Option.some.injEq] at hstep
    subst hstep
    exact ⟨(h.terminal.mergeFailure _).mergeFailure _, h.queue⟩
  | beginReceived =>
    simp only [Supervise.step, Option.ite_none_right_eq_some] at hstep
    obtain ⟨err, -, rfl⟩ := Option.map_eq_some_iff.mp hstep.2
    refine State.Sound.afterBegin ?_
    cases err with
    | none => exact ⟨h.terminal, h.queue⟩
    | some err => exact ⟨StopRequest.sound_failure _, h.queue⟩
  | beginStopped =>
    simp only [Supervise.step, Option.ite_none_right_eq_some] at hstep
    obtain rfl := Option.some.inj hstep.2
    exact State.Sound.afterBegin ⟨h.terminal, h.queue⟩
  | beginParentDone =>
    simp only [Supervise.step, Option.ite_none_right_eq_some] at hstep
    obtain rfl := Option.some.inj hstep.2
    exact State.Sound.afterBegin ⟨hempty, h.queue⟩
  | commit =>
    simp only [Supervise.step, Option.ite_none_right_eq_some] at hstep
    obtain rfl := Option.some.inj hstep.2
    exact ⟨h.terminal.foldl h.queue, by simp [State.commitStopRequests]⟩
  | mediaCloses err =>
    simp only [Supervise.step, Option.ite_none_right_eq_some] at hstep
    obtain rfl := Option.some.inj hstep.2
    split_ifs
    · exact ⟨h.terminal.mergeFailure _, h.queue⟩
    · refine State.Sound.runHandlers ?_ _
      exact ⟨h.terminal.mergeFailure _, h.queue⟩
  | transportCloses err =>
    simp only [Supervise.step, Option.ite_none_right_eq_some] at hstep
    obtain rfl := Option.some.inj hstep.2
    refine State.Sound.runHandlers ?_ _
    exact ⟨h.terminal.mergeFailure _, h.queue⟩
  | closeHandlerReturns err =>
    simp only [Supervise.step] at hstep
    split at hstep <;> simp only [reduceCtorEq, Option.some.injEq] at hstep
    subst hstep
    refine State.Sound.runHandlers ?_ _
    exact ⟨h.terminal.mergeFailure _, h.queue⟩
  | workersTimeout =>
    simp only [Supervise.step, Option.ite_none_right_eq_some] at hstep
    obtain rfl := Option.some.inj hstep.2
    exact ⟨h.terminal.merge (StopRequest.sound_failure _), h.queue⟩

/-- A session that finishes without a failure is closed and has no error. -/
theorem finished_closed (h : Inv s) (hsound : s.Sound) (hfailing : ¬ s.failing) (hpc : s.pc = .finished) :
    s.state = .closed ∧ s.done = [[]] := by
  obtain ⟨hdone, -, -, hstate⟩ := h.finished hpc
  have hfailed : s.terminal.failed = false := by
    by_contra hne
    exact hfailing (.inl (by simpa using hne))
  rw [hstate, hdone, hsound.terminal hfailed, hfailed]
  exact ⟨rfl, rfl⟩

end Rtvbp.Go.Supervise
