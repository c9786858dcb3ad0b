import Rtvbp.Go.Supervise
import Mathlib.Tactic

/-!
# Proofs: stop requests reach the supervisor and are folded exactly
-/

namespace Rtvbp.Go.Supervise

open Rtvbp.Lib

variable {ε : Type} {config : Config} {is : ε → ε → Bool} {canceled : ε}
  {s t : State ε} {a : Action ε}

/-! ## Stop requests -/

theorem mergeFailure_failed (terminal : StopRequest ε) (cause : Option (Cause ε)) :
    (terminal.mergeFailure cause).failed = true ↔ terminal.failed = true ∨ cause.isSome = true := by
  cases cause <;> simp [StopRequest.mergeFailure, StopRequest.merge, StopRequest.failure]

/-- The fold of stop requests fails exactly if one of them does. -/
theorem foldl_merge_failed (requests : List (StopRequest ε)) (terminal : StopRequest ε) :
    (requests.foldl StopRequest.merge terminal).failed = true ↔
      terminal.failed = true ∨ ∃ request ∈ requests, request.failed = true := by
  induction requests generalizing terminal with
  | nil => simp
  | cons request requests ih => simp [ih, StopRequest.merge, or_assoc]

/-- The error that `acceptTransportResult` records, for a result that it does not accept. -/
theorem acceptError_isSome (parent : Option ε) (created : TransportResult ε) :
    (acceptError is parent created).isSome = true ↔ created.err = none ∨
      ∃ err, created.err = some err ∧ ∀ ended, parent = some ended → is err ended = false := by
  unfold acceptError
  cases created.err with
  | none => simp
  | some err => cases parent <;> simp

/-- The error that `joinCanceledTransportFactory` records. -/
theorem joinError_isSome (ctxErr : ε) (created : TransportResult ε) :
    (joinError is ctxErr created).isSome = true ↔
      ∃ err, created.err = some err ∧ is err ctxErr = false := by
  unfold joinError
  cases created.err <;> simp

/-! ## The invariant -/

/-- The stop requests are committed. -/
def Pc.committed : Pc ε → Bool
  | .closingMedia | .closingTransport | .closingHandlers _ | .joiningWorkers | .completing
  | .finished => true
  | _ => false

/-- Nothing has failed yet on the way to this place. -/
def Pc.clean : Pc ε → Bool
  | .idle | .started | .creating | .joining _ | .closingCanceled _ _ | .beginning | .active => true
  | _ => false

/-- `OnBegin` has not returned to the supervisor. -/
def Pc.connecting : Pc ε → Bool
  | .started | .creating | .beginning => true
  | _ => false

/-- What holds in every reachable state. -/
structure Inv (s : State ε) : Prop where
  commit : s.stopCommit = s.pc.committed
  queue : s.stopCommit = true → s.stopQueue = []
  kept : s.stopQueue ≠ [] → s.token = true ∨ 0 < s.offering ∨ s.pc.leftSelects = true
  clean : s.pc.clean = true → s.terminal = .empty
  connecting : s.pc.connecting = true → s.state = .connecting
  idle : s.runStarted = false ↔ s.pc = .idle
  unfinished : s.pc ≠ .finished → s.done = [] ∧ s.doneCloses = 0 ∧ s.finalizedCloses = 0
  finished : s.pc = .finished →
    s.done = [s.terminal.cause] ∧ s.doneCloses = 1 ∧ s.finalizedCloses = 1 ∧
      s.state = if s.terminal.failed then .failed else .closed

theorem inv_initial : Inv (initial : State ε) := by
  constructor <;> simp [initial, Pc.committed, Pc.connecting]

theorem Inv.requestStop (h : Inv s) (request : StopRequest ε) : Inv (s.requestStop request) := by
  unfold State.requestStop
  split_ifs with hcommit
  · exact ⟨h.commit, h.queue, h.kept, h.clean, h.connecting, h.idle, h.unfinished, h.finished⟩
  · exact ⟨h.commit, fun hc => absurd hc hcommit, fun _ => .inr (.inl (Nat.succ_pos _)), h.clean,
      h.connecting, h.idle, h.unfinished, h.finished⟩

/-! ## What a step can do -/

/-- The step leaves alone what only the supervisor changes. -/
structure SameControl (s t : State ε) : Prop where
  pc : t.pc = s.pc
  terminal : t.terminal = s.terminal
  state : t.state = s.state
  stopCommit : t.stopCommit = s.stopCommit
  runStarted : t.runStarted = s.runStarted
  done : t.done = s.done
  doneCloses : t.doneCloses = s.doneCloses
  finalizedCloses : t.finalizedCloses = s.finalizedCloses

/-- The step leaves alone the stop requests and the channels of the result. -/
structure SameStops (s t : State ε) : Prop where
  stopQueue : t.stopQueue = s.stopQueue
  stopCommit : t.stopCommit = s.stopCommit
  offering : t.offering = s.offering
  runStarted : t.runStarted = s.runStarted
  done : t.done = s.done
  doneCloses : t.doneCloses = s.doneCloses
  finalizedCloses : t.finalizedCloses = s.finalizedCloses

/-- A step of the supervisor on its way to the commit. -/
structure Moved (s t : State ε) : Prop where
  stops : SameStops s t
  source : s.pc.committed = false ∧ s.pc ≠ .idle
  target : t.pc.committed = false ∧ t.pc ≠ .idle
  token : t.pc.leftSelects = true ∨ t.token = s.token ∧ s.pc.leftSelects = false
  clean : t.pc.clean = true → t.terminal = .empty
  connecting : t.pc.connecting = true → t.state = .connecting

/-- A step of the supervisor between the commit and the completion. -/
structure TornDown (s t : State ε) : Prop where
  stops : SameStops s t
  source : s.pc.committed = true ∧ s.pc ≠ .finished
  target : t.pc.committed = true ∧ t.pc ≠ .finished

/-- The kinds of steps. Each comes with when it makes the session fail. -/
inductive StepKind (config : Config) (is : ε → ε → Bool) (s : State ε) (a : Action ε) (t : State ε) :
    Prop where
  | outside (control : SameControl s t) (queue : t.stopQueue = s.stopQueue)
      (token : s.token = true ∨ 0 < s.offering → t.token = true ∨ 0 < t.offering)
      (request : a.request = none) (teardown : a.teardownFailure = none) (fails : ¬ Fails config is s a)
  | requested (request : StopRequest ε) (action : a = .requestStop request)
      (target : t = s.requestStop request)
  | ran (source : s.runStarted = false)
      (target : t = { s with runStarted := true, state := .connecting, pc := .started })
      (request : a.request = none) (teardown : a.teardownFailure = none) (fails : ¬ Fails config is s a)
  | moved (move : Moved s t) (request : a.request = none) (teardown : a.teardownFailure = none)
      (fails : t.terminal.failed = true ↔ s.terminal.failed = true ∨ Fails config is s a)
  | committed (action : a = .commit) (source : s.pc = .committing) (target : t = s.commitStopRequests)
  | tornDown (move : TornDown s t) (request : a.request = none)
      (terminal : t.terminal = s.terminal.mergeFailure a.teardownFailure)
      (fails : Fails config is s a ↔ a.teardownFailure.isSome = true)
  | completed (action : a = .complete) (source : s.pc = .completing) (target : t = s.complete)

theorem afterHandlers_pc : s.afterHandlers.pc.committed = true ∧ s.afterHandlers.pc ≠ .finished := by
  unfold State.afterHandlers
  cases s.transport <;> simp [Pc.committed]

theorem runHandlers_terminal (rest : Nat) : (s.runHandlers rest).terminal = s.terminal := by
  cases rest <;> rfl

/-- Going on to the close handlers is a step of the teardown. -/
theorem tornDown_runHandlers (hstops : SameStops s t)
    (hsource : s.pc.committed = true ∧ s.pc ≠ .finished) (rest : Nat) :
    TornDown s (t.runHandlers rest) := by
  obtain ⟨h1, h2, h3, h4, h5, h6, h7⟩ := hstops
  cases rest with
  | zero => exact ⟨⟨h1, h2, h3, h4, h5, h6, h7⟩, hsource, afterHandlers_pc⟩
  | succ rest => exact ⟨⟨h1, h2, h3, h4, h5, h6, h7⟩, hsource, by simp [State.runHandlers, Pc.committed]⟩

section Step

variable [DecidableEq ε]

/-- Every step is of one of the kinds. -/
theorem step_kind (h : Inv s) (hstep : step config is canceled s a = some t) :
    StepKind config is s a t := by
  cases a with
  | run =>
    simp only [step, Option.ite_none_left_eq_some] at hstep
    obtain ⟨hrun, hstep⟩ := hstep
    obtain rfl := Option.some.inj hstep
    exact .ran (by simpa using hrun) rfl rfl rfl (by simp [Fails, ConstructionFails, Action.teardownFailure])
  | requestStop request => exact .requested request rfl (Option.some.inj hstep).symm
  | offer =>
    simp only [step, Option.ite_none_right_eq_some] at hstep
    obtain ⟨-, hstep⟩ := hstep
    obtain rfl := Option.some.inj hstep
    exact .outside ⟨rfl, rfl, rfl, rfl, rfl, rfl, rfl, rfl⟩ rfl (fun _ => .inl rfl) rfl rfl
      (by simp [Fails, ConstructionFails, Action.teardownFailure])
  | parentEnds err =>
    simp only [step, Option.ite_none_right_eq_some] at hstep
    obtain ⟨-, hstep⟩ := hstep
    obtain rfl := Option.some.inj hstep
    exact .outside ⟨rfl, rfl, rfl, rfl, rfl, rfl, rfl, rfl⟩ rfl id rfl rfl
      (by simp [Fails, ConstructionFails, Action.teardownFailure])
  | onClose =>
    obtain rfl := Option.some.inj hstep
    exact .outside ⟨rfl, rfl, rfl, rfl, rfl, rfl, rfl, rfl⟩ rfl id rfl rfl
      (by simp [Fails, ConstructionFails, Action.teardownFailure])
  | factoryReturns result =>
    simp only [step, Option.ite_none_right_eq_some] at hstep
    obtain ⟨-, hstep⟩ := hstep
    obtain rfl := Option.some.inj hstep
    exact .outside ⟨rfl, rfl, rfl, rfl, rfl, rfl, rfl, rfl⟩ rfl id rfl rfl
      (by simp [Fails, ConstructionFails, Action.teardownFailure])
  | onBeginReturns err =>
    simp only [step, Option.ite_none_right_eq_some] at hstep
    obtain ⟨-, hstep⟩ := hstep
    obtain rfl := Option.some.inj hstep
    exact .outside ⟨rfl, rfl, rfl, rfl, rfl, rfl, rfl, rfl⟩ rfl id rfl rfl
      (by simp [Fails, ConstructionFails, Action.teardownFailure])
  | configure =>
    simp only [step, Option.ite_none_right_eq_some] at hstep
    obtain ⟨hpc, hstep⟩ := hstep
    have hempty := h.clean (by rw [hpc]; rfl)
    split at hstep
    next text htext =>
      obtain rfl := Option.some.inj hstep
      refine .moved ⟨⟨rfl, rfl, rfl, rfl, rfl, rfl, rfl⟩, ?_, ?_, .inl rfl, ?_, ?_⟩ rfl rfl ?_
      all_goals simp [hpc, htext, Pc.committed, Pc.clean, Pc.connecting, StopRequest.failure, Fails]
    next htext =>
      obtain rfl := Option.some.inj hstep
      refine .moved ⟨⟨rfl, rfl, rfl, rfl, rfl, rfl, rfl⟩, ?_, ?_, .inr ?_, ?_, ?_⟩ rfl rfl ?_
      all_goals simp_all [Pc.committed, Pc.clean, Pc.connecting, Pc.leftSelects, Fails, ConstructionFails,
        Action.teardownFailure, h.connecting]
  | created =>
    simp only [step, Option.ite_none_right_eq_some, Option.map_eq_some_iff] at hstep
    obtain ⟨hpc, created, hfactory, rfl⟩ := hstep
    have hempty := h.clean (by rw [hpc]; rfl)
    have hstate := h.connecting (by rw [hpc]; rfl)
    by_cases hok : created.err.isNone ∧ created.transport
    · rw [State.acceptTransportResult, if_pos hok]
      refine .moved ⟨⟨rfl, rfl, rfl, rfl, rfl, rfl, rfl⟩, ?_, ?_, .inr ?_, ?_, ?_⟩ rfl rfl ?_
      all_goals simp_all [Pc.committed, Pc.leftSelects, Fails, ConstructionFails, Action.teardownFailure]
    · rw [State.acceptTransportResult, if_neg hok]
      refine .moved ⟨⟨rfl, rfl, rfl, rfl, rfl, rfl, rfl⟩, ?_, ?_, .inl ?_, ?_, ?_⟩ rfl rfl ?_
      · simp [hpc, Pc.committed]
      · cases created.transport <;> simp [Pc.committed]
      · cases created.transport <;> simp [Pc.leftSelects]
      · cases created.transport <;> simp [Pc.clean]
      · cases created.transport <;> simp [Pc.connecting]
      · rw [mergeFailure_failed, acceptError_isSome, hempty]
        have hnone : created.err = none → created.transport = false := by simpa using hok
        simp only [StopRequest.empty, Fails, ConstructionFails, Action.teardownFailure, hfactory]
        grind
  | createStopped ctxErr =>
    simp only [step, Option.ite_none_right_eq_some] at hstep
    obtain ⟨⟨hpc, -⟩, hstep⟩ := hstep
    obtain rfl := Option.some.inj hstep
    have hempty := h.clean (by rw [hpc]; rfl)
    refine .moved ⟨⟨rfl, rfl, rfl, rfl, rfl, rfl, rfl⟩, ?_, ?_, .inl rfl, ?_, ?_⟩ rfl rfl ?_
    all_goals simp [hpc, hempty, Pc.committed, Pc.connecting, Fails, ConstructionFails, Action.teardownFailure]
  | createParentDone ctxErr =>
    simp only [step, Option.ite_none_right_eq_some] at hstep
    obtain ⟨⟨hpc, -⟩, hstep⟩ := hstep
    obtain rfl := Option.some.inj hstep
    have hempty := h.clean (by rw [hpc]; rfl)
    refine .moved ⟨⟨rfl, rfl, rfl, rfl, rfl, rfl, rfl⟩, ?_, ?_, .inl rfl, ?_, ?_⟩ rfl rfl ?_
    all_goals simp [hpc, hempty, Pc.committed, Pc.connecting, Fails, ConstructionFails, Action.teardownFailure]
  | partialCloses err =>
    simp only [step, Option.ite_none_right_eq_some] at hstep
    obtain ⟨hpc, hstep⟩ := hstep
    obtain rfl := Option.some.inj hstep
    refine .moved ⟨⟨rfl, rfl, rfl, rfl, rfl, rfl, rfl⟩, ?_, ?_, .inl rfl, ?_, ?_⟩ rfl rfl ?_
    all_goals simp [hpc, mergeFailure_failed, Pc.committed, Pc.clean, Pc.connecting, Fails, ConstructionFails,
      Action.teardownFailure]
  | joined =>
    simp only [step] at hstep
    split at hstep
    next ctxErr created hpc hfactory =>
      have hempty := h.clean (by rw [hpc]; rfl)
      split_ifs at hstep with htransport <;> obtain rfl := Option.some.inj hstep
      · refine .moved ⟨⟨rfl, rfl, rfl, rfl, rfl, rfl, rfl⟩, ?_, ?_, .inl rfl, ?_, ?_⟩ rfl rfl ?_
        all_goals simp_all [Pc.committed, Pc.connecting, Fails, ConstructionFails, Action.teardownFailure]
      · refine .moved ⟨⟨rfl, rfl, rfl, rfl, rfl, rfl, rfl⟩, ?_, ?_, .inl rfl, ?_, ?_⟩ rfl rfl ?_
        all_goals simp_all [mergeFailure_failed, joinError_isSome, Pc.committed, Pc.clean, Pc.connecting, Fails,
          ConstructionFails, Action.teardownFailure]
    next => cases hstep
  | joinTimeout =>
    simp only [step] at hstep
    split at hstep
    next ctxErr hpc =>
      obtain rfl := Option.some.inj hstep
      refine .moved ⟨⟨rfl, rfl, rfl, rfl, rfl, rfl, rfl⟩, ?_, ?_, .inl rfl, ?_, ?_⟩ rfl rfl ?_
      all_goals simp [hpc, StopRequest.merge, StopRequest.failure, Pc.committed, Pc.clean, Pc.connecting, Fails,
        ConstructionFails]
    next => cases hstep
  | canceledCloses err =>
    simp only [step] at hstep
    split at hstep
    next ctxErr created hpc =>
      obtain rfl := Option.some.inj hstep
      refine .moved ⟨⟨rfl, rfl, rfl, rfl, rfl, rfl, rfl⟩, ?_, ?_, .inl rfl, ?_, ?_⟩ rfl rfl ?_
      all_goals simp [hpc, mergeFailure_failed, joinError_isSome, Pc.committed, Pc.clean,
        Pc.connecting, Fails, ConstructionFails, Action.teardownFailure, or_assoc]
    next => cases hstep
  | beginReceived =>
    simp only [step, Option.ite_none_right_eq_some, Option.map_eq_some_iff] at hstep
    obtain ⟨hpc, err, hbegin, rfl⟩ := hstep
    have hempty := h.clean (by rw [hpc]; rfl)
    cases err with
    | none =>
      have ht : (s.receiveBegin none).afterBegin = { s with state := .active, pc := .active } := by
        simp [State.receiveBegin, State.afterBegin, hempty, StopRequest.empty]
      rw [ht]
      refine .moved ⟨⟨rfl, rfl, rfl, rfl, rfl, rfl, rfl⟩, ?_, ?_, .inr ?_, ?_, ?_⟩ rfl rfl ?_
      all_goals simp [hpc, hempty, hbegin, Pc.committed, Pc.leftSelects, Pc.connecting, Fails, ConstructionFails,
        Action.teardownFailure]
    | some err =>
      have ht : (s.receiveBegin (some err)).afterBegin =
          { s with terminal := .failure (.wrapped "handler OnBegin: " err), pc := .committing } := by
        simp [State.receiveBegin, State.afterBegin, StopRequest.failure]
      rw [ht]
      refine .moved ⟨⟨rfl, rfl, rfl, rfl, rfl, rfl, rfl⟩, ?_, ?_, .inl rfl, ?_, ?_⟩ rfl rfl ?_
      all_goals simp [hpc, hbegin, StopRequest.failure, Pc.committed, Pc.clean, Pc.connecting, Fails]
  | beginStopped =>
    simp only [step, Option.ite_none_right_eq_some] at hstep
    obtain ⟨⟨hpc, -⟩, hstep⟩ := hstep
    have hstate := h.connecting (by rw [hpc]; rfl)
    have ht : t = { s with token := false, pc := .committing } := by
      rw [← Option.some.inj hstep]
      simp [State.afterBegin, hstate]
    subst ht
    refine .moved ⟨⟨rfl, rfl, rfl, rfl, rfl, rfl, rfl⟩, ?_, ?_, .inl rfl, ?_, ?_⟩ rfl rfl ?_
    all_goals simp [hpc, Pc.committed, Pc.clean, Pc.connecting, Fails, ConstructionFails, Action.teardownFailure]
  | beginParentDone =>
    simp only [step, Option.ite_none_right_eq_some] at hstep
    obtain ⟨⟨hpc, -⟩, hstep⟩ := hstep
    have hempty := h.clean (by rw [hpc]; rfl)
    have hstate := h.connecting (by rw [hpc]; rfl)
    have ht : t = { s with terminal := .empty, pc := .committing } := by
      rw [← Option.some.inj hstep]
      simp [State.afterBegin, hstate]
    subst ht
    refine .moved ⟨⟨rfl, rfl, rfl, rfl, rfl, rfl, rfl⟩, ?_, ?_, .inl rfl, ?_, ?_⟩ rfl rfl ?_
    all_goals simp [hpc, hempty, Pc.committed, Pc.connecting, Fails, ConstructionFails, Action.teardownFailure]
  | activeStopped =>
    simp only [step, Option.ite_none_right_eq_some] at hstep
    obtain ⟨⟨hpc, -⟩, hstep⟩ := hstep
    obtain rfl := Option.some.inj hstep
    refine .moved ⟨⟨rfl, rfl, rfl, rfl, rfl, rfl, rfl⟩, ?_, ?_, .inl rfl, ?_, ?_⟩ rfl rfl ?_
    all_goals simp [hpc, Pc.committed, Pc.clean, Pc.connecting, Fails, ConstructionFails, Action.teardownFailure]
  | activeParentDone =>
    simp only [step, Option.ite_none_right_eq_some] at hstep
    obtain ⟨⟨hpc, -⟩, hstep⟩ := hstep
    obtain rfl := Option.some.inj hstep
    have hempty := h.clean (by rw [hpc]; rfl)
    refine .moved ⟨⟨rfl, rfl, rfl, rfl, rfl, rfl, rfl⟩, ?_, ?_, .inl rfl, ?_, ?_⟩ rfl rfl ?_
    all_goals simp [hpc, hempty, Pc.committed, Pc.connecting, Fails, ConstructionFails, Action.teardownFailure]
  | commit =>
    simp only [step, Option.ite_none_right_eq_some] at hstep
    exact .committed rfl hstep.1 (Option.some.inj hstep.2).symm
  | mediaCloses err =>
    simp only [step, Option.ite_none_right_eq_some] at hstep
    obtain ⟨hpc, hstep⟩ := hstep
    obtain rfl := Option.some.inj hstep
    have hpos : s.pc.committed = true ∧ s.pc ≠ .finished := by simp [hpc, Pc.committed]
    split_ifs
    · exact .tornDown ⟨⟨rfl, rfl, rfl, rfl, rfl, rfl, rfl⟩, hpos, by simp [Pc.committed]⟩ rfl rfl
        (by simp [Fails, ConstructionFails, Action.teardownFailure])
    · refine .tornDown (tornDown_runHandlers ?_ hpos _) rfl
        (runHandlers_terminal _) (by simp [Fails, ConstructionFails, Action.teardownFailure])
      exact ⟨rfl, rfl, rfl, rfl, rfl, rfl, rfl⟩
  | transportCloses err =>
    simp only [step, Option.ite_none_right_eq_some] at hstep
    obtain ⟨hpc, hstep⟩ := hstep
    obtain rfl := Option.some.inj hstep
    have hpos : s.pc.committed = true ∧ s.pc ≠ .finished := by simp [hpc, Pc.committed]
    refine .tornDown (tornDown_runHandlers ?_ hpos _) rfl
      (runHandlers_terminal _) (by simp [Fails, ConstructionFails, Action.teardownFailure])
    exact ⟨rfl, rfl, rfl, rfl, rfl, rfl, rfl⟩
  | closeHandlerReturns err =>
    simp only [step] at hstep
    split at hstep
    next rest hpc =>
      obtain rfl := Option.some.inj hstep
      have hpos : s.pc.committed = true ∧ s.pc ≠ .finished := by simp [hpc, Pc.committed]
      refine .tornDown (tornDown_runHandlers ?_ hpos _) rfl
        (runHandlers_terminal _) (by simp [Fails, ConstructionFails, Action.teardownFailure])
      exact ⟨rfl, rfl, rfl, rfl, rfl, rfl, rfl⟩
    next => cases hstep
  | workersDone =>
    simp only [step, Option.ite_none_right_eq_some] at hstep
    obtain ⟨hpc, hstep⟩ := hstep
    obtain rfl := Option.some.inj hstep
    exact .tornDown ⟨⟨rfl, rfl, rfl, rfl, rfl, rfl, rfl⟩, by simp [hpc, Pc.committed], by simp [Pc.committed]⟩
      rfl rfl (by simp [Fails, ConstructionFails, Action.teardownFailure])
  | workersTimeout =>
    simp only [step, Option.ite_none_right_eq_some] at hstep
    obtain ⟨hpc, hstep⟩ := hstep
    obtain rfl := Option.some.inj hstep
    exact .tornDown ⟨⟨rfl, rfl, rfl, rfl, rfl, rfl, rfl⟩, by simp [hpc, Pc.committed], by simp [Pc.committed]⟩
      rfl rfl (by simp [Fails, ConstructionFails, Action.teardownFailure])
  | complete =>
    simp only [step, Option.ite_none_right_eq_some] at hstep
    exact .completed rfl hstep.1 (Option.some.inj hstep.2).symm

theorem Inv.step (h : Inv s) (hstep : step config is canceled s a = some t) : Inv t := by
  cases step_kind h hstep with
  | outside hc hqueue htoken _ _ _ =>
    constructor
    · rw [hc.stopCommit, hc.pc, h.commit]
    · rw [hc.stopCommit, hqueue]
      exact h.queue
    · intro hne
      rw [hc.pc]
      rw [hqueue] at hne
      rcases h.kept hne with hk | hk | hk
      · exact (htoken (.inl hk)).imp_right .inl
      · exact (htoken (.inr hk)).imp_right .inl
      · exact .inr (.inr hk)
    · rw [hc.pc, hc.terminal]
      exact h.clean
    · rw [hc.pc, hc.state]
      exact h.connecting
    · rw [hc.pc, hc.runStarted]
      exact h.idle
    · rw [hc.pc, hc.done, hc.doneCloses, hc.finalizedCloses]
      exact h.unfinished
    · rw [hc.pc, hc.done, hc.doneCloses, hc.finalizedCloses, hc.terminal, hc.state]
      exact h.finished
  | requested request _ ht =>
    subst ht
    exact h.requestStop request
  | ran hrun ht _ _ _ =>
    have hpc := h.idle.mp hrun
    have hunf := h.unfinished (by simp [hpc])
    subst ht
    refine ⟨?_, h.queue, fun hne => ?_, fun _ => h.clean (by rw [hpc]; rfl), fun _ => rfl, by simp,
      fun _ => hunf, by simp⟩
    · rw [h.commit, hpc]
      rfl
    · have hk := h.kept hne
      rw [hpc] at hk
      exact hk
  | moved hm _ _ _ =>
    obtain ⟨hst, ⟨hs1, hs2⟩, ⟨ht1, ht2⟩, htoken, hclean, hconn⟩ := hm
    have hsf : s.pc ≠ .finished := by rintro hf; simp [hf, Pc.committed] at hs1
    have htf : t.pc ≠ .finished := by rintro hf; simp [hf, Pc.committed] at ht1
    refine ⟨?_, ?_, fun hne => ?_, hclean, hconn, ?_, fun _ => ?_, fun hf => absurd hf htf⟩
    · rw [hst.stopCommit, h.commit, hs1, ht1]
    · rw [hst.stopCommit, hst.stopQueue]
      exact h.queue
    · rw [hst.stopQueue] at hne
      rcases htoken with hleft | ⟨htok, hsel⟩
      · exact .inr (.inr hleft)
      · rw [htok, hst.offering]
        have hk := h.kept hne
        exact hk.imp_right (Or.imp_right fun hl => absurd hl (by simp [hsel]))
    · rw [hst.runStarted, h.idle]
      simp [hs2, ht2]
    · rw [hst.done, hst.doneCloses, hst.finalizedCloses]
      exact h.unfinished hsf
  | committed _ hpc ht =>
    subst ht
    have hunf := h.unfinished (by simp [hpc])
    exact ⟨rfl, fun _ => rfl, fun hne => absurd rfl hne, (fun hc => by cases hc), (fun hc => by cases hc),
      by simp [State.commitStopRequests, h.idle, hpc], fun _ => hunf, (fun hf => by cases hf)⟩
  | tornDown hm _ _ _ =>
    obtain ⟨hst, ⟨hs1, hs2⟩, ht1, ht2⟩ := hm
    have hqueue : t.stopQueue = [] := by rw [hst.stopQueue, h.queue (h.commit.trans hs1)]
    refine ⟨?_, fun _ => hqueue, fun hne => absurd hqueue hne, fun hc => ?_, fun hc => ?_, ?_, fun _ => ?_,
      fun hf => absurd hf ht2⟩
    · rw [hst.stopCommit, h.commit, hs1, ht1]
    · cases hpc : t.pc <;> simp_all [Pc.committed, Pc.clean]
    · cases hpc : t.pc <;> simp_all [Pc.committed, Pc.connecting]
    · have hsi : s.pc ≠ .idle := by rintro hi; simp [hi, Pc.committed] at hs1
      have hti : t.pc ≠ .idle := by rintro hi; simp [hi, Pc.committed] at ht1
      rw [hst.runStarted, h.idle]
      simp [hsi, hti]
    · rw [hst.done, hst.doneCloses, hst.finalizedCloses]
      exact h.unfinished hs2
  | completed _ hpc ht =>
    subst ht
    obtain ⟨hdone, hcloses, hfinal⟩ := h.unfinished (by simp [hpc])
    have hcommit : s.stopCommit = true := h.commit.trans (by rw [hpc]; rfl)
    exact ⟨hcommit, h.queue, fun hne => absurd (h.queue hcommit) hne, (fun hc => by cases hc),
      (fun hc => by cases hc), by simp [State.complete, h.idle, hpc], fun hf => absurd rfl hf,
      fun _ => by simp [State.complete, hdone, hcloses, hfinal]⟩

/-! ## What a run does with the stop requests -/

/-- Something has made the session fail. -/
def State.failing (s : State ε) : Prop :=
  s.terminal.failed = true ∨ ∃ request ∈ s.stopQueue, request.failed = true

theorem failing_step (h : Inv s) (hstep : Supervise.step config is canceled s a = some t) :
    t.failing ↔ s.failing ∨ Fails config is s a := by
  unfold State.failing
  cases step_kind h hstep with
  | outside hc hqueue _ _ _ hfails => simp [hc.terminal, hqueue, hfails]
  | requested request ha ht =>
    subst ha ht
    unfold State.requestStop
    split_ifs with hcommit
    · simp [Fails, ConstructionFails, Action.teardownFailure, hcommit]
    · simp [Fails, ConstructionFails, Action.teardownFailure, hcommit, or_and_right, exists_or, or_assoc]
  | ran _ ht _ _ hfails => simp [ht, hfails]
  | moved hm _ _ hfails =>
    rw [hfails, hm.stops.stopQueue]
    exact or_right_comm
  | committed ha _ ht =>
    subst ha ht
    simp [State.commitStopRequests, foldl_merge_failed, Fails, ConstructionFails, Action.teardownFailure]
  | tornDown hm _ hterminal hfails =>
    rw [hterminal, mergeFailure_failed, hm.stops.stopQueue, hfails]
    exact or_right_comm
  | completed ha _ ht =>
    subst ha ht
    simp [State.complete, Fails, ConstructionFails, Action.teardownFailure]

/-- Before the commit a step queues the request it issues, and only `commit` ends that. -/
theorem queue_step (h : Inv s) (hs : s.stopCommit = false)
    (hstep : Supervise.step config is canceled s a = some t) :
    (a = .commit ∧ t = s.commitStopRequests) ∨
      (t.stopCommit = false ∧ t.stopQueue = s.stopQueue ++ a.request.toList) := by
  cases step_kind h hstep with
  | outside hc hqueue _ hrequest _ _ => exact .inr ⟨by rw [hc.stopCommit, hs], by simp [hqueue, hrequest]⟩
  | requested request ha ht =>
    subst ha ht
    exact .inr (by simp [State.requestStop, hs, Action.request])
  | ran _ ht hrequest _ _ => exact .inr (by simp [ht, hs, hrequest])
  | moved hm hrequest _ _ =>
    exact .inr ⟨by rw [hm.stops.stopCommit, hs], by simp [hm.stops.stopQueue, hrequest]⟩
  | committed ha _ ht => exact .inl ⟨ha, ht⟩
  | tornDown hm _ _ _ => exact absurd (h.commit.trans hm.source.1) (by simp [hs])
  | completed _ hpc _ => exact absurd h.commit (by simp [hs, hpc, Pc.committed])

/-- After the commit a step adds its teardown failure to the terminal result, and nothing else does. -/
theorem teardown_step (h : Inv s) (hs : s.stopCommit = true)
    (hstep : Supervise.step config is canceled s a = some t) :
    t.stopCommit = true ∧ t.terminal = s.terminal.mergeFailure a.teardownFailure := by
  have hpc : s.pc.committed = true := h.commit.symm.trans hs
  cases step_kind h hstep with
  | outside hc _ _ _ hteardown _ => exact ⟨hc.stopCommit.trans hs, by rw [hc.terminal, hteardown]; rfl⟩
  | requested request ha ht =>
    subst ha ht
    simp [State.requestStop, hs, Action.teardownFailure, StopRequest.mergeFailure]
  | ran hrun _ _ _ _ => simp [h.idle.mp hrun, Pc.committed] at hpc
  | moved hm _ _ _ => simp [hm.source.1] at hpc
  | committed _ hcommitting _ => simp [hcommitting, Pc.committed] at hpc
  | tornDown hm _ hterminal _ => exact ⟨hm.stops.stopCommit.trans hs, hterminal⟩
  | completed ha _ ht =>
    subst ha ht
    exact ⟨hs, rfl⟩

/-- After the commit a run adds the failures of its teardown. -/
theorem teardown_exec (h : Inv s) (hs : s.stopCommit = true) {schedule : List (Action ε)}
    (hexec : (machine config is canceled).exec s schedule = some t) :
    t.terminal = (teardownFailures schedule).foldl (fun r c => r.merge (.failure c)) s.terminal := by
  induction schedule generalizing s with
  | nil =>
    obtain rfl : s = t := by simpa using hexec
    rfl
  | cons a schedule ih =>
    obtain ⟨u, hu, hut⟩ := Option.bind_eq_some_iff.mp hexec
    obtain ⟨hcommit, hterminal⟩ := teardown_step h hs hu
    rw [ih (h.step hu) hcommit hut, hterminal, teardownFailures, teardownFailures]
    cases hfailure : a.teardownFailure with
    | none => simp [hfailure, StopRequest.mergeFailure]
    | some cause => simp [hfailure, StopRequest.mergeFailure]

/-- What a committed run has folded: the requests before the commit and the failures of the teardown
after it. -/
theorem commit_exec (h : Inv s) (hs : s.stopCommit = false) (ht : t.stopCommit = true)
    {schedule : List (Action ε)} (hexec : (machine config is canceled).exec s schedule = some t) :
    ∃ pre post before, schedule = pre ++ .commit :: post ∧
      (machine config is canceled).exec s pre = some before ∧ before.stopCommit = false ∧
      t.terminal = (teardownFailures post).foldl (fun r c => r.merge (.failure c))
        ((s.stopQueue ++ requests pre).foldl StopRequest.merge before.terminal) := by
  induction schedule generalizing s with
  | nil =>
    obtain rfl : s = t := by simpa using hexec
    simp [hs] at ht
  | cons a schedule ih =>
    obtain ⟨u, hu, hut⟩ := Option.bind_eq_some_iff.mp hexec
    have hinv : Inv u := h.step hu
    rcases queue_step h hs hu with ⟨rfl, rfl⟩ | ⟨hcommit, hqueue⟩
    · refine ⟨[], schedule, s, rfl, rfl, hs, ?_⟩
      rw [teardown_exec hinv rfl hut]
      simp [requests, State.commitStopRequests]
    · obtain ⟨pre, post, before, hsched, hpre, hbefore, hterminal⟩ := ih hinv hcommit hut
      refine ⟨a :: pre, post, before, by rw [hsched]; rfl, ?_, hbefore, ?_⟩
      · rw [Machine.exec_cons, hu]
        exact hpre
      · rw [hterminal, hqueue]
        cases hrequest : a.request with
        | none => simp [requests, hrequest]
        | some request => simp [requests, hrequest]

/-! ## Every run can be completed -/

/-- Some continuation completes the session. -/
def Completes (config : Config) (is : ε → ε → Bool) (canceled : ε) (s : State ε) : Prop :=
  ∃ rest t, (machine config is canceled).exec s rest = some t ∧ t.pc = .finished

theorem Completes.of_step (a : Action ε) (hstep : Supervise.step config is canceled s a = some t)
    (ht : Completes config is canceled t) : Completes config is canceled s := by
  obtain ⟨rest, u, hexec, hu⟩ := ht
  refine ⟨a :: rest, u, ?_, hu⟩
  rw [Machine.exec_cons, show (machine config is canceled).step s a = some t from hstep]
  exact hexec

/-- The place of the supervisor may be written out. -/
theorem Completes.at {pc : Pc ε} (hpc : s.pc = pc)
    (h : Completes config is canceled { s with pc := pc }) : Completes config is canceled s := by
  subst hpc
  exact h

theorem completes_completing (hpc : s.pc = .completing) : Completes config is canceled s :=
  .at hpc ⟨[.complete], _, rfl, rfl⟩

theorem completes_joiningWorkers (hpc : s.pc = .joiningWorkers) : Completes config is canceled s :=
  .at hpc (.of_step .workersDone rfl (completes_completing rfl))

theorem completes_runHandlers (rest : Nat) : Completes config is canceled (s.runHandlers rest) := by
  induction rest generalizing s with
  | zero =>
    simp only [State.runHandlers, State.afterHandlers]
    split_ifs
    · exact completes_joiningWorkers rfl
    · exact completes_completing rfl
  | succ rest ih => exact .of_step (.closeHandlerReturns none) rfl ih

theorem completes_closingTransport (hpc : s.pc = .closingTransport) : Completes config is canceled s :=
  .at hpc (.of_step (.transportCloses none) rfl (completes_runHandlers _))

theorem completes_closingMedia (hpc : s.pc = .closingMedia) : Completes config is canceled s := by
  refine .at hpc (.of_step (.mediaCloses none) rfl ?_)
  split_ifs
  · exact completes_closingTransport rfl
  · exact completes_runHandlers _

theorem completes_committing (hpc : s.pc = .committing) : Completes config is canceled s :=
  .at hpc (.of_step .commit rfl (completes_closingMedia rfl))

theorem completes_joining {ctxErr : ε} (hpc : s.pc = .joining ctxErr) : Completes config is canceled s :=
  .at hpc (.of_step .joinTimeout rfl (completes_committing rfl))

/-- When the end of the parent completes the session, the session can be completed. -/
theorem completes_of_parent
    (h : ∀ u : State ε, u.pc = s.pc → u.parent.isSome → Completes config is canceled u) :
    Completes config is canceled s := by
  by_cases hparent : s.parent.isSome
  · exact h s rfl hparent
  · refine .of_step (.parentEnds canceled) ?_ (h { s with parent := some canceled } rfl rfl)
    simp_all [Supervise.step]

theorem completes_active (hpc : s.pc = .active) : Completes config is canceled s :=
  completes_of_parent fun _ hu hparent =>
    .of_step .activeParentDone (if_pos ⟨hu.trans hpc, hparent⟩) (completes_committing rfl)

theorem completes_afterBegin : Completes config is canceled s.afterBegin := by
  unfold State.afterBegin
  split_ifs
  · exact completes_active rfl
  · exact completes_committing rfl

theorem completes_beginning (hpc : s.pc = .beginning) : Completes config is canceled s :=
  completes_of_parent fun _ hu hparent =>
    .of_step .beginParentDone (if_pos ⟨hu.trans hpc, hparent⟩) completes_afterBegin

theorem completes_creating (hpc : s.pc = .creating) : Completes config is canceled s :=
  completes_of_parent fun _ hu hparent =>
    .of_step (.createParentDone canceled) (if_pos ⟨hu.trans hpc, hparent, .inl rfl⟩)
      (completes_joining rfl)

/-- A session that runs can be completed from wherever it is. -/
theorem completes_of_runStarted (h : Inv s) (hrun : s.runStarted = true) :
    Completes config is canceled s := by
  cases hpc : s.pc with
  | idle => simp [h.idle.mpr hpc] at hrun
  | started =>
    refine .at hpc ?_
    cases hcheck : config.check with
    | none =>
      refine .of_step .configure ?_ (completes_creating (s := { s with pc := .creating }) rfl)
      simp [Supervise.step, hcheck]
    | some text =>
      refine .of_step .configure ?_ (completes_committing
        (s := { s with terminal := .failure (.message text), pc := .committing }) rfl)
      simp [Supervise.step, hcheck]
  | creating => exact completes_creating hpc
  | closingPartial => exact .at hpc (.of_step (.partialCloses none) rfl (completes_committing rfl))
  | joining ctxErr => exact completes_joining hpc
  | closingCanceled ctxErr created =>
    exact .at hpc (.of_step (.canceledCloses none) rfl (completes_committing rfl))
  | beginning => exact completes_beginning hpc
  | active => exact completes_active hpc
  | committing => exact completes_committing hpc
  | closingMedia => exact completes_closingMedia hpc
  | closingTransport => exact completes_closingTransport hpc
  | closingHandlers rest =>
    exact .at hpc (.of_step (.closeHandlerReturns none) rfl (completes_runHandlers rest))
  | joiningWorkers => exact completes_joiningWorkers hpc
  | completing => exact completes_completing hpc
  | finished => exact ⟨[], s, rfl, hpc⟩

/-! ## The result -/

/-- The invariant holds along every run. -/
theorem Inv.exec (h : Inv s) {schedule : List (Action ε)}
    (hexec : (machine config is canceled).exec s schedule = some t) : Inv t :=
  Machine.Steps.invariant (fun _ _ _ hs _ hstep => hs.step hstep) h (.of_exec hexec)

/-- Stop requests are never lost, and they are folded exactly. In every state of every run: a queued
request has its token in the channel, or a call about to offer it, or the supervisor has left its
selects; after the commit the terminal result is that of the construction and `OnBegin`, merged with the
requests before the commit and with the failures of the teardown; a finished session has failed exactly
if some step of the run failed it; and it has sent one result and closed each channel once, which
every run can be brought to. -/
theorem stop_requests_kept_and_folded (config : Config) (is : ε → ε → Bool) (canceled : ε)
    (schedule : List (Action ε)) (s : State ε)
    (hexec : (machine config is canceled).exec initial schedule = some s) :
    (s.stopQueue ≠ [] → s.stopCommit = false →
      s.token = true ∨ 0 < s.offering ∨ s.pc.leftSelects = true) ∧
    (s.stopCommit = true → ∃ pre post before, schedule = pre ++ .commit :: post ∧
      (machine config is canceled).exec initial pre = some before ∧ before.stopCommit = false ∧
      s.terminal = (teardownFailures post).foldl (fun r c => r.merge (.failure c))
        ((requests pre).foldl StopRequest.merge before.terminal)) ∧
    (s.pc = .finished →
      (s.state = .failed ↔ (machine config is canceled).Occurs (Fails config is) initial schedule) ∧
      (s.state = .closed ↔ ¬ (machine config is canceled).Occurs (Fails config is) initial schedule)) ∧
    (s.pc ≠ .finished → s.done = [] ∧ s.doneCloses = 0 ∧ s.finalizedCloses = 0) ∧
    (s.pc = .finished → s.done = [s.terminal.cause] ∧ s.doneCloses = 1 ∧ s.finalizedCloses = 1) ∧
    (s.runStarted = true →
      ∃ rest t, (machine config is canceled).exec s rest = some t ∧ t.pc = .finished) := by
  have hinv : Inv s := inv_initial.exec hexec
  refine ⟨fun hne _ => hinv.kept hne, fun hcommit => ?_, fun hpc => ?_, hinv.unfinished, fun hpc => ?_,
    completes_of_runStarted hinv⟩
  · simpa [initial] using commit_exec inv_initial rfl hcommit hexec
  · obtain ⟨-, -, -, hstate⟩ := hinv.finished hpc
    have hqueue : s.stopQueue = [] := hinv.queue (hinv.commit.trans (by rw [hpc]; rfl))
    have hfailing : s.failing ↔
        initial.failing ∨ (machine config is canceled).Occurs (Fails config is) initial schedule :=
      Machine.iff_or_occurs (I := Inv) (P := State.failing)
        (fun _ _ _ hs hstep => ⟨hs.step hstep, failing_step hs hstep⟩) inv_initial hexec
    have hfailed : s.terminal.failed = true ↔
        (machine config is canceled).Occurs (Fails config is) initial schedule := by
      simpa [State.failing, hqueue, initial, StopRequest.empty] using hfailing
    rw [← hfailed, hstate]
    constructor <;> split_ifs with hf <;> simp [hf]
  · obtain ⟨hdone, hcloses, hfinal, -⟩ := hinv.finished hpc
    exact ⟨hdone, hcloses, hfinal⟩

end Step

/-- A session with everything it needs. -/
def fullConfig : Config where
  envelope := true
  factory := true
  handler := true
  idGenerator := true
  keepalive := ⟨0, 0, 0⟩

/-- A run in which a close and a failing reader coalesce into one token, a third request comes after
the commit, and the transport cannot be closed. -/
def coalescedRun : List (Action String) :=
  [.run, .configure, .factoryReturns ⟨true, none⟩, .created, .onBeginReturns none, .beginReceived,
    .requestStop ⟨[], false⟩, .requestStop ⟨[.wrapped "receive control: " "reset"], true⟩, .offer, .offer,
    .activeStopped, .commit, .requestStop ⟨[.given "late"], true⟩, .mediaCloses none,
    .transportCloses (some "broken pipe"), .workersDone, .complete]

theorem coalescedRun_folded :
    ∃ s, (machine fullConfig (· == ·) "context canceled").exec initial coalescedRun = some s ∧
      s.state = .failed ∧
      s.done = [[.wrapped "receive control: " "reset", .wrapped "close transport: " "broken pipe"]] ∧
      (machine fullConfig (· == ·) "context canceled").Occurs (Fails fullConfig (· == ·)) initial
        coalescedRun := by
  refine ⟨_, rfl, rfl, rfl, ?_⟩
  exact (((stop_requests_kept_and_folded fullConfig (· == ·) "context canceled" coalescedRun _
    rfl).2.2.1 rfl).1.mp rfl)

end Rtvbp.Go.Supervise
