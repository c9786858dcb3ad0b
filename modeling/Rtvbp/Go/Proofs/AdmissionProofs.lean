import Rtvbp.Go.Server
import Rtvbp.Go.Proofs.SuperviseProofs

/-!
# The places of a session

A session that runs is in the hands of its handler, in the registry, or finished, and its supervisor has
its transport until the transport is closed, unless it gives up waiting for the factory. Each way from one
place to the next has a lemma.
-/

namespace Rtvbp.Go.Server

open Rtvbp.Lib

variable {ε : Type}

/-! ## A session and its transport -/

section Session

/-- The supervisor has the transport, or waits for the factory that has made it. -/
def Supervisor.Holds (s : Supervise.State ε) : Prop :=
  match s.pc with
  | .creating | .joining _ => ∀ result, s.factory = some result → result.transport = true
  | .closingPartial | .closingCanceled _ _ | .closingTransport => True
  | .beginning | .active | .committing | .closingMedia => s.transport = true
  | _ => False

/-- An open transport is in the hands of the supervisor, unless it has given up. -/
structure Session.Ok (x : Session ε) : Prop where
  supervisor : Supervise.Inv x.supervisor
  owned : x.transport = .opened → x.abandoned = true ∨ Supervisor.Holds x.supervisor

variable [DecidableEq ε] {config : Supervise.Config} {is : ε → ε → Bool} {canceled : ε}
  {s t : Supervise.State ε} {a : Supervise.Action ε} {x y : Session ε}

/-- The supervisor lets go of an open transport only if it gives up. -/
theorem holds_step (h : Supervisor.Holds s) (hstep : Supervise.step config is canceled s a = some t)
    (hrun : a ≠ .run) (hopen : Socket.opened.after a = .opened) :
    abandons a = true ∨ Supervisor.Holds t := by
  cases a with
  | run => exact absurd rfl hrun
  | joinTimeout => exact .inl rfl
  | partialCloses err | canceledCloses err | transportCloses err => cases hopen
  | requestStop request =>
    cases hstep
    right
    unfold Supervise.State.requestStop
    split <;> exact h
  | offer | parentEnds err =>
    simp only [Supervise.step, Option.ite_none_right_eq_some] at hstep
    obtain ⟨-, hstep⟩ := hstep
    cases hstep
    exact .inr h
  | onBeginReturns err =>
    simp only [Supervise.step, Option.ite_none_right_eq_some] at hstep
    obtain ⟨-, hstep⟩ := hstep
    cases hstep
    exact .inr h
  | onClose =>
    cases hstep
    exact .inr h
  | factoryReturns result =>
    simp only [Supervise.step, Option.ite_none_right_eq_some] at hstep
    obtain ⟨⟨hpc, -⟩, hstep⟩ := hstep
    cases hstep
    have htransport : result.transport = true := by
      by_contra hno
      simp [Socket.after, hno, Socket.close] at hopen
    right
    unfold Supervisor.Holds
    cases hs : s.pc with
    | creating | joining ctxErr =>
      intro r hr
      cases hr
      exact htransport
    | _ =>
      rw [hs] at hpc
      cases hpc
  | configure =>
    simp only [Supervise.step, Option.ite_none_right_eq_some] at hstep
    obtain ⟨hpc, -⟩ := hstep
    simp [Supervisor.Holds, hpc] at h
  | created =>
    simp only [Supervise.step, Option.ite_none_right_eq_some, Option.map_eq_some_iff] at hstep
    obtain ⟨hpc, result, hresult, rfl⟩ := hstep
    simp only [Supervisor.Holds, hpc] at h
    have htransport := h result hresult
    right
    unfold Supervise.State.acceptTransportResult
    rw [htransport]
    split
    · exact rfl
    · exact trivial
  | createStopped ctxErr | createParentDone ctxErr =>
    simp only [Supervise.step, Option.ite_none_right_eq_some] at hstep
    obtain ⟨⟨hpc, -⟩, hstep⟩ := hstep
    cases hstep
    simp only [Supervisor.Holds, hpc] at h
    exact .inr h
  | joined =>
    simp only [Supervise.step] at hstep
    split at hstep
    · next ctxErr result hpc hresult =>
      simp only [Supervisor.Holds, hpc] at h
      rw [if_pos (h result hresult)] at hstep
      cases hstep
      exact .inr trivial
    · cases hstep
  | beginReceived =>
    simp only [Supervise.step, Option.ite_none_right_eq_some, Option.map_eq_some_iff] at hstep
    obtain ⟨hpc, err, -, rfl⟩ := hstep
    simp only [Supervisor.Holds, hpc] at h
    right
    unfold Supervise.State.afterBegin
    cases err <;> split <;> exact h
  | beginStopped | beginParentDone =>
    simp only [Supervise.step, Option.ite_none_right_eq_some] at hstep
    obtain ⟨⟨hpc, -⟩, hstep⟩ := hstep
    simp only [Supervisor.Holds, hpc] at h
    cases hstep
    right
    unfold Supervise.State.afterBegin
    split <;> exact h
  | activeStopped | activeParentDone =>
    simp only [Supervise.step, Option.ite_none_right_eq_some] at hstep
    obtain ⟨⟨hpc, -⟩, hstep⟩ := hstep
    simp only [Supervisor.Holds, hpc] at h
    cases hstep
    exact .inr h
  | commit =>
    simp only [Supervise.step, Option.ite_none_right_eq_some] at hstep
    obtain ⟨hpc, hstep⟩ := hstep
    simp only [Supervisor.Holds, hpc] at h
    cases hstep
    exact .inr h
  | mediaCloses err =>
    simp only [Supervise.step, Option.ite_none_right_eq_some] at hstep
    obtain ⟨hpc, hstep⟩ := hstep
    simp only [Supervisor.Holds, hpc] at h
    rw [if_pos h] at hstep
    cases hstep
    exact .inr trivial
  | closeHandlerReturns err =>
    simp only [Supervise.step] at hstep
    split at hstep
    · next hpc => simp [Supervisor.Holds, hpc] at h
    · cases hstep
  | workersDone | workersTimeout | complete =>
    simp only [Supervise.step, Option.ite_none_right_eq_some] at hstep
    obtain ⟨hpc, -⟩ := hstep
    simp [Supervisor.Holds, hpc] at h

omit [DecidableEq ε] in
theorem Socket.opened_of_after {l : Socket} (h : l.after a = .opened) : l = .opened := by
  cases l with
  | opened => rfl
  | unmade | closed =>
    unfold Socket.after at h
    split at h
    · split at h <;> cases h
    · cases h
    · cases h
    · cases h
    · cases h

theorem Session.Ok.step {b : SessionAction ε} (h : x.Ok)
    (hstep : sessionStep config is canceled x b = some y) : y.Ok := by
  cases b with
  | supervise a =>
    simp only [sessionStep, Option.ite_none_right_eq_some, Option.map_eq_some_iff] at hstep
    obtain ⟨hallows, t, ht, rfl⟩ := hstep
    refine ⟨h.supervisor.step ht, fun hopen => ?_⟩
    have hopened := Socket.opened_of_after hopen
    have hrun : a ≠ .run := by
      rintro rfl
      cases hallows
    rcases h.owned hopened with habandoned | hholds
    · left
      show (x.abandoned || abandons a) = true
      rw [habandoned]
      rfl
    · rw [hopened] at hopen
      rcases holds_step hholds ht hrun hopen with habandons | hholds'
      · left
        show (x.abandoned || abandons a) = true
        rw [habandons, Bool.or_true]
      · exact .inr hholds'
  | newTransport =>
    simp only [sessionStep, Option.ite_none_right_eq_some] at hstep
    obtain ⟨⟨-, hconstructing⟩, hstep⟩ := hstep
    cases hstep
    refine ⟨h.supervisor, fun _ => ?_⟩
    simp only [Session.constructing, Bool.or_eq_true, Bool.and_eq_true] at hconstructing
    rcases hconstructing with ⟨hpc, hfactory⟩ | habandoned
    · right
      have hnone := Option.isNone_iff_eq_none.mp hfactory
      unfold Supervisor.Holds
      cases hs : x.supervisor.pc with
      | creating | joining ctxErr =>
        intro result hresult
        rw [hnone] at hresult
        cases hresult
      | _ =>
        rw [hs] at hpc
        cases hpc
    · exact .inl habandoned
  | lateCloses =>
    simp only [sessionStep, Option.ite_none_right_eq_some] at hstep
    obtain ⟨-, hstep⟩ := hstep
    cases hstep
    exact ⟨h.supervisor, fun hopen => by cases hopen⟩

/-- A finished supervisor stays finished, and one that runs stays so. -/
theorem finished_step (h : Supervise.Inv s) (hstep : Supervise.step config is canceled s a = some t) :
    (s.pc = .finished → t.pc = .finished) ∧ (s.runStarted = true → t.runStarted = true) := by
  cases Supervise.step_kind h hstep with
  | outside control _ _ _ _ _ =>
    rw [control.pc, control.runStarted]
    exact ⟨id, id⟩
  | requested request _ ht =>
    subst ht
    unfold Supervise.State.requestStop
    split <;> exact ⟨id, id⟩
  | ran hsource ht _ _ _ =>
    subst ht
    refine ⟨fun hpc => ?_, fun _ => rfl⟩
    have hidle := h.idle.mp hsource
    rw [hpc] at hidle
    cases hidle
  | moved hmove _ _ _ =>
    rw [hmove.stops.runStarted]
    refine ⟨fun hpc => ?_, id⟩
    have hsource := hmove.source.1
    rw [hpc] at hsource
    cases hsource
  | committed _ hsource ht =>
    subst ht
    refine ⟨fun hpc => ?_, id⟩
    rw [hpc] at hsource
    cases hsource
  | tornDown hmove _ _ _ =>
    rw [hmove.stops.runStarted]
    exact ⟨fun hpc => absurd hpc hmove.source.2, id⟩
  | completed _ _ ht =>
    subst ht
    exact ⟨fun _ => rfl, id⟩

theorem finished_sessionStep {b : SessionAction ε} (h : x.Ok)
    (hstep : sessionStep config is canceled x b = some y) :
    (x.supervisor.pc = .finished → y.supervisor.pc = .finished) ∧
      (x.supervisor.runStarted = true → y.supervisor.runStarted = true) := by
  cases b with
  | supervise a =>
    simp only [sessionStep, Option.ite_none_right_eq_some, Option.map_eq_some_iff] at hstep
    obtain ⟨-, t, ht, rfl⟩ := hstep
    exact finished_step h.supervisor ht
  | newTransport | lateCloses =>
    simp only [sessionStep, Option.ite_none_right_eq_some] at hstep
    obtain ⟨-, hstep⟩ := hstep
    cases hstep
    exact ⟨id, id⟩

omit [DecidableEq ε] in
theorem Session.Ok.finished_of_finalized (h : x.Ok) (hfinalized : x.finalized = true) :
    x.supervisor.pc = .finished := by
  by_contra hpc
  simp [Session.finalized, (h.supervisor.unfinished hpc).2.2] at hfinalized

omit [DecidableEq ε] in
theorem Session.Ok.ended (h : x.Ok) (hpc : x.supervisor.pc = .finished) : x.Ended := by
  refine ⟨hpc, ?_, fun hopen => ?_⟩
  · have hstate := (h.supervisor.finished hpc).2.2.2
    rw [hstate]
    split
    · exact .inr rfl
    · exact .inl rfl
  · rcases h.owned hopen with habandoned | hholds
    · exact habandoned
    · simp [Supervisor.Holds, hpc] at hholds

omit [DecidableEq ε] in
theorem Session.Ok.requestStop (h : x.Ok) (request : Supervise.StopRequest ε) :
    ({ x with supervisor := x.supervisor.requestStop request } : Session ε).Ok := by
  refine ⟨h.supervisor.requestStop request, fun hopen => ?_⟩
  rcases h.owned hopen with habandoned | hholds
  · exact .inl habandoned
  · right
    show Supervisor.Holds (x.supervisor.requestStop request)
    unfold Supervise.State.requestStop
    split <;> exact hholds

omit [DecidableEq ε] in
theorem requestStop_keeps (s : Supervise.State ε) (request : Supervise.StopRequest ε) :
    (s.requestStop request).pc = s.pc ∧ (s.requestStop request).runStarted = s.runStarted := by
  unfold Supervise.State.requestStop
  split <;> exact ⟨rfl, rfl⟩

omit [DecidableEq ε] in
/-- `Run` keeps the invariant of the supervisor. -/
theorem inv_run (h : Supervise.Inv s) (hrun : s.runStarted = false) :
    Supervise.Inv { s with runStarted := true, state := .connecting, pc := .started } := by
  have hidle := h.idle.mp hrun
  refine {
    commit := ?_
    queue := h.queue
    kept := fun hne => ?_
    clean := fun _ => h.clean (by rw [hidle]; rfl)
    connecting := fun _ => rfl
    idle := by simp
    unfinished := fun _ => h.unfinished (by simp [hidle])
    finished := fun hc => by cases hc }
  · show s.stopCommit = false
    rw [h.commit, hidle]
    rfl
  · have hkept := h.kept hne
    rw [hidle] at hkept
    exact hkept

end Session

/-! ## The places of a session -/

/-- `admissions` counts the connection. -/
def Handler.counted : Handler → Bool
  | .admitted | .upgraded | .running | .rejecting | .closing | .added | .leaving => true
  | _ => false

/-- The session has not been run. -/
def Handler.unrun : Handler → Bool
  | .absent | .entered | .refused | .admitted | .upgraded => true
  | _ => false

/-- The session is in the hands of the handler. -/
def Handler.holds : Handler → Bool
  | .running | .rejecting | .closing => true
  | _ => false

/-- Where the session of a connection is: in the hands of its handler, in the registry, or finished. -/
structure Placed (h : Handler) (x : Session ε) (inFlight registered : Prop) : Prop where
  ok : x.Ok
  counted : h.counted = true → inFlight
  unrun : h.unrun = true → x.supervisor.runStarted = false
  held : h.holds = true → x.supervisor.runStarted = true
  ran : registered → x.supervisor.runStarted = true
  placed : x.supervisor.runStarted = true → h.holds = true ∨ registered ∨ x.supervisor.pc = .finished
  removing : h = .removing → x.supervisor.pc = .finished

/-- A channel that is closed was made, and no admission is in flight while the current one is closed, or
before the first one is made. -/
structure State.Channels {ι κ : Type} (s : State ι κ ε) : Prop where
  current : ∀ c, s.admissionIdle = some c → c < s.channels ∧ (c ∈ s.closedChannels → s.admissions = 0)
  closed : ∀ c ∈ s.closedChannels, c < s.channels
  none_made : s.admissionIdle = none → s.admissions = 0

/-- What holds of the server without the calls of `Shutdown`. -/
structure State.Admits {ι κ : Type} (s : State ι κ ε) : Prop where
  counted : s.admissions = s.inFlight.length
  placed : ∀ k, Placed (s.handler k) (s.session k) (k ∈ s.inFlight) (k ∈ s.sessions)
  channels : s.Channels

section Placed

variable {h : Handler} {x : Session ε} {inFlight registered : Prop} (hp : Placed h x inFlight registered)

include hp

/-- The handler goes on without the server. -/
theorem Placed.goes {h' : Handler} (hcounted : h'.counted = true → h.counted = true)
    (hunrun : h'.unrun = true → h.unrun = true)
    (hheld : h'.holds = true → h.holds = true)
    (hholds : h.holds = true → h'.holds = true ∨ x.supervisor.pc = .finished)
    (hremoving : h' = .removing → x.supervisor.pc = .finished) : Placed h' x inFlight registered := by
  refine {
    ok := hp.ok
    counted := fun hc => hp.counted (hcounted hc)
    unrun := fun hc => hp.unrun (hunrun hc)
    held := fun hc => hp.held (hheld hc)
    ran := hp.ran
    placed := fun hrun => ?_
    removing := hremoving }
  rcases hp.placed hrun with hplace | hplace | hplace
  · rcases hholds hplace with hplace' | hplace'
    · exact .inl hplace'
    · exact .inr (.inr hplace')
  · exact .inr (.inl hplace)
  · exact .inr (.inr hplace)

/-- The connection is admitted. -/
theorem Placed.enters (hpc : h = .entered) : Placed .admitted x True registered := by
  have hrun := hp.unrun (by rw [hpc]; rfl)
  refine {
    ok := hp.ok
    counted := fun _ => trivial
    unrun := fun _ => hrun
    held := fun hc => by cases hc
    ran := hp.ran
    placed := fun hc => ?_
    removing := fun hc => by cases hc }
  rw [hrun] at hc
  cases hc

/-- The session is added to the registry. -/
theorem Placed.add (hpc : h = .running) :
    Placed .added x inFlight True where
  ok := hp.ok
  counted := fun _ => hp.counted (by rw [hpc]; rfl)
  unrun := fun hc => by cases hc
  held := fun hc => by cases hc
  ran := fun _ => hp.held (by rw [hpc]; rfl)
  placed := fun _ => .inr (.inl trivial)
  removing := fun hc => by cases hc

/-- The admission ends. -/
theorem Placed.end_ {h' : Handler} {inFlight' : Prop} (hpc : h.holds = false)
    (hh' : h' = .serving ∨ h' = .over) : Placed h' x inFlight' registered := by
  refine {
    ok := hp.ok
    counted := fun hc => ?_
    unrun := fun hc => ?_
    held := fun hc => ?_
    ran := hp.ran
    placed := fun hrun => ?_
    removing := fun hc => ?_ }
  · rcases hh' with rfl | rfl <;> cases hc
  · rcases hh' with rfl | rfl <;> cases hc
  · rcases hh' with rfl | rfl <;> cases hc
  · rcases hp.placed hrun with hplace | hplace
    · rw [hpc] at hplace
      cases hplace
    · exact .inr hplace
  · rcases hh' with rfl | rfl <;> cases hc

/-- The finished session is removed from the registry. -/
theorem Placed.remove {registered' : Prop} (hpc : h = .removing)
    (hregistered : registered' → registered) : Placed .over x inFlight registered' where
  ok := hp.ok
  counted := fun hc => by cases hc
  unrun := fun hc => by cases hc
  held := fun hc => by cases hc
  ran := fun hc => hp.ran (hregistered hc)
  placed := fun _ => .inr (.inr (hp.removing hpc))
  removing := fun hc => by cases hc

/-- The session makes a step. -/
theorem Placed.session {y : Session ε} (hok : y.Ok)
    (hfinished : x.supervisor.pc = .finished → y.supervisor.pc = .finished)
    (hrun : y.supervisor.runStarted = x.supervisor.runStarted) : Placed h y inFlight registered := by
  refine {
    ok := hok
    counted := hp.counted
    unrun := fun hc => ?_
    held := fun hc => ?_
    ran := fun hc => ?_
    placed := fun hc => ?_
    removing := fun hc => hfinished (hp.removing hc) }
  · rw [hrun]
    exact hp.unrun hc
  · rw [hrun]
    exact hp.held hc
  · rw [hrun]
    exact hp.ran hc
  · rw [hrun] at hc
    rcases hp.placed hc with hplace | hplace | hplace
    · exact .inl hplace
    · exact .inr (.inl hplace)
    · exact .inr (.inr (hfinished hplace))

/-- The session is run. -/
theorem Placed.run (hpc : h = .upgraded) :
    Placed .running { x with supervisor := { x.supervisor with
      runStarted := true, state := .connecting, pc := .started } } inFlight registered := by
  have hrun := hp.unrun (by rw [hpc]; rfl)
  have hidle := hp.ok.supervisor.idle.mp hrun
  refine {
    ok := ⟨inv_run hp.ok.supervisor hrun, fun hopen => ?_⟩
    counted := fun _ => hp.counted (by rw [hpc]; rfl)
    unrun := fun hc => by cases hc
    held := fun _ => rfl
    ran := fun _ => rfl
    placed := fun _ => .inl rfl
    removing := fun hc => by cases hc }
  rcases hp.ok.owned hopen with habandoned | hholds
  · exact .inl habandoned
  · simp [Supervisor.Holds, hidle] at hholds

end Placed

/-! ## The steps -/

section Steps

variable {ι κ : Type} {s t : State ι κ ε} {k : κ} {i : ι}

theorem isDrained_iff {channel : Option Nat} :
    s.isDrained channel = true ↔ ∀ c, channel = some c → c ∈ s.closedChannels := by
  cases channel <;> simp [State.isDrained]

/-- When the current channel is closed, no admission is in flight. -/
theorem State.Channels.idle (h : s.Channels) (hdrained : s.isDrained s.admissionIdle = true) :
    s.admissions = 0 := by
  rw [isDrained_iff] at hdrained
  cases hc : s.admissionIdle with
  | none => exact h.none_made hc
  | some c => exact (h.current c hc).2 (hdrained c hc)

variable [DecidableEq κ]

omit [DecidableEq κ] in
theorem State.Channels.beginAdmission (h : s.Channels) : (s.beginAdmission k).Channels := by
  by_cases hidle : s.admissions = 0
  · have hnew : s.channels ∉ s.closedChannels := fun hc => absurd (h.closed _ hc) (Nat.lt_irrefl _)
    refine ⟨fun c hc => ?_, fun c hc => ?_, fun hc => ?_⟩
    · simp only [State.beginAdmission, if_pos hidle, Option.some.injEq] at hc ⊢
      subst hc
      exact ⟨Nat.lt_succ_self _, fun hclosed => absurd hclosed hnew⟩
    · simp only [State.beginAdmission, if_pos hidle] at hc ⊢
      exact Nat.lt_succ_of_lt (h.closed c hc)
    · simp [State.beginAdmission, if_pos hidle] at hc
  · refine ⟨fun c hc => ?_, fun c hc => ?_, fun hc => ?_⟩
    · simp only [State.beginAdmission, if_neg hidle] at hc ⊢
      obtain ⟨hlt, hclosed⟩ := h.current c hc
      exact ⟨hlt, fun hmem => absurd (hclosed hmem) hidle⟩
    · simp only [State.beginAdmission, if_neg hidle] at hc ⊢
      exact h.closed c hc
    · simp only [State.beginAdmission, if_neg hidle] at hc
      exact absurd (h.none_made hc) hidle

theorem State.Channels.endAdmission (h : s.Channels) : (s.endAdmission k).Channels := by
  have hclosed : ∀ c, c ∈ (s.endAdmission k).closedChannels →
      c ∈ s.closedChannels ∨ s.admissions = 1 ∧ s.admissionIdle = some c := by
    intro c hc
    simp only [State.endAdmission] at hc
    split at hc
    · next hone =>
      rcases List.mem_append.mp hc with hc | hc
      · exact .inr ⟨hone, Option.mem_toList.mp hc⟩
      · exact .inl hc
    · exact .inl hc
  refine ⟨fun c hc => ⟨(h.current c hc).1, fun hmem => ?_⟩, fun c hc => ?_, fun hc => ?_⟩
  · show s.admissions - 1 = 0
    rcases hclosed c hmem with hmem | ⟨hone, -⟩
    · rw [(h.current c hc).2 hmem]
    · rw [hone]
  · rcases hclosed c hc with hmem | ⟨-, hcurrent⟩
    · exact h.closed c hmem
    · exact (h.current c hcurrent).1
  · show s.admissions - 1 = 0
    rw [h.none_made hc]

/-- A step that concerns one connection keeps the others in their places. -/
theorem State.Admits.update (h : s.Admits) (hcounted : t.admissions = t.inFlight.length)
    (hothers : ∀ j, j ≠ k → t.handler j = s.handler j ∧ t.session j = s.session j ∧
      (j ∈ t.inFlight ↔ j ∈ s.inFlight) ∧ (j ∈ t.sessions ↔ j ∈ s.sessions))
    (hk : Placed (t.handler k) (t.session k) (k ∈ t.inFlight) (k ∈ t.sessions))
    (hchannels : t.Channels) : t.Admits := by
  refine ⟨hcounted, fun j => ?_, hchannels⟩
  by_cases hj : j = k
  · subst hj
    exact hk
  · obtain ⟨hhandler, hsession, hinFlight, hsessions⟩ := hothers j hj
    rw [hhandler, hsession, propext hinFlight, propext hsessions]
    exact h.placed j

theorem State.Admits.setHandler (h : s.Admits) {h' : Handler}
    (hk : Placed h' (s.session k) (k ∈ s.inFlight) (k ∈ s.sessions)) : (s.setHandler k h').Admits := by
  refine h.update (k := k) h.counted (fun j hj => ?_) ?_
    ⟨h.channels.current, h.channels.closed, h.channels.none_made⟩
  · exact ⟨Function.update_of_ne hj _ _, rfl, Iff.rfl, Iff.rfl⟩
  · show Placed (Function.update s.handler k h' k) _ _ _
    rw [Function.update_self]
    exact hk

theorem State.Admits.setSession (h : s.Admits) {x : Session ε} (hok : x.Ok)
    (hfinished : (s.session k).supervisor.pc = .finished → x.supervisor.pc = .finished)
    (hrun : x.supervisor.runStarted = (s.session k).supervisor.runStarted) :
    (s.setSession k x).Admits := by
  refine h.update (k := k) h.counted (fun j hj => ?_) ?_
    ⟨h.channels.current, h.channels.closed, h.channels.none_made⟩
  · exact ⟨rfl, Function.update_of_ne hj _ _, Iff.rfl, Iff.rfl⟩
  · show Placed _ (Function.update s.session k x k) _ _
    rw [Function.update_self]
    exact (h.placed k).session hok hfinished hrun

theorem State.Admits.requestStop (h : s.Admits) : (s.requestStop k).Admits := by
  obtain ⟨hpc, hrun⟩ := requestStop_keeps (s.session k).supervisor .empty
  refine h.setSession ((h.placed k).ok.requestStop .empty) (fun hfinished => ?_) hrun
  exact hpc.trans hfinished

theorem State.Admits.handlerStep {a : HandlerAction} (h : s.Admits)
    (ht : handlerStep s k a = some t) : t.Admits := by
  have hk := h.placed k
  have hchannels : ∀ u : State ι κ ε, u.admissionIdle = s.admissionIdle → u.channels = s.channels →
      u.closedChannels = s.closedChannels → u.admissions = s.admissions → u.Channels := by
    intro u hcurrent hmade hclosed hadmissions
    refine ⟨?_, ?_, ?_⟩
    · rw [hcurrent, hmade, hclosed, hadmissions]
      exact h.channels.current
    · rw [hmade, hclosed]
      exact h.channels.closed
    · rw [hcurrent, hadmissions]
      exact h.channels.none_made
  cases a with
  | enter | upgrade | fails =>
    simp only [Server.handlerStep] at ht
    split at ht
    · next hpc =>
      cases ht
      refine h.setHandler (hk.goes ?_ ?_ ?_ ?_ ?_)
      all_goals simp [hpc, Handler.counted, Handler.unrun, Handler.holds]
    · cases ht
  | beginAdmission =>
    simp only [Server.handlerStep] at ht
    split at ht
    · next hpc =>
      cases ht
      split
      · refine h.setHandler (hk.goes ?_ ?_ ?_ ?_ ?_)
        all_goals simp [hpc, Handler.counted, Handler.unrun, Handler.holds]
      · have hbegin := h.channels.beginAdmission (k := k)
        refine h.update (k := k) ?_ (fun j hj => ⟨Function.update_of_ne hj _ _, rfl, ?_, Iff.rfl⟩) ?_
          ⟨hbegin.current, hbegin.closed, hbegin.none_made⟩
        · show s.admissions + 1 = (k :: s.inFlight).length
          rw [h.counted, List.length_cons]
        · simp [State.setHandler, State.beginAdmission, hj]
        · simpa [State.setHandler, State.beginAdmission] using hk.enters hpc
    · cases ht
  | run =>
    simp only [Server.handlerStep] at ht
    split at ht
    · next hpc =>
      cases ht
      refine h.update (k := k) h.counted (fun j hj => ?_) ?_ (hchannels _ rfl rfl rfl rfl)
      · exact ⟨Function.update_of_ne hj _ _, Function.update_of_ne hj _ _, Iff.rfl, Iff.rfl⟩
      · show Placed (Function.update s.handler k _ k) (Function.update s.session k _ k) _ _
        rw [Function.update_self, Function.update_self]
        exact hk.run hpc
    · cases ht
  | addSession =>
    simp only [Server.handlerStep] at ht
    split at ht
    · next hpc =>
      cases ht
      split
      · refine h.setHandler (hk.goes ?_ ?_ ?_ ?_ ?_)
        all_goals simp [hpc, Handler.counted, Handler.unrun, Handler.holds]
      · refine h.update (k := k) h.counted (fun j hj => ?_) ?_ (hchannels _ rfl rfl rfl rfl)
        · exact ⟨Function.update_of_ne hj _ _, rfl, Iff.rfl, by simp [State.setHandler, hj]⟩
        · simpa [State.setHandler] using hk.add hpc
    · cases ht
  | close =>
    simp only [Server.handlerStep] at ht
    split at ht
    · next hpc =>
      cases ht
      have hstop := (h.requestStop (k := k)).placed k
      refine (h.requestStop (k := k)).setHandler (Placed.goes hstop ?_ ?_ ?_ ?_ ?_)
      all_goals
        simp [hpc, State.requestStop, State.setSession, Handler.counted, Handler.unrun, Handler.holds]
    · cases ht
  | closed =>
    simp only [Server.handlerStep] at ht
    split at ht
    · next hpc =>
      split at ht
      · next hfinalized =>
        cases ht
        have hfinished := hk.ok.finished_of_finalized hfinalized
        refine h.setHandler (hk.goes ?_ ?_ ?_ (fun _ => .inr hfinished) ?_)
        all_goals simp [hpc, Handler.counted, Handler.unrun, Handler.holds]
      · cases ht
    · cases ht
  | endAdmission =>
    have hend := h.channels.endAdmission (k := k)
    have hcounted : k ∈ s.inFlight → s.admissions - 1 = (s.inFlight.erase k).length := by
      intro hmem
      rw [List.length_erase_of_mem hmem, h.counted]
    simp only [Server.handlerStep] at ht
    split at ht
    · next hpc =>
      cases ht
      refine h.update (k := k) (hcounted (hk.counted (by rw [hpc]; rfl))) (fun j hj => ?_) ?_
        ⟨hend.current, hend.closed, hend.none_made⟩
      · exact ⟨Function.update_of_ne hj _ _, rfl, List.mem_erase_of_ne hj, Iff.rfl⟩
      · show Placed (Function.update s.handler k _ k) _ _ _
        rw [Function.update_self]
        exact hk.end_ (by rw [hpc]; rfl) (.inl rfl)
    · next hpc =>
      cases ht
      refine h.update (k := k) (hcounted (hk.counted (by rw [hpc]; rfl))) (fun j hj => ?_) ?_
        ⟨hend.current, hend.closed, hend.none_made⟩
      · exact ⟨Function.update_of_ne hj _ _, rfl, List.mem_erase_of_ne hj, Iff.rfl⟩
      · show Placed (Function.update s.handler k _ k) _ _ _
        rw [Function.update_self]
        exact hk.end_ (by rw [hpc]; rfl) (.inr rfl)
    · cases ht
  | done =>
    simp only [Server.handlerStep] at ht
    split at ht
    · next hpc =>
      split at ht
      · next hdone =>
        cases ht
        have hfinished : (s.session k).supervisor.pc = .finished := by
          by_contra hne
          exact hdone (hk.ok.supervisor.unfinished hne).2.1
        refine h.setHandler (hk.goes ?_ ?_ ?_ ?_ fun _ => hfinished)
        all_goals simp [hpc, Handler.counted, Handler.unrun, Handler.holds]
      · cases ht
    · cases ht
  | removeSession =>
    simp only [Server.handlerStep] at ht
    split at ht
    · next hpc =>
      cases ht
      refine h.update (k := k) h.counted (fun j hj => ?_) ?_ (hchannels _ rfl rfl rfl rfl)
      · exact ⟨Function.update_of_ne hj _ _, rfl, Iff.rfl, List.mem_erase_of_ne hj⟩
      · show Placed (Function.update s.handler k _ k) _ _ _
        rw [Function.update_self]
        exact hk.remove hpc List.mem_of_mem_erase
    · cases ht

end Steps

end Rtvbp.Go.Server
