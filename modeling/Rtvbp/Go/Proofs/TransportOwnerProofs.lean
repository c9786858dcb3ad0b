import Rtvbp.Go.TransportOwner
import Rtvbp.Go.Proofs.SuperviseProofs
import Rtvbp.Go.Proofs.StopProofs

/-!
# Every transport is closed once

The supervisor goes through phases, and each of them, with where the goroutine of the factory is, says whose turn it is
to close the transport.
-/

namespace Rtvbp.Go.TransportOwner

open Rtvbp.Lib
open Rtvbp.Go.Supervise (Config Pc TransportResult)

variable {ε : Type} [DecidableEq ε] {config : Config} {is : ε → ε → Bool} {canceled : ε}

/-! ## The phases of the supervisor -/

/-- Where the supervisor is. -/
inductive Phase where
  | before
  | constructing
  /-- Closing a transport that is not used. -/
  | disposing
  | holding
  | committing
  | media
  /-- Closing the transport of the session. -/
  | teardown
  | tail
  deriving DecidableEq

def phase : Pc ε → Phase
  | .idle | .started => .before
  | .creating | .joining _ => .constructing
  | .closingPartial | .closingCanceled _ _ => .disposing
  | .beginning | .active => .holding
  | .committing => .committing
  | .closingMedia => .media
  | .closingTransport => .teardown
  | .closingHandlers _ | .joiningWorkers | .completing | .finished => .tail

/-- After the transport, or without one. -/
def Phase.late : Phase → Bool
  | .committing | .media | .tail => true
  | _ => false

omit [DecidableEq ε] in
theorem closer_eq_none_iff (pc : Pc ε) : closer pc = none ↔ phase pc ≠ .disposing ∧ phase pc ≠ .teardown := by
  cases pc <;> simp [closer, phase]

omit [DecidableEq ε] in
/-- Nothing is closed on the way to a place where the supervisor does not close. -/
theorem newCloses_eq_nil {pc pc' : Pc ε} (h : phase pc' ≠ .disposing ∧ phase pc' ≠ .teardown) :
    newCloses pc pc' = [] := by
  unfold newCloses
  rw [(closer_eq_none_iff pc').mpr h]
  split <;> rfl

omit [DecidableEq ε] in
/-- Nothing is closed twice while the supervisor stays where it is. -/
theorem newCloses_of_same {pc pc' : Pc ε} (h : phase pc' = phase pc) : newCloses pc pc' = [] := by
  by_cases hclosing : phase pc' ≠ .disposing ∧ phase pc' ≠ .teardown
  · exact newCloses_eq_nil hclosing
  · unfold newCloses
    rw [h, ← closer_eq_none_iff] at hclosing
    exact if_neg fun hnone => hclosing (Option.isNone_iff_eq_none.mp hnone)

omit [DecidableEq ε] in
/-- The supervisor starts to close. -/
theorem newCloses_length {pc pc' : Pc ε} (h : phase pc ≠ .disposing ∧ phase pc ≠ .teardown)
    (h' : phase pc' = .disposing ∨ phase pc' = .teardown) : (newCloses pc pc').length = 1 := by
  unfold newCloses
  rw [if_pos (by rw [(closer_eq_none_iff pc).mpr h]; rfl)]
  cases hcloser : closer pc' with
  | none =>
    have hquiet := (closer_eq_none_iff pc').mp hcloser
    exact absurd h' (by simp [hquiet.1, hquiet.2])
  | some closer => rfl

omit [DecidableEq ε] in
theorem constructing_iff (pc : Pc ε) : pc.constructing = true ↔ phase pc = .constructing := by
  cases pc <;> simp [Pc.constructing, phase]

omit [DecidableEq ε] in
theorem committed_of_phase {pc : Pc ε} (h : phase pc = .teardown ∨ phase pc = .tail) : pc.committed = true := by
  cases pc <;> simp_all [Pc.committed, phase]

/-- The step leaves the transport and what the supervisor has received. -/
structure Keeps (s t : Supervise.State ε) : Prop where
  transport : t.transport = s.transport
  factory : t.factory = s.factory

/-- The step does not touch the goroutine. -/
def Plain (a : Supervise.Action ε) : Prop :=
  (∀ (factory : Factory ε) (pc : Pc ε), factory.after a pc = some factory) ∧ abandons a = false

/-- What a step of the supervisor does, other than the return of the factory. -/
inductive Moves (s t : Supervise.State ε) (a : Supervise.Action ε) : Prop where
  | stays (plain : Plain a) (keeps : Keeps s t) (same : phase t.pc = phase s.pc)
  | rejects (action : a = .configure) (keeps : Keeps s t) (source : phase s.pc = .before)
      (target : phase t.pc = .committing)
  | starts (action : a = .configure) (keeps : Keeps s t) (source : phase s.pc = .before)
      (target : phase t.pc = .constructing)
  | installs (action : a = .created) (result : TransportResult ε) (received : s.factory = some result)
      (transport : result.transport = true) (installed : t.transport = true)
      (source : phase s.pc = .constructing) (target : phase t.pc = .holding)
  | disposes (action : a = .created ∨ a = .joined) (keeps : Keeps s t) (result : TransportResult ε)
      (received : s.factory = some result) (transport : result.transport = true)
      (source : phase s.pc = .constructing) (target : phase t.pc = .disposing)
  | refuses (action : a = .created ∨ a = .joined) (keeps : Keeps s t) (result : TransportResult ε)
      (received : s.factory = some result) (transport : result.transport = false)
      (source : phase s.pc = .constructing) (target : phase t.pc = .committing)
  | abandons (action : a = .joinTimeout) (keeps : Keeps s t) (source : phase s.pc = .constructing)
      (target : phase t.pc = .committing)
  | proceeds (plain : Plain a) (keeps : Keeps s t)
      (phases : phase s.pc = .disposing ∧ phase t.pc = .committing ∨
        phase s.pc = .holding ∧ phase t.pc = .committing ∨
        phase s.pc = .committing ∧ phase t.pc = .media ∨
        phase s.pc = .media ∧ s.transport = false ∧ phase t.pc = .tail ∨
        phase s.pc = .teardown ∧ phase t.pc = .tail)
  | tearsDown (plain : Plain a) (keeps : Keeps s t) (transport : s.transport = true)
      (source : phase s.pc = .media) (target : phase t.pc = .teardown)

variable {s t : Supervise.State ε} {a : Supervise.Action ε}

omit [DecidableEq ε] in
theorem phase_runHandlers (s : Supervise.State ε) (rest : Nat) : phase (s.runHandlers rest).pc = .tail := by
  cases rest with
  | zero =>
    unfold Supervise.State.runHandlers Supervise.State.afterHandlers
    dsimp only
    split <;> rfl
  | succ rest => rfl

omit [DecidableEq ε] in
theorem keeps_runHandlers (s : Supervise.State ε) (rest : Nat) : Keeps s (s.runHandlers rest) := by
  cases rest <;> exact ⟨rfl, rfl⟩

omit [DecidableEq ε] in
/-- After the select for `OnBegin`. -/
theorem afterBegin_moves (plain : Plain a) (hkeeps : Keeps s t) (hpc : phase s.pc = .holding) :
    Moves s t.afterBegin a := by
  unfold Supervise.State.afterBegin
  split
  · exact .stays plain ⟨hkeeps.transport, hkeeps.factory⟩ hpc.symm
  · exact .proceeds plain ⟨hkeeps.transport, hkeeps.factory⟩ (.inr (.inl ⟨hpc, rfl⟩))

theorem moves_of_step (h : Supervise.Inv s) (hreturns : ∀ result, a ≠ .factoryReturns result)
    (hstep : Supervise.step config is canceled s a = some t) : Moves s t a := by
  cases a with
  | run =>
    obtain ⟨hrun, hstep⟩ := Option.ite_none_left_eq_some.mp hstep
    obtain rfl := Option.some.inj hstep
    have hidle : s.pc = .idle := h.idle.mp (by simpa using hrun)
    refine .stays ⟨fun _ _ => rfl, rfl⟩ ⟨rfl, rfl⟩ ?_
    rw [hidle]
    rfl
  | requestStop request =>
    obtain rfl := Option.some.inj hstep
    unfold Supervise.State.requestStop
    split
    · exact .stays ⟨fun _ _ => rfl, rfl⟩ ⟨rfl, rfl⟩ rfl
    · exact .stays ⟨fun _ _ => rfl, rfl⟩ ⟨rfl, rfl⟩ rfl
  | offer | parentEnds =>
    obtain ⟨-, hstep⟩ := Option.ite_none_right_eq_some.mp hstep
    obtain rfl := Option.some.inj hstep
    exact .stays ⟨fun _ _ => rfl, rfl⟩ ⟨rfl, rfl⟩ rfl
  | onClose =>
    obtain rfl := Option.some.inj hstep
    exact .stays ⟨fun _ _ => rfl, rfl⟩ ⟨rfl, rfl⟩ rfl
  | factoryReturns result => exact absurd rfl (hreturns result)
  | onBeginReturns err =>
    obtain ⟨-, hstep⟩ := Option.ite_none_right_eq_some.mp hstep
    obtain rfl := Option.some.inj hstep
    exact .stays ⟨fun _ _ => rfl, rfl⟩ ⟨rfl, rfl⟩ rfl
  | configure =>
    obtain ⟨hpc, hstep⟩ := Option.ite_none_right_eq_some.mp hstep
    have hsource : phase s.pc = .before := by rw [hpc]; rfl
    cases hcheck : config.check with
    | some text =>
      rw [hcheck] at hstep
      obtain rfl := Option.some.inj hstep
      exact .rejects rfl ⟨rfl, rfl⟩ hsource rfl
    | none =>
      rw [hcheck] at hstep
      obtain rfl := Option.some.inj hstep
      exact .starts rfl ⟨rfl, rfl⟩ hsource rfl
  | created =>
    obtain ⟨hpc, hstep⟩ := Option.ite_none_right_eq_some.mp hstep
    have hsource : phase s.pc = .constructing := by rw [hpc]; rfl
    obtain ⟨result, hreceived, rfl⟩ := Option.map_eq_some_iff.mp hstep
    unfold Supervise.State.acceptTransportResult
    by_cases hgood : result.err.isNone = true ∧ result.transport = true
    · rw [if_pos hgood]
      exact .installs rfl result hreceived hgood.2 rfl hsource rfl
    · rw [if_neg hgood]
      by_cases htransport : result.transport = true
      · rw [if_pos htransport]
        exact .disposes (.inl rfl) ⟨rfl, rfl⟩ result hreceived htransport hsource rfl
      · rw [if_neg htransport]
        exact .refuses (.inl rfl) ⟨rfl, rfl⟩ result hreceived (by simpa using htransport) hsource rfl
  | createStopped ctxErr | createParentDone ctxErr =>
    obtain ⟨⟨hpc, -⟩, hstep⟩ := Option.ite_none_right_eq_some.mp hstep
    obtain rfl := Option.some.inj hstep
    refine .stays ⟨fun _ _ => rfl, rfl⟩ ⟨rfl, rfl⟩ ?_
    rw [hpc]
    rfl
  | partialCloses err =>
    obtain ⟨hpc, hstep⟩ := Option.ite_none_right_eq_some.mp hstep
    obtain rfl := Option.some.inj hstep
    exact .proceeds ⟨fun _ _ => rfl, rfl⟩ ⟨rfl, rfl⟩ (.inl ⟨by rw [hpc]; rfl, rfl⟩)
  | joined =>
    unfold Supervise.step at hstep
    dsimp only at hstep
    split at hstep
    · rename_i ctxErr created hpc hreceived
      have hsource : phase s.pc = .constructing := by rw [hpc]; rfl
      by_cases htransport : created.transport = true
      · rw [if_pos htransport] at hstep
        obtain rfl := Option.some.inj hstep
        exact .disposes (.inr rfl) ⟨rfl, rfl⟩ created hreceived htransport hsource rfl
      · rw [if_neg htransport] at hstep
        obtain rfl := Option.some.inj hstep
        exact .refuses (.inr rfl) ⟨rfl, rfl⟩ created hreceived (by simpa using htransport) hsource rfl
    · exact absurd hstep (by simp)
  | joinTimeout =>
    unfold Supervise.step at hstep
    dsimp only at hstep
    split at hstep
    · rename_i ctxErr hpc
      obtain rfl := Option.some.inj hstep
      exact .abandons rfl ⟨rfl, rfl⟩ (by rw [hpc]; rfl) rfl
    · exact absurd hstep (by simp)
  | canceledCloses err =>
    unfold Supervise.step at hstep
    dsimp only at hstep
    split at hstep
    · rename_i ctxErr created hpc
      obtain rfl := Option.some.inj hstep
      exact .proceeds ⟨fun _ _ => rfl, rfl⟩ ⟨rfl, rfl⟩ (.inl ⟨by rw [hpc]; rfl, rfl⟩)
    · exact absurd hstep (by simp)
  | beginReceived =>
    obtain ⟨hpc, hstep⟩ := Option.ite_none_right_eq_some.mp hstep
    obtain ⟨err, -, rfl⟩ := Option.map_eq_some_iff.mp hstep
    refine afterBegin_moves ⟨fun _ _ => rfl, rfl⟩ ?_ (by rw [hpc]; rfl)
    cases err <;> exact ⟨rfl, rfl⟩
  | beginStopped | beginParentDone =>
    obtain ⟨⟨hpc, -⟩, hstep⟩ := Option.ite_none_right_eq_some.mp hstep
    obtain rfl := Option.some.inj hstep
    exact afterBegin_moves ⟨fun _ _ => rfl, rfl⟩ ⟨rfl, rfl⟩ (by rw [hpc]; rfl)
  | activeStopped | activeParentDone =>
    obtain ⟨⟨hpc, -⟩, hstep⟩ := Option.ite_none_right_eq_some.mp hstep
    obtain rfl := Option.some.inj hstep
    exact .proceeds ⟨fun _ _ => rfl, rfl⟩ ⟨rfl, rfl⟩ (.inr (.inl ⟨by rw [hpc]; rfl, rfl⟩))
  | commit =>
    obtain ⟨hpc, hstep⟩ := Option.ite_none_right_eq_some.mp hstep
    obtain rfl := Option.some.inj hstep
    exact .proceeds ⟨fun _ _ => rfl, rfl⟩ ⟨rfl, rfl⟩ (.inr (.inr (.inl ⟨by rw [hpc]; rfl, rfl⟩)))
  | mediaCloses err =>
    obtain ⟨hpc, hstep⟩ := Option.ite_none_right_eq_some.mp hstep
    have hsource : phase s.pc = .media := by rw [hpc]; rfl
    obtain rfl := Option.some.inj hstep
    by_cases htransport : s.transport = true
    · rw [if_pos htransport]
      exact .tearsDown ⟨fun _ _ => rfl, rfl⟩ ⟨rfl, rfl⟩ htransport hsource rfl
    · rw [if_neg htransport]
      have hkeeps := keeps_runHandlers
        { s with terminal := s.terminal.mergeFailure (err.map (.wrapped "close audio media: ")) } s.closeHandlers
      exact .proceeds ⟨fun _ _ => rfl, rfl⟩ ⟨hkeeps.transport, hkeeps.factory⟩
        (.inr (.inr (.inr (.inl ⟨hsource, by simpa using htransport, phase_runHandlers _ _⟩))))
  | transportCloses err =>
    obtain ⟨hpc, hstep⟩ := Option.ite_none_right_eq_some.mp hstep
    obtain rfl := Option.some.inj hstep
    have hkeeps := keeps_runHandlers
      { s with terminal := s.terminal.mergeFailure (err.map (.wrapped "close transport: ")) } s.closeHandlers
    exact .proceeds ⟨fun _ _ => rfl, rfl⟩ ⟨hkeeps.transport, hkeeps.factory⟩
      (.inr (.inr (.inr (.inr ⟨by rw [hpc]; rfl, phase_runHandlers _ _⟩))))
  | closeHandlerReturns err =>
    unfold Supervise.step at hstep
    dsimp only at hstep
    split at hstep
    · rename_i rest hpc
      obtain rfl := Option.some.inj hstep
      have hkeeps := keeps_runHandlers
        { s with terminal := s.terminal.mergeFailure (err.map (.wrapped "session close handler: ")) } rest
      refine .stays ⟨fun _ _ => rfl, rfl⟩ ⟨hkeeps.transport, hkeeps.factory⟩ ?_
      rw [phase_runHandlers, hpc]
      rfl
    · exact absurd hstep (by simp)
  | workersDone | workersTimeout =>
    obtain ⟨hpc, hstep⟩ := Option.ite_none_right_eq_some.mp hstep
    obtain rfl := Option.some.inj hstep
    refine .stays ⟨fun _ _ => rfl, rfl⟩ ⟨rfl, rfl⟩ ?_
    rw [hpc]
    rfl
  | complete =>
    obtain ⟨hpc, hstep⟩ := Option.ite_none_right_eq_some.mp hstep
    obtain rfl := Option.some.inj hstep
    refine .stays ⟨fun _ _ => rfl, rfl⟩ ⟨rfl, rfl⟩ ?_
    rw [hpc]
    rfl

/-! ## Whose turn it is -/

/-- Where the transport is. -/
inductive Turn (s : State ε) : Prop where
  | absent (factory : s.factory = .absent) (kept : s.abandoned = false) (unused : s.session.transport = false)
      (unset : s.session.factory = none) (closes : s.closes = [])
      (place : phase s.session.pc = .before ∨ (phase s.session.pc).late = true)
  | running (factory : s.factory = .running) (unused : s.session.transport = false)
      (unset : s.session.factory = none) (closes : s.closes = [])
      (place : phase s.session.pc = .constructing ∧ s.abandoned = false ∨
        (phase s.session.pc).late = true ∧ s.abandoned = true)
  | offering (result : TransportResult ε) (factory : s.factory = .offering result)
      (unused : s.session.transport = false) (closes : s.closes = [])
      (place : phase s.session.pc = .constructing ∧ s.abandoned = false ∧ s.session.factory = some result ∨
        (phase s.session.pc).late = true ∧ s.abandoned = true)
  /-- The session uses it. -/
  | held (result : TransportResult ε) (factory : s.factory = .received result) (kept : s.abandoned = false)
      (used : s.session.transport = true) (transport : result.transport = true) (closes : s.closes = [])
      (place : phase s.session.pc = .holding ∨ phase s.session.pc = .committing ∨ phase s.session.pc = .media)
  /-- The session has used it. -/
  | tornDown (result : TransportResult ε) (factory : s.factory = .received result) (kept : s.abandoned = false)
      (used : s.session.transport = true) (transport : result.transport = true) (closes : s.closes.length = 1)
      (place : phase s.session.pc = .teardown ∨ phase s.session.pc = .tail)
  /-- The session has not used it. -/
  | disposed (result : TransportResult ε) (factory : s.factory = .received result) (kept : s.abandoned = false)
      (unused : s.session.transport = false) (transport : result.transport = true) (closes : s.closes.length = 1)
      (place : phase s.session.pc = .disposing ∨ (phase s.session.pc).late = true)
  /-- There is none. -/
  | refused (result : TransportResult ε) (factory : s.factory = .received result) (kept : s.abandoned = false)
      (unused : s.session.transport = false) (transport : result.transport = false) (closes : s.closes = [])
      (place : (phase s.session.pc).late = true)
  /-- It came too late. -/
  | late (result : TransportResult ε) (factory : s.factory = .closing result ∨ s.factory = .ended result)
      (abandoned : s.abandoned = true) (unused : s.session.transport = false)
      (closes : s.closes.length = if result.transport then 1 else 0)
      (returned : s.factory = .closing result → result.transport = true)
      (place : (phase s.session.pc).late = true)

variable {u v : State ε}

omit [DecidableEq ε] in
/-- A step within a phase, or within the late phases of a session that does not use a transport. -/
theorem Turn.keeps (h : Turn u) (hfactory : v.factory = u.factory) (habandoned : v.abandoned = u.abandoned)
    (hcloses : v.closes = u.closes) (hkeeps : Keeps u.session v.session)
    (hphase : phase v.session.pc = phase u.session.pc ∨
      (phase u.session.pc).late = true ∧ (phase v.session.pc).late = true ∧
        phase u.session.pc ≠ .tail ∧ (u.session.transport = true → phase v.session.pc ≠ .tail)) : Turn v := by
  have hlate : (phase u.session.pc).late = true → (phase v.session.pc).late = true := by
    intro hlate
    obtain hsame | ⟨-, hlate', -⟩ := hphase
    · rw [hsame]
      exact hlate
    · exact hlate'
  have hearly : (phase u.session.pc).late = false → phase v.session.pc = phase u.session.pc := by
    intro hearly
    obtain hsame | ⟨hlate', -⟩ := hphase
    · exact hsame
    · exact absurd (hearly.symm.trans hlate') Bool.false_ne_true
  cases h with
  | absent factory kept unused unset closes place =>
    refine .absent (hfactory.trans factory) (habandoned.trans kept) (hkeeps.transport.trans unused)
      (hkeeps.factory.trans unset) (hcloses.trans closes) (place.imp (fun hbefore => ?_) hlate)
    exact (hearly (by rw [hbefore]; rfl)).trans hbefore
  | running factory unused unset closes place =>
    refine .running (hfactory.trans factory) (hkeeps.transport.trans unused) (hkeeps.factory.trans unset)
      (hcloses.trans closes) (place.imp (fun hplace => ?_) fun hplace => ?_)
    · exact ⟨(hearly (by rw [hplace.1]; rfl)).trans hplace.1, habandoned.trans hplace.2⟩
    · exact ⟨hlate hplace.1, habandoned.trans hplace.2⟩
  | offering result factory unused closes place =>
    refine .offering result (hfactory.trans factory) (hkeeps.transport.trans unused)
      (hcloses.trans closes) (place.imp (fun hplace => ?_) fun hplace => ?_)
    · exact ⟨(hearly (by rw [hplace.1]; rfl)).trans hplace.1, habandoned.trans hplace.2.1,
        hkeeps.factory.trans hplace.2.2⟩
    · exact ⟨hlate hplace.1, habandoned.trans hplace.2⟩
  | held result factory kept used transport closes place =>
    refine .held result (hfactory.trans factory) (habandoned.trans kept) (hkeeps.transport.trans used) transport
      (hcloses.trans closes) ?_
    obtain hsame | ⟨-, hlate', -, hnottail⟩ := hphase
    · rw [hsame]
      exact place
    · have hnottail := hnottail used
      cases hv : phase v.session.pc with
      | committing => exact .inr (.inl rfl)
      | media => exact .inr (.inr rfl)
      | tail => exact absurd hv hnottail
      | before | constructing | disposing | holding | teardown =>
        rw [hv] at hlate'
        exact absurd hlate' Bool.false_ne_true
  | tornDown result factory kept used transport closes place =>
    have hsame : phase v.session.pc = phase u.session.pc := by
      obtain hsame | ⟨hlate', -, hnottail, -⟩ := hphase
      · exact hsame
      · obtain hteardown | htail := place
        · rw [hteardown] at hlate'
          exact absurd hlate' Bool.false_ne_true
        · exact absurd htail hnottail
    refine .tornDown result (hfactory.trans factory) (habandoned.trans kept) (hkeeps.transport.trans used)
      transport (by rw [hcloses]; exact closes) ?_
    rw [hsame]
    exact place
  | disposed result factory kept unused transport closes place =>
    refine .disposed result (hfactory.trans factory) (habandoned.trans kept) (hkeeps.transport.trans unused)
      transport (by rw [hcloses]; exact closes) (place.imp (fun hdisposing => ?_) hlate)
    exact (hearly (by rw [hdisposing]; rfl)).trans hdisposing
  | refused result factory kept unused transport closes place =>
    exact .refused result (hfactory.trans factory) (habandoned.trans kept) (hkeeps.transport.trans unused)
      transport (hcloses.trans closes) (hlate place)
  | late result factory abandoned unused closes returned place =>
    refine .late result ?_ (habandoned.trans abandoned) (hkeeps.transport.trans unused)
      (by rw [hcloses]; exact closes) ?_ (hlate place)
    · rw [hfactory]
      exact factory
    · rw [hfactory]
      exact returned

omit [DecidableEq ε] in
/-- Before the factory is called. -/
theorem Turn.of_before (h : Turn u) (hphase : phase u.session.pc = .before) :
    u.factory = .absent ∧ u.abandoned = false ∧ u.session.transport = false ∧ u.session.factory = none ∧
      u.closes = [] := by
  cases h with
  | absent factory kept unused unset closes place => exact ⟨factory, kept, unused, unset, closes⟩
  | running factory unused unset closes place => simp [hphase, Phase.late] at place
  | offering result factory unused closes place => simp [hphase, Phase.late] at place
  | held result factory kept used transport closes place => simp [hphase] at place
  | tornDown result factory kept used transport closes place => simp [hphase] at place
  | disposed result factory kept unused transport closes place => simp [hphase, Phase.late] at place
  | refused result factory kept unused transport closes place => simp [hphase, Phase.late] at place
  | late result factory abandoned unused closes returned place => simp [hphase, Phase.late] at place

omit [DecidableEq ε] in
/-- In the selects that receive the result. -/
theorem Turn.of_constructing (h : Turn u) (hphase : phase u.session.pc = .constructing) :
    u.abandoned = false ∧ u.session.transport = false ∧ u.closes = [] ∧
      (u.factory = .running ∧ u.session.factory = none ∨
        ∃ result, u.factory = .offering result ∧ u.session.factory = some result) := by
  cases h with
  | absent factory kept unused unset closes place => simp [hphase, Phase.late] at place
  | running factory unused unset closes place =>
    simp only [hphase, Phase.late, true_and, Bool.false_eq_true, false_and, or_false] at place
    exact ⟨place, unused, closes, .inl ⟨factory, unset⟩⟩
  | offering result factory unused closes place =>
    simp only [hphase, Phase.late, true_and, Bool.false_eq_true, false_and, or_false] at place
    exact ⟨place.1, unused, closes, .inr ⟨result, factory, place.2⟩⟩
  | held result factory kept used transport closes place => simp [hphase] at place
  | tornDown result factory kept used transport closes place => simp [hphase] at place
  | disposed result factory kept unused transport closes place => simp [hphase, Phase.late] at place
  | refused result factory kept unused transport closes place => simp [hphase, Phase.late] at place
  | late result factory abandoned unused closes returned place => simp [hphase, Phase.late] at place

omit [DecidableEq ε] in
/-- While the supervisor closes a transport that is not used. -/
theorem Turn.of_disposing (h : Turn u) (hphase : phase u.session.pc = .disposing) :
    u.abandoned = false ∧ u.session.transport = false ∧ u.closes.length = 1 ∧
      ∃ result, u.factory = .received result ∧ result.transport = true := by
  cases h with
  | absent factory kept unused unset closes place => simp [hphase, Phase.late] at place
  | running factory unused unset closes place => simp [hphase, Phase.late] at place
  | offering result factory unused closes place => simp [hphase, Phase.late] at place
  | held result factory kept used transport closes place => simp [hphase] at place
  | tornDown result factory kept used transport closes place => simp [hphase] at place
  | disposed result factory kept unused transport closes place =>
    exact ⟨kept, unused, closes, result, factory, transport⟩
  | refused result factory kept unused transport closes place => simp [hphase, Phase.late] at place
  | late result factory abandoned unused closes returned place => simp [hphase, Phase.late] at place

omit [DecidableEq ε] in
/-- While the session uses the transport, up to the close of the media. -/
theorem Turn.of_used (h : Turn u) (hphase : phase u.session.pc = .holding ∨
      phase u.session.pc = .media ∧ u.session.transport = true) :
    u.abandoned = false ∧ u.session.transport = true ∧ u.closes = [] ∧
      ∃ result, u.factory = .received result ∧ result.transport = true := by
  have hcontra : u.session.transport = false → phase u.session.pc ≠ .holding → False := by
    intro hunused hnotholding
    obtain hholding | ⟨-, hused⟩ := hphase
    · exact hnotholding hholding
    · exact absurd (hunused.symm.trans hused) Bool.false_ne_true
  cases h with
  | held result factory kept used transport closes place =>
    exact ⟨kept, used, closes, result, factory, transport⟩
  | tornDown result factory kept used transport closes place =>
    obtain hplace | hplace := place <;> simp [hplace] at hphase
  | absent factory kept unused unset closes place =>
    exact (hcontra unused fun hholding => by simp [hholding, Phase.late] at place).elim
  | running factory unused unset closes place =>
    exact (hcontra unused fun hholding => by simp [hholding, Phase.late] at place).elim
  | offering result factory unused closes place =>
    exact (hcontra unused fun hholding => by simp [hholding, Phase.late] at place).elim
  | disposed result factory kept unused transport closes place =>
    exact (hcontra unused fun hholding => by simp [hholding, Phase.late] at place).elim
  | refused result factory kept unused transport closes place =>
    exact (hcontra unused fun hholding => by simp [hholding, Phase.late] at place).elim
  | late result factory abandoned unused closes returned place =>
    exact (hcontra unused fun hholding => by simp [hholding, Phase.late] at place).elim

omit [DecidableEq ε] in
/-- While the supervisor closes the transport of the session. -/
theorem Turn.of_teardown (h : Turn u) (hphase : phase u.session.pc = .teardown) :
    u.abandoned = false ∧ u.session.transport = true ∧ u.closes.length = 1 ∧
      ∃ result, u.factory = .received result ∧ result.transport = true := by
  cases h with
  | absent factory kept unused unset closes place => simp [hphase, Phase.late] at place
  | running factory unused unset closes place => simp [hphase, Phase.late] at place
  | offering result factory unused closes place => simp [hphase, Phase.late] at place
  | held result factory kept used transport closes place => simp [hphase] at place
  | tornDown result factory kept used transport closes place =>
    exact ⟨kept, used, closes, result, factory, transport⟩
  | disposed result factory kept unused transport closes place => simp [hphase, Phase.late] at place
  | refused result factory kept unused transport closes place => simp [hphase, Phase.late] at place
  | late result factory abandoned unused closes returned place => simp [hphase, Phase.late] at place

/-! ## The steps -/

omit [DecidableEq ε] in
/-- The hand-over. -/
theorem after_receive {factory : Factory ε} {result : TransportResult ε} (haction : a = .created ∨ a = .joined)
    (hoffering : factory = .offering result) (pc : Pc ε) :
    factory.after a pc = some (.received result) ∧ abandons a = false := by
  subst hoffering
  obtain rfl | rfl := haction <;> exact ⟨rfl, rfl⟩

theorem Turn.session (hinv : Supervise.Inv u.session) (h : Turn u)
    (hstep : step config is canceled u (.session a) = some v) : Turn v := by
  obtain ⟨session, hsession, hafter⟩ := Option.bind_eq_some_iff.mp hstep
  obtain ⟨factory, hfactory, rfl⟩ := Option.map_eq_some_iff.mp hafter
  have hreturns : ∀ result, a ≠ .factoryReturns result := by
    rintro result rfl
    exact absurd hfactory (by simp [Factory.after])
  cases moves_of_step hinv hreturns hsession with
  | stays plain keeps same =>
    obtain rfl := Option.some.inj ((plain.1 _ _).symm.trans hfactory)
    refine h.keeps rfl ?_ ?_ keeps (.inl same)
    · simp [plain.2]
    · simp [newCloses_of_same same]
  | rejects action keeps source target =>
    obtain ⟨habsent, hkept, hunused, hunset, hcloses⟩ := h.of_before source
    obtain rfl := action
    have hsame : factory = u.factory := by
      have hnot : session.pc.constructing = false := by
        rw [← Bool.not_eq_true, constructing_iff, target]
        simp
      simpa [Factory.after, hnot] using hfactory.symm
    exact .absent (hsame.trans habsent) (by simp [hkept, abandons]) (keeps.transport.trans hunused)
      (keeps.factory.trans hunset) (by simp [hcloses, newCloses_eq_nil, target])
      (.inr (by dsimp only; rw [target]; rfl))
  | starts action keeps source target =>
    obtain ⟨habsent, hkept, hunused, hunset, hcloses⟩ := h.of_before source
    obtain rfl := action
    have hrunning : factory = .running := by
      simpa [Factory.after, (constructing_iff session.pc).mpr target] using hfactory.symm
    exact .running hrunning (keeps.transport.trans hunused) (keeps.factory.trans hunset)
      (by simp [hcloses, newCloses_eq_nil, target]) (.inl ⟨target, by simp [hkept, abandons]⟩)
  | installs action result received transport installed source target =>
    obtain ⟨hkept, hunused, hcloses, ⟨-, hunset⟩ | ⟨offered, hoffering, hset⟩⟩ := h.of_constructing source
    · exact absurd (hunset.symm.trans received) (by simp)
    · obtain rfl := Option.some.inj (hset.symm.trans received)
      obtain ⟨hhanded, hkeepsOn⟩ := after_receive (.inl action) hoffering session.pc
      exact .held offered (Option.some.inj (hfactory.symm.trans hhanded)) (by simp [hkept, hkeepsOn]) installed
        transport (by simp [hcloses, newCloses_eq_nil, target]) (.inl target)
  | disposes action keeps result received transport source target =>
    obtain ⟨hkept, hunused, hcloses, ⟨-, hunset⟩ | ⟨offered, hoffering, hset⟩⟩ := h.of_constructing source
    · exact absurd (hunset.symm.trans received) (by simp)
    · obtain rfl := Option.some.inj (hset.symm.trans received)
      obtain ⟨hhanded, hkeepsOn⟩ := after_receive action hoffering session.pc
      have hlength : (newCloses u.session.pc session.pc).length = 1 :=
        newCloses_length (by simp [source]) (.inl target)
      exact .disposed offered (Option.some.inj (hfactory.symm.trans hhanded)) (by simp [hkept, hkeepsOn])
        (keeps.transport.trans hunused) transport (by simp [hcloses, hlength]) (.inl target)
  | refuses action keeps result received transport source target =>
    obtain ⟨hkept, hunused, hcloses, ⟨-, hunset⟩ | ⟨offered, hoffering, hset⟩⟩ := h.of_constructing source
    · exact absurd (hunset.symm.trans received) (by simp)
    · obtain rfl := Option.some.inj (hset.symm.trans received)
      obtain ⟨hhanded, hkeepsOn⟩ := after_receive action hoffering session.pc
      exact .refused offered (Option.some.inj (hfactory.symm.trans hhanded)) (by simp [hkept, hkeepsOn])
        (keeps.transport.trans hunused) transport (by simp [hcloses, newCloses_eq_nil, target])
        (by dsimp only; rw [target]; rfl)
  | abandons action keeps source target =>
    obtain rfl := action
    obtain ⟨hkept, hunused, hcloses, hplace⟩ := h.of_constructing source
    have hsame : factory = u.factory := by
      simpa [Factory.after] using hfactory.symm
    have hlate : (phase session.pc).late = true := by
      rw [target]
      rfl
    obtain ⟨hrunning, hunset⟩ | ⟨offered, hoffering, -⟩ := hplace
    · exact .running (hsame.trans hrunning) (keeps.transport.trans hunused) (keeps.factory.trans hunset)
        (by simp [hcloses, newCloses_eq_nil, target]) (.inr ⟨hlate, by simp [abandons]⟩)
    · exact .offering offered (hsame.trans hoffering) (keeps.transport.trans hunused)
        (by simp [hcloses, newCloses_eq_nil, target]) (.inr ⟨hlate, by simp [abandons]⟩)
  | proceeds plain keeps phases =>
    obtain rfl := Option.some.inj ((plain.1 _ _).symm.trans hfactory)
    have hquiet : newCloses u.session.pc session.pc = [] := by
      refine newCloses_eq_nil ?_
      obtain ⟨-, hv⟩ | ⟨-, hv⟩ | ⟨-, hv⟩ | ⟨-, -, hv⟩ | ⟨-, hv⟩ := phases <;> simp [hv]
    obtain ⟨hu, hv⟩ | ⟨hu, hv⟩ | ⟨hu, hv⟩ | ⟨hu, hunused, hv⟩ | ⟨hu, hv⟩ := phases
    · obtain ⟨hkept, hunused, hcloses, result, hreceived, htransport⟩ := h.of_disposing hu
      exact .disposed result hreceived (by simp [hkept, plain.2]) (keeps.transport.trans hunused) htransport
        (by simp [hcloses, hquiet]) (.inr (by dsimp only; rw [hv]; rfl))
    · obtain ⟨hkept, hused, hcloses, result, hreceived, htransport⟩ := h.of_used (.inl hu)
      exact .held result hreceived (by simp [hkept, plain.2]) (keeps.transport.trans hused) htransport
        (by simp [hcloses, hquiet]) (.inr (.inl hv))
    · exact h.keeps rfl (by simp [plain.2]) (by simp [hquiet]) keeps (.inr (by simp [hu, hv, Phase.late]))
    · exact h.keeps rfl (by simp [plain.2]) (by simp [hquiet]) keeps
        (.inr (by simp [hu, hv, hunused, Phase.late]))
    · obtain ⟨hkept, hused, hcloses, result, hreceived, htransport⟩ := h.of_teardown hu
      exact .tornDown result hreceived (by simp [hkept, plain.2]) (keeps.transport.trans hused) htransport
        (by simp [hcloses, hquiet]) (.inr hv)
  | tearsDown plain keeps transport source target =>
    obtain rfl := Option.some.inj ((plain.1 _ _).symm.trans hfactory)
    obtain ⟨hkept, hused, hcloses, result, hreceived, htransport⟩ := h.of_used (.inr ⟨source, transport⟩)
    have hlength : (newCloses u.session.pc session.pc).length = 1 :=
      newCloses_length (by simp [source]) (.inr target)
    exact .tornDown result hreceived (by simp [hkept, plain.2]) (keeps.transport.trans hused) htransport
      (by simp [hcloses, hlength]) (.inl target)

/-- The factory returns. -/
theorem Turn.returns (h : Turn u) {result : TransportResult ε}
    (hstep : step config is canceled u (.factory (.returns result)) = some v) : Turn v := by
  unfold step at hstep
  dsimp only at hstep
  split at hstep
  · rename_i hrunning
    obtain rfl := Option.some.inj hstep
    cases h with
    | running factory unused unset closes place =>
      obtain ⟨hphase, hkept⟩ | ⟨hlate, habandoned⟩ := place
      · have hreturns : Supervise.step config is canceled u.session (.factoryReturns result) =
            some { u.session with factory := some result } := by
          show (if u.session.pc.constructing ∧ u.session.factory.isNone then _ else _) = _
          rw [if_pos ⟨(constructing_iff u.session.pc).mpr hphase, by rw [unset]; rfl⟩]
        refine .offering result rfl ?_ closes (.inl ⟨?_, hkept, ?_⟩)
        · rw [hreturns]
          exact unused
        · rw [hreturns]
          exact hphase
        · rw [hreturns]
          rfl
      · have hreturns : Supervise.step config is canceled u.session (.factoryReturns result) = none := by
          show (if u.session.pc.constructing ∧ u.session.factory.isNone then _ else _) = _
          refine if_neg fun hconstructing => ?_
          rw [(constructing_iff u.session.pc).mp hconstructing.1] at hlate
          exact absurd hlate Bool.false_ne_true
        refine .offering result rfl ?_ closes (.inr ⟨?_, habandoned⟩)
        · rw [hreturns]
          exact unused
        · rw [hreturns]
          exact hlate
    | absent factory => exact absurd (hrunning.symm.trans factory) (by simp)
    | offering result factory => exact absurd (hrunning.symm.trans factory) (by simp)
    | held result factory => exact absurd (hrunning.symm.trans factory) (by simp)
    | tornDown result factory => exact absurd (hrunning.symm.trans factory) (by simp)
    | disposed result factory => exact absurd (hrunning.symm.trans factory) (by simp)
    | refused result factory => exact absurd (hrunning.symm.trans factory) (by simp)
    | late result factory => exact absurd factory (by simp [hrunning])
  · exact absurd hstep (by simp)

/-- The goroutine finds that the result was given up. -/
theorem Turn.abandoned (h : Turn u)
    (hstep : step config is canceled u (.factory .abandoned) = some v) : Turn v := by
  unfold step at hstep
  dsimp only at hstep
  split at hstep
  · rename_i result hoffering
    obtain ⟨habandoned, hstep⟩ := Option.ite_none_right_eq_some.mp hstep
    obtain rfl := Option.some.inj hstep
    cases h with
    | offering offered factory unused closes place =>
      obtain rfl := Factory.offering.inj (hoffering.symm.trans factory)
      obtain ⟨-, hkept, -⟩ | ⟨hlate, -⟩ := place
      · exact absurd (hkept.symm.trans habandoned) Bool.false_ne_true
      · by_cases htransport : result.transport = true
        · rw [if_pos htransport]
          exact .late result (.inl rfl) habandoned unused (by simp [closes, htransport]) (fun _ => htransport) hlate
        · rw [if_neg htransport]
          exact .late result (.inr rfl) habandoned unused (by simp [closes, htransport])
            (fun hclosing => absurd hclosing (by simp)) hlate
    | absent factory => exact absurd (hoffering.symm.trans factory) (by simp)
    | running factory => exact absurd (hoffering.symm.trans factory) (by simp)
    | held result factory => exact absurd (hoffering.symm.trans factory) (by simp)
    | tornDown result factory => exact absurd (hoffering.symm.trans factory) (by simp)
    | disposed result factory => exact absurd (hoffering.symm.trans factory) (by simp)
    | refused result factory => exact absurd (hoffering.symm.trans factory) (by simp)
    | late result factory => exact absurd factory (by simp [hoffering])
  · exact absurd hstep (by simp)

/-- `closeTransport` of the goroutine returns. -/
theorem Turn.closed (h : Turn u) {err : Option ε}
    (hstep : step config is canceled u (.factory (.closed err)) = some v) : Turn v := by
  unfold step at hstep
  dsimp only at hstep
  split at hstep
  · rename_i result hclosing
    obtain rfl := Option.some.inj hstep
    cases h with
    | late offered factory abandoned unused closes returned place =>
      have hsame : offered = result := by simpa [hclosing, eq_comm] using factory
      subst hsame
      exact .late offered (.inr rfl) abandoned unused closes (fun hcloses => absurd hcloses (by simp)) place
    | absent factory => exact absurd (hclosing.symm.trans factory) (by simp)
    | running factory => exact absurd (hclosing.symm.trans factory) (by simp)
    | offering result factory => exact absurd (hclosing.symm.trans factory) (by simp)
    | held result factory => exact absurd (hclosing.symm.trans factory) (by simp)
    | tornDown result factory => exact absurd (hclosing.symm.trans factory) (by simp)
    | disposed result factory => exact absurd (hclosing.symm.trans factory) (by simp)
    | refused result factory => exact absurd (hclosing.symm.trans factory) (by simp)
  · exact absurd hstep (by simp)

/-! ## Every run -/

/-- What holds in every reachable state. -/
structure Inv (s : State ε) : Prop where
  session : Supervise.Inv s.session
  turn : Turn s

theorem inv_step {l : Action ε} (h : Inv u) (hstep : step config is canceled u l = some v) : Inv v := by
  cases l with
  | session a =>
    refine ⟨?_, h.turn.session h.session hstep⟩
    obtain ⟨session, hsession, hafter⟩ := Option.bind_eq_some_iff.mp hstep
    obtain ⟨factory, -, rfl⟩ := Option.map_eq_some_iff.mp hafter
    exact h.session.step hsession
  | factory a =>
    cases a with
    | returns result =>
      refine ⟨?_, h.turn.returns hstep⟩
      unfold step at hstep
      dsimp only at hstep
      split at hstep
      · obtain rfl := Option.some.inj hstep
        cases hreturns : Supervise.step config is canceled u.session (.factoryReturns result) with
        | none =>
          exact h.session
        | some session =>
          exact h.session.step hreturns
      · exact absurd hstep (by simp)
    | abandoned =>
      refine ⟨?_, h.turn.abandoned hstep⟩
      unfold step at hstep
      dsimp only at hstep
      split at hstep
      · obtain ⟨-, hstep⟩ := Option.ite_none_right_eq_some.mp hstep
        obtain rfl := Option.some.inj hstep
        split <;> exact h.session
      · exact absurd hstep (by simp)
    | closed err =>
      refine ⟨?_, h.turn.closed hstep⟩
      unfold step at hstep
      dsimp only at hstep
      split at hstep
      · obtain rfl := Option.some.inj hstep
        exact h.session
      · exact absurd hstep (by simp)

theorem inv_reachable (hs : (machine config is canceled).Reachable u) : Inv u := by
  refine Machine.Reachable.invariant (I := Inv) ?_ (fun _ _ _ h hstep => inv_step h hstep) hs
  rintro _ rfl
  exact ⟨Supervise.inv_initial, .absent rfl rfl rfl rfl rfl (.inl rfl)⟩

theorem inv_exec {rest : List (Action ε)} (h : Inv u)
    (hexec : (machine config is canceled).exec u rest = some v) : Inv v :=
  Machine.Steps.invariant (I := Inv) (fun _ _ _ h _ hstep => inv_step h hstep) h (.of_exec hexec)

omit [DecidableEq ε] in
theorem owned_of_inv (h : Inv u) : u.Owned where
  at_most_once := by
    cases h.turn with
    | absent _ _ _ _ closes | running _ _ _ closes => simp [closes]
    | offering _ _ _ closes => simp [closes]
    | held _ _ _ _ _ closes | refused _ _ _ _ _ closes => simp [closes]
    | tornDown _ _ _ _ _ closes | disposed _ _ _ _ _ closes => exact closes.le
    | late result _ _ _ closes =>
      rw [closes]
      split <;> omega
  returned := by
    intro hcloses
    cases h.turn with
    | absent _ _ _ _ closes | running _ _ _ closes => exact absurd closes hcloses
    | offering _ _ _ closes => exact absurd closes hcloses
    | held _ _ _ _ _ closes | refused _ _ _ _ _ closes => exact absurd closes hcloses
    | tornDown result factory _ _ transport | disposed result factory _ _ transport =>
      exact ⟨result, by rw [factory]; rfl, transport⟩
    | late result factory _ _ closes =>
      have hresult : u.factory.result? = some result := by
        obtain hclosing | hover := factory
        · rw [hclosing]
          rfl
        · rw [hover]
          rfl
      refine ⟨result, hresult, ?_⟩
      by_contra htransport
      rw [if_neg htransport] at closes
      exact hcloses (List.length_eq_zero_iff.mp closes)
  not_in_use := by
    rintro ⟨hused, huncommitted⟩
    have hnotlate : phase u.session.pc ≠ .teardown ∧ phase u.session.pc ≠ .tail := by
      have hcommitted : u.session.pc.committed = false := by rw [← h.session.commit, huncommitted]
      constructor
      · intro hteardown
        exact absurd (hcommitted.symm.trans (committed_of_phase (.inl hteardown))) Bool.false_ne_true
      · intro htail
        exact absurd (hcommitted.symm.trans (committed_of_phase (.inr htail))) Bool.false_ne_true
    cases h.turn with
    | absent _ _ _ _ closes | running _ _ _ closes => exact closes
    | offering _ _ _ closes => exact closes
    | held _ _ _ _ _ closes | refused _ _ _ _ _ closes => exact closes
    | tornDown _ _ _ _ _ _ place => exact absurd place (by simp [hnotlate.1, hnotlate.2])
    | disposed _ _ _ unused => exact absurd (unused.symm.trans hused) Bool.false_ne_true
    | late _ _ _ unused => exact absurd (unused.symm.trans hused) Bool.false_ne_true
  settled := by
    rintro ⟨hfinished, hsettled⟩ result hresult htransport
    have htail : phase u.session.pc = .tail := by rw [hfinished]; rfl
    cases h.turn with
    | absent factory | running factory => simp [factory] at hsettled
    | offering _ factory => simp [factory] at hsettled
    | held _ _ _ _ _ _ place => simp [htail] at place
    | tornDown _ _ _ _ _ closes | disposed _ _ _ _ _ closes => exact closes
    | refused other factory _ _ transport =>
      rw [factory] at hresult
      obtain rfl := Option.some.inj hresult
      exact absurd (transport.symm.trans htransport) Bool.false_ne_true
    | late other factory _ _ closes =>
      have hsame : other = result := by
        obtain hclosing | hover := factory
        · rw [hclosing] at hresult
          exact Option.some.inj hresult
        · rw [hover] at hresult
          exact Option.some.inj hresult
      subst hsame
      rw [closes, if_pos htransport]
  not_stuck := by
    intro hfinished result hoffering
    have htail : phase u.session.pc = .tail := by rw [hfinished]; rfl
    cases h.turn with
    | offering _ _ _ _ place =>
      obtain ⟨hconstructing, -⟩ | ⟨-, habandoned⟩ := place
      · simp [htail] at hconstructing
      · exact habandoned
    | absent factory | running factory => simp [factory] at hoffering
    | held _ factory | tornDown _ factory | disposed _ factory | refused _ factory => simp [factory] at hoffering
    | late _ factory => simp [hoffering] at factory

/-! ## Every run can be settled -/

/-- Once the factory has returned, a step of the supervisor is a step of the session with the goroutine. -/
theorem step_of_supervise (h : Inv u) {result : TransportResult ε} (hresult : u.factory.result? = some result)
    (hstep : Supervise.step config is canceled u.session a = some t) :
    ∃ v, step config is canceled u (.session a) = some v ∧ v.session = t ∧ v.factory.result? = some result := by
  have hreturns : ∀ other, a ≠ .factoryReturns other := by
    rintro other rfl
    obtain ⟨⟨hconstructing, hnone⟩, -⟩ := Option.ite_none_right_eq_some.mp hstep
    obtain ⟨-, -, -, ⟨hrunning, -⟩ | ⟨offered, -, hset⟩⟩ :=
      h.turn.of_constructing ((constructing_iff u.session.pc).mp hconstructing)
    · rw [hrunning] at hresult
      exact absurd hresult (by simp [Factory.result?])
    · rw [hset] at hnone
      exact absurd hnone (by simp)
  have hafter : ∃ factory, u.factory.after a t.pc = some factory ∧ factory.result? = some result := by
    have hhanded : a = .created ∨ a = .joined → phase u.session.pc = .constructing →
        ∃ factory, u.factory.after a t.pc = some factory ∧ factory.result? = some result := by
      intro haction hconstructing
      obtain ⟨-, -, -, ⟨hrunning, -⟩ | ⟨offered, hoffering, -⟩⟩ := h.turn.of_constructing hconstructing
      · rw [hrunning] at hresult
        exact absurd hresult (by simp [Factory.result?])
      · refine ⟨_, (after_receive haction hoffering t.pc).1, ?_⟩
        rw [hoffering] at hresult
        exact hresult
    cases moves_of_step h.session hreturns hstep with
    | stays plain | proceeds plain | tearsDown plain => exact ⟨u.factory, plain.1 _ _, hresult⟩
    | rejects _ _ source | starts _ _ source =>
      rw [(h.turn.of_before source).1] at hresult
      exact absurd hresult (by simp [Factory.result?])
    | installs action _ _ _ _ source => exact hhanded (.inl action) source
    | disposes action _ _ _ _ source | refuses action _ _ _ _ source => exact hhanded action source
    | abandons action =>
      obtain rfl := action
      exact ⟨u.factory, rfl, hresult⟩
  obtain ⟨factory, hfactory, hkept⟩ := hafter
  refine ⟨{
    session := t, factory := factory, abandoned := u.abandoned || TransportOwner.abandons a
    closes := u.closes ++ newCloses u.session.pc t.pc }, ?_, rfl, hkept⟩
  show (Supervise.step config is canceled u.session a).bind _ = _
  rw [hstep, Option.bind_some, hfactory]
  rfl

/-- The supervisor can complete the session. -/
theorem exec_of_supervise {rest : List (Supervise.Action ε)} {result : TransportResult ε} (h : Inv u)
    (hresult : u.factory.result? = some result)
    (hexec : (Supervise.machine config is canceled).exec u.session rest = some t) :
    ∃ v, (machine config is canceled).exec u (rest.map .session) = some v ∧ v.session = t ∧
      v.factory.result? = some result := by
  induction rest generalizing u with
  | nil => exact ⟨u, rfl, Option.some.inj hexec, hresult⟩
  | cons a rest ih =>
    obtain ⟨s', hs', hrest⟩ := Option.bind_eq_some_iff.mp hexec
    obtain ⟨w, hw, rfl, hkept⟩ := step_of_supervise h hresult hs'
    obtain ⟨v, hv, hvt, hvresult⟩ := ih (inv_step h hw) hkept hrest
    refine ⟨v, ?_, hvt, hvresult⟩
    rw [List.map_cons, Machine.exec_cons, show (machine config is canceled).step u (.session a) = some w from hw]
    exact hv

/-- The goroutine ends after the session. -/
theorem settles_of_finished (config : Config) (is : ε → ε → Bool) (canceled : ε) (h : Inv u) (hfinished : u.session.pc = .finished) {result : TransportResult ε}
    (hresult : u.factory.result? = some result) :
    ∃ rest v, (machine config is canceled).exec u rest = some v ∧ v.Settled ∧ v.factory.result? = some result := by
  cases hfactory : u.factory with
  | absent | running =>
    rw [hfactory] at hresult
    exact absurd hresult (by simp [Factory.result?])
  | received received => exact ⟨[], u, rfl, ⟨hfinished, received, .inl hfactory⟩, hresult⟩
  | ended given => exact ⟨[], u, rfl, ⟨hfinished, given, .inr hfactory⟩, hresult⟩
  | closing given =>
    have hclosed : step config is canceled u (.factory (.closed none)) =
        some { u with factory := .ended given } := by
      unfold step
      rw [hfactory]
    rw [hfactory] at hresult
    refine ⟨[.factory (.closed none)], { u with factory := .ended given }, ?_, ⟨hfinished, given, .inr rfl⟩, hresult⟩
    exact (congrArg (Option.bind · _) hclosed).trans rfl
  | offering offered =>
    have habandoned := (owned_of_inv h).not_stuck hfinished offered hfactory
    rw [hfactory] at hresult
    by_cases htransport : offered.transport = true
    · have hgivenUp : step config is canceled u (.factory .abandoned) =
          some { u with factory := .closing offered, closes := u.closes ++ [.goroutine] } := by
        unfold step
        rw [hfactory]
        dsimp only
        rw [if_pos habandoned, if_pos htransport]
      refine ⟨[.factory .abandoned, .factory (.closed none)],
        { u with factory := .ended offered, closes := u.closes ++ [.goroutine] }, ?_,
        ⟨hfinished, offered, .inr rfl⟩, hresult⟩
      exact (congrArg (Option.bind · _) hgivenUp).trans rfl
    · have hgivenUp : step config is canceled u (.factory .abandoned) =
          some { u with factory := .ended offered } := by
        unfold step
        rw [hfactory]
        dsimp only
        rw [if_pos habandoned, if_neg htransport]
      refine ⟨[.factory .abandoned], { u with factory := .ended offered }, ?_, ⟨hfinished, offered, .inr rfl⟩,
        hresult⟩
      exact (congrArg (Option.bind · _) hgivenUp).trans rfl

/-- Once the factory has returned, every run can be continued to where the session is settled. -/
theorem settles (config : Config) (is : ε → ε → Bool) (canceled : ε) (h : Inv u) {result : TransportResult ε} (hresult : u.factory.result? = some result) :
    ∃ rest v, (machine config is canceled).exec u rest = some v ∧ v.Settled ∧ v.factory.result? = some result := by
  have hrun : u.session.runStarted = true := by
    by_contra hidle
    have hpc := h.session.idle.mp (by simpa using hidle)
    have habsent := (h.turn.of_before (by rw [hpc]; rfl)).1
    rw [habsent] at hresult
    exact absurd hresult (by simp [Factory.result?])
  have hcompletes : Supervise.Completes config is canceled u.session :=
    Supervise.completes_of_runStarted h.session hrun
  obtain ⟨rest, t, hexec, hfinished⟩ := hcompletes
  obtain ⟨w, hw, rfl, hkept⟩ := exec_of_supervise h hresult hexec
  have hwinv := inv_exec h hw
  obtain ⟨rest', v, hv, hsettled, hvresult⟩ := settles_of_finished config is canceled hwinv hfinished hkept
  refine ⟨rest.map .session ++ rest', v, ?_, hsettled, hvresult⟩
  rw [Machine.exec_append, hw]
  exact hv

/-! ## The result -/

/-- In every state of every run, the session has closed nothing but a transport that the factory has returned, at most
once, and not while it uses it; and once the factory has returned one, however late, the run can always be continued
to where the session and the goroutine have ended, and there it is closed exactly once. -/
theorem transport_closed_once (config : Config) (is : ε → ε → Bool) (canceled : ε) {s : State ε}
    (hs : (machine config is canceled).Reachable s) :
    s.Owned ∧ ∀ result, s.factory.result? = some result → ∃ rest t,
      (machine config is canceled).exec s rest = some t ∧ t.Settled ∧
        t.closes.length = if result.transport then 1 else 0 := by
  have hinv := inv_reachable hs
  refine ⟨owned_of_inv hinv, fun result hresult => ?_⟩
  obtain ⟨rest, t, hexec, hsettled, hkept⟩ := settles config is canceled hinv hresult
  refine ⟨rest, t, hexec, hsettled, ?_⟩
  have hall := owned_of_inv (inv_exec hinv hexec)
  by_cases htransport : result.transport = true
  · rw [if_pos htransport]
    exact hall.settled hsettled result hkept htransport
  · rw [if_neg htransport]
    by_contra hcloses
    obtain ⟨other, hother, hothertransport⟩ := hall.returned fun hnil => hcloses (by rw [hnil]; rfl)
    obtain rfl := Option.some.inj (hother.symm.trans hkept)
    exact htransport hothertransport

/-- A session is stopped while the factory runs, and gives it up; then the factory returns a transport and an error. -/
def givenUpRun : List (Action String) :=
  [.session .run, .session .configure, .session (.requestStop .empty), .session .offer,
    .session (.createStopped "context canceled"), .session .joinTimeout, .session .commit,
    .session (.mediaCloses none), .session .complete, .factory (.returns ⟨true, some "dial failed"⟩),
    .factory .abandoned, .factory (.closed none)]

theorem givenUpRun_closed_once :
    ∃ s, (machine Supervise.fullConfig (fun _ _ => false) "context canceled").exec initial givenUpRun = some s ∧
      s.Settled ∧ s.closes = [.goroutine] ∧ s.Owned := by
  have hexec : (machine Supervise.fullConfig (fun _ _ => false) "context canceled").exec initial givenUpRun =
    some _ := rfl
  exact ⟨_, hexec, ⟨rfl, _, .inr rfl⟩, rfl,
    (transport_closed_once Supervise.fullConfig (fun _ _ => false) "context canceled" (.of_exec rfl hexec)).1⟩

end Rtvbp.Go.TransportOwner
