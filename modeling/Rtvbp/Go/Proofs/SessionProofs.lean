import Rtvbp.Go.Proofs.PendingProofs
import Rtvbp.Go.Proofs.StopProofs
import Rtvbp.Go.Proofs.WebSocketProofs
import Rtvbp.Go.Session

/-!
# The workers of a session with an orderly socket

As long as the socket ends with `io.EOF`, neither of the audio pumps asks for a stop: what they fail with
is the end of the media or comes after the session has begun to close. And the control reader ends with
`io.EOF`, or after the tasks are canceled.
-/

namespace Rtvbp.Go.Session

open Rtvbp.Lib Rtvbp.Go.WebSocket Rtvbp.Go.Supervise

variable {ι ρ φ ε : Type} {config : Config} {decode : Bytes → Option (Frame ι ρ φ)}
  {s t : State ι ρ φ ε}

/-! ## What holds while the socket is orderly -/

/-- `handleAudioPumpError` does nothing about this error. -/
def State.Ignores (s : State ι ρ φ ε) (err : Err ε) : Prop :=
  err = .eof ∨ err = .closedPipe ∨ s.calls.closing = true

/-- What holds in every state of a run with an orderly socket. -/
structure Base (s : State ι ρ φ ε) : Prop where
  sup : Supervise.Inv s.sup
  calls : Pending.Inv s.calls
  orderly : s.transport.Orderly
  inbound : ∀ operation err, s.inbound = .failed operation err → s.Ignores err
  outbound : ∀ operation err, s.outbound = .failed operation err → s.Ignores err
  begun : s.calls.shutdown = s.sup.stopCommit
  opened : s.sup.stopCommit = false ↔ s.shutdown = .open
  dispatch : s.dispatch.closed = true → s.shutdown.isCanceled = true
  /-- The reader ends by the end of its inbox, or after the tasks are canceled. -/
  ended : ∀ err, s.reader = .ended err → err = .eof ∨ s.shutdown.isCanceled = true

section Cases

variable [DecidableEq ι]

/-- A step of a call is one of the pending requests, and may send a message. -/
theorem callStep_cases {id : ι} {a : Pending.CallAction (Causes ε)} (hstep : s.callStep id a = some t) :
    ∃ calls u, Pending.step [.given .sessionClosed] s.calls (.call id a) = some calls ∧
      (u = s.transport ∨ s.transport.enqueue .text = some u) ∧ t = { s with calls, transport := u } := by
  obtain ⟨calls, hcalls, ht⟩ := Option.bind_eq_some_iff.mp hstep
  split at ht
  · obtain ⟨u, hu, rfl⟩ := Option.map_eq_some_iff.mp ht
    exact ⟨calls, u, hcalls, .inr hu, rfl⟩
  · obtain rfl := Option.some.inj ht
    exact ⟨calls, s.transport, hcalls, .inl rfl, rfl⟩

omit [DecidableEq ι] in
/-- What a step of the supervisor does to the other components: it starts the workers, it begins the
shutdown, it closes the media, or nothing. -/
theorem supervisorStep_cases [DecidableEq ε] {a : Supervise.Action (Err ε)}
    (hstep : s.supervisorStep config a = some t) :
    ∃ sup, Supervise.step config (· == ·) .canceled s.sup a = some sup ∧
      ((a = .created ∧ sup.transport = true ∧ t = { s with sup }.startWorkers config) ∨
        (a = .commit ∧ t = { s with
          sup, calls := { s.calls with closing := true, shutdown := true }, shutdown := .begun }) ∨
        (a = .mediaCloses none ∧ t = { s with
          sup, transport := { s.transport with media := s.transport.media.close .eof } }) ∨
        (a ≠ .commit ∧ a.request = none ∧ t = { s with sup })) := by
  cases a with
  | requestStop request => cases hstep
  | created =>
    obtain ⟨sup, hsup, rfl⟩ := Option.map_eq_some_iff.mp hstep
    refine ⟨sup, hsup, ?_⟩
    split_ifs with htransport
    · exact .inl ⟨rfl, htransport, rfl⟩
    · exact .inr (.inr (.inr ⟨by simp, rfl, rfl⟩))
  | commit =>
    obtain ⟨sup, hsup, rfl⟩ := Option.map_eq_some_iff.mp hstep
    exact ⟨sup, hsup, .inr (.inl ⟨rfl, rfl⟩)⟩
  | mediaCloses err =>
    simp only [State.supervisorStep, Option.ite_none_right_eq_some] at hstep
    obtain ⟨⟨-, rfl⟩, hstep⟩ := hstep
    obtain ⟨sup, hsup, rfl⟩ := Option.map_eq_some_iff.mp hstep
    refine ⟨sup, hsup, ?_⟩
    split_ifs
    · exact .inr (.inr (.inr ⟨by simp, rfl, rfl⟩))
    · exact .inr (.inr (.inl ⟨rfl, rfl⟩))
  | factoryReturns _ | transportCloses _ | workersDone =>
    simp only [State.supervisorStep, Option.ite_none_right_eq_some] at hstep
    obtain ⟨sup, hsup, rfl⟩ := Option.map_eq_some_iff.mp hstep.2
    exact ⟨sup, hsup, .inr (.inr (.inr ⟨by simp, rfl, rfl⟩))⟩
  | onClose =>
    exact ⟨_, rfl, .inr (.inr (.inr ⟨by simp, rfl, (Option.some.inj hstep).symm⟩))⟩
  | run | offer | parentEnds _ | onBeginReturns _ | configure | createStopped _
  | createParentDone _ | partialCloses _ | joined | joinTimeout | canceledCloses _ | beginReceived
  | beginStopped | beginParentDone | activeStopped | activeParentDone | closeHandlerReturns _
  | workersTimeout | complete =>
    obtain ⟨sup, hsup, rfl⟩ := Option.map_eq_some_iff.mp hstep
    exact ⟨sup, hsup, .inr (.inr (.inr ⟨by simp, rfl, rfl⟩))⟩

end Cases

namespace Base

theorem initial : Base (initial : State ι ρ φ ε) where
  sup := Supervise.inv_initial
  calls := Pending.inv_initial
  orderly := ⟨nofun, nofun, nofun⟩
  inbound := nofun
  outbound := nofun
  begun := rfl
  opened := ⟨fun _ => rfl, fun _ => rfl⟩
  dispatch := nofun
  ended := nofun

/-- Once the shutdown has begun, `closing` is set. -/
theorem closing (h : Base s) (hshutdown : s.shutdown ≠ .open) : s.calls.closing = true := by
  refine h.calls.closing (h.begun.trans ?_)
  by_contra hne
  exact hshutdown (h.opened.mp (by simpa using hne))

theorem ignores_of_audioClosed (h : Base s) (hclosed : s.shutdown.isAudioClosed = true) (err : Err ε) :
    s.Ignores err := by
  refine .inr (.inr (h.closing fun hopen => ?_))
  simp [hopen, ShutdownPc.isAudioClosed] at hclosed

/-- A step that changes the transport and the pumps only. -/
theorem of_same (h : Base s) (hsup : t.sup = s.sup) (hcalls : t.calls = s.calls)
    (hshutdown : t.shutdown = s.shutdown) (hdispatch : t.dispatch.closed = s.dispatch.closed)
    (horderly : t.transport.Orderly)
    (hinbound : ∀ operation err, t.inbound = .failed operation err → s.Ignores err)
    (houtbound : ∀ operation err, t.outbound = .failed operation err → s.Ignores err)
    (hended : ∀ err, t.reader = .ended err → err = .eof ∨ s.shutdown.isCanceled = true) : Base t := by
  have hignores : ∀ err, s.Ignores err → t.Ignores err := fun err => by
    unfold State.Ignores
    rw [hcalls]
    exact id
  refine ⟨?_, ?_, horderly, fun o e he => hignores e (hinbound o e he),
    fun o e he => hignores e (houtbound o e he), ?_, ?_, ?_, ?_⟩
  · rw [hsup]
    exact h.sup
  · rw [hcalls]
    exact h.calls
  · rw [hcalls, hsup]
    exact h.begun
  · rw [hsup, hshutdown]
    exact h.opened
  · rw [hdispatch, hshutdown]
    exact h.dispatch
  · rw [hshutdown]
    exact hended

/-- A step that changes the requests only. -/
theorem withCalls (h : Base s) {calls : Pending.State ι ρ (Causes ε)} (hinv : Pending.Inv calls)
    (hshutdown : calls.shutdown = s.calls.shutdown) (hclosing : calls.closing = s.calls.closing) :
    Base { s with calls } := by
  have hignores : ∀ err, s.Ignores err → ({ s with calls } : State ι ρ φ ε).Ignores err := fun err => by
    unfold State.Ignores
    rw [hclosing]
    exact id
  exact ⟨h.sup, hinv, h.orderly, fun o e he => hignores e (h.inbound o e he),
    fun o e he => hignores e (h.outbound o e he), hshutdown.trans h.begun, h.opened, h.dispatch, h.ended⟩

/-- The shutdown goes on. -/
theorem advance (h : Base s) (hfrom : s.shutdown ≠ .open) {pc : ShutdownPc} (hpc : pc ≠ .open)
    (hcanceled : s.shutdown.isCanceled = true → pc.isCanceled = true) : Base { s with shutdown := pc } := by
  refine ⟨h.sup, h.calls, h.orderly, h.inbound, h.outbound, h.begun, ?_, ?_, ?_⟩
  · exact h.opened.trans ⟨fun ho => absurd ho hfrom, fun ho => absurd ho hpc⟩
  · exact fun hclosed => hcanceled (h.dispatch hclosed)
  · exact fun err he => (h.ended err he).imp_right hcanceled

/-- A step that changes the transport only. -/
theorem transport (h : Base s) {u : Transport ε} (hu : u.Orderly) : Base { s with transport := u } :=
  h.of_same rfl rfl rfl rfl hu h.inbound h.outbound h.ended

theorem requestStop (h : Base s) (request : StopRequest (Err ε)) :
    Base (s.requestStop request) := by
  have hcommit : (s.sup.requestStop request).stopCommit = s.sup.stopCommit := by
    unfold Supervise.State.requestStop
    split_ifs <;> rfl
  refine ⟨h.sup.requestStop request, ?_, h.orderly, fun _ _ _ => .inr (.inr rfl),
    fun _ _ _ => .inr (.inr rfl), ?_, ?_, h.dispatch, h.ended⟩
  · exact ⟨fun _ => rfl, h.calls.swept, h.calls.calls⟩
  · exact h.begun.trans hcommit.symm
  · rw [show (s.requestStop request).sup.stopCommit = s.sup.stopCommit from hcommit]
    exact h.opened

/-- What an audio pump fails with is ignored. -/
theorem handleAudioPumpError_eq {operation : String} {err : Err ε} (h : s.Ignores err) :
    s.handleAudioPumpError operation err = s := by
  unfold State.handleAudioPumpError
  split_ifs with hclosing
  · rfl
  · rcases h with rfl | rfl | h
    · rfl
    · rfl
    · exact absurd h hclosing

variable [DecidableEq ι]

theorem handleText (h : Base s) (text : Bytes) : Base (s.handleText decode text) := by
  unfold State.handleText
  split
  · exact h.of_same rfl rfl rfl rfl h.orderly h.inbound h.outbound nofun
  · rename_i id response hdecode
    exact ⟨h.sup, h.calls.response id response, h.orderly, h.inbound, h.outbound, h.begun, h.opened,
      h.dispatch, nofun⟩
  · split_ifs
    · refine h.of_same rfl rfl rfl rfl h.orderly h.inbound h.outbound fun e he => .inl ?_
      exact (ReaderPc.ended.inj he).symm
    · exact h.of_same rfl rfl rfl rfl h.orderly h.inbound h.outbound nofun

theorem readerStep (h : Base s) {a : ReaderAction} (hstep : s.readerStep decode a = some t) : Base t := by
  cases a with
  | recv =>
    simp only [State.readerStep] at hstep
    split at hstep <;> simp only [reduceCtorEq, Option.some.injEq] at hstep
    subst hstep
    exact h.of_same rfl rfl rfl rfl (h.orderly.of_eq rfl rfl rfl rfl) h.inbound h.outbound nofun
  | recvEnds =>
    simp only [State.readerStep] at hstep
    split at hstep <;> simp only [reduceCtorEq, Option.some.injEq] at hstep
    rename_i err _ hcontrol
    subst hstep
    refine h.of_same rfl rfl rfl rfl h.orderly h.inbound h.outbound fun e he => .inl ?_
    obtain rfl := ReaderPc.ended.inj he
    exact (h.orderly.control err (by rw [hcontrol])).1
  | recvCanceled =>
    simp only [State.readerStep, Option.ite_none_right_eq_some] at hstep
    obtain ⟨⟨-, hcanceled⟩, hstep⟩ := hstep
    obtain rfl := Option.some.inj hstep
    exact h.of_same rfl rfl rfl rfl h.orderly h.inbound h.outbound fun _ _ => .inr hcanceled
  | handle =>
    simp only [State.readerStep] at hstep
    split at hstep <;> simp only [reduceCtorEq, Option.some.injEq] at hstep
    subst hstep
    exact h.handleText _
  | report =>
    simp only [State.readerStep] at hstep
    split at hstep
    · split_ifs at hstep <;> obtain rfl := Option.some.inj hstep
      · exact h.of_same rfl rfl rfl rfl h.orderly h.inbound h.outbound nofun
      · rename_i err _ _
        have hstop := h.requestStop (stopFromTransport err)
        exact hstop.of_same rfl rfl rfl rfl hstop.orderly hstop.inbound hstop.outbound nofun
    · cases hstep

omit [DecidableEq ι] in
theorem dispatcherStep (h : Base s) {a : DispatcherAction} (hstep : s.dispatcherStep a = some t) :
    Base t := by
  cases a with
  | pop =>
    simp only [State.dispatcherStep] at hstep
    split at hstep <;> simp only [reduceCtorEq, Option.some.injEq] at hstep
    rename_i hdispatch
    subst hstep
    exact h.of_same rfl rfl rfl (by rw [hdispatch]) h.orderly h.inbound h.outbound h.ended
  | popEnds | handled =>
    simp only [State.dispatcherStep, Option.ite_none_right_eq_some] at hstep
    obtain rfl := Option.some.inj hstep.2
    exact h.of_same rfl rfl rfl rfl h.orderly h.inbound h.outbound h.ended

omit [DecidableEq ι] in
theorem bufferInbound_ne (remaining : Bytes) (operation : String) (err : Err ε) :
    State.bufferInbound remaining ≠ .failed operation err := by
  unfold State.bufferInbound
  split_ifs <;> simp

omit [DecidableEq ι] in
theorem inboundStep (h : Base s) {a : InboundAction ε} (hstep : s.inboundStep a = some t) : Base t := by
  cases a with
  | read =>
    simp only [State.inboundStep] at hstep
    split at hstep <;> simp only [reduceCtorEq, Option.some.injEq] at hstep
    subst hstep
    exact h.of_same rfl rfl rfl rfl (h.orderly.of_eq rfl rfl rfl rfl)
      (fun o e he => absurd he (bufferInbound_ne _ o e)) h.outbound h.ended
  | readEnds =>
    simp only [State.inboundStep] at hstep
    split at hstep <;> simp only [reduceCtorEq, Option.some.injEq] at hstep
    rename_i err _ hmedia
    subst hstep
    refine h.of_same rfl rfl rfl rfl h.orderly (fun o e he => .inl ?_) h.outbound h.ended
    obtain ⟨-, rfl⟩ := InboundPc.failed.inj he
    exact h.orderly.media err (by rw [hmedia])
  | buffer n =>
    simp only [State.inboundStep] at hstep
    split at hstep <;> simp only [reduceCtorEq, Option.ite_none_right_eq_some] at hstep
    obtain rfl := Option.some.inj hstep.2
    exact h.of_same rfl rfl rfl rfl h.orderly (fun o e he => absurd he (bufferInbound_ne _ o e))
      h.outbound h.ended
  | bufferFails err =>
    simp only [State.inboundStep, Option.ite_none_right_eq_some] at hstep
    obtain ⟨⟨-, hclosed⟩, hstep⟩ := hstep
    obtain rfl := Option.some.inj hstep
    exact h.of_same rfl rfl rfl rfl h.orderly (fun _ e _ => h.ignores_of_audioClosed hclosed e)
      h.outbound h.ended
  | report =>
    simp only [State.inboundStep] at hstep
    split at hstep <;> simp only [reduceCtorEq, Option.some.injEq] at hstep
    rename_i operation err hfailed
    rw [handleAudioPumpError_eq (h.inbound operation err hfailed)] at hstep
    subst hstep
    exact h.of_same rfl rfl rfl rfl h.orderly nofun h.outbound h.ended

omit [DecidableEq ι] in
theorem outboundStep (h : Base s) {a : OutboundAction ε} (hstep : s.outboundStep a = some t) : Base t := by
  cases a with
  | read data =>
    simp only [State.outboundStep, Option.ite_none_right_eq_some] at hstep
    obtain rfl := Option.some.inj hstep.2
    exact h.of_same rfl rfl rfl rfl h.orderly h.inbound nofun h.ended
  | readFails err =>
    simp only [State.outboundStep, Option.ite_none_right_eq_some] at hstep
    obtain ⟨⟨-, hclosed⟩, hstep⟩ := hstep
    obtain rfl := Option.some.inj hstep
    exact h.of_same rfl rfl rfl rfl h.orderly h.inbound
      (fun _ e _ => h.ignores_of_audioClosed hclosed e) h.ended
  | write =>
    have hpipe : ∀ (o : String) (e : Err ε), OutboundPc.failed "write" .closedPipe = .failed o e →
        s.Ignores e := by
      intro o e he
      obtain ⟨-, rfl⟩ := OutboundPc.failed.inj he
      exact .inr (.inl rfl)
    simp only [State.outboundStep, Option.ite_none_right_eq_some] at hstep
    obtain ⟨-, hstep⟩ := hstep
    split_ifs at hstep
    · obtain rfl := Option.some.inj hstep
      exact h.of_same rfl rfl rfl rfl h.orderly h.inbound hpipe h.ended
    · split at hstep <;> obtain rfl := Option.some.inj hstep
      · rename_i u hu
        exact h.of_same rfl rfl rfl rfl (h.orderly.enqueue hu) h.inbound nofun h.ended
      · exact h.of_same rfl rfl rfl rfl h.orderly h.inbound hpipe h.ended
  | report =>
    simp only [State.outboundStep] at hstep
    split at hstep <;> simp only [reduceCtorEq, Option.some.injEq] at hstep
    rename_i operation err hfailed
    rw [handleAudioPumpError_eq (h.outbound operation err hfailed)] at hstep
    subst hstep
    exact h.of_same rfl rfl rfl rfl h.orderly h.inbound nofun h.ended

theorem callStep (h : Base s) {id : ι} {a : Pending.CallAction (Causes ε)}
    (hstep : s.callStep id a = some t) : Base t := by
  obtain ⟨calls, u, hcalls, hu, rfl⟩ := callStep_cases hstep
  have hshutdown : calls.shutdown = s.calls.shutdown ∧ calls.closing = s.calls.closing := by
    obtain ⟨c, -, rfl⟩ := Option.map_eq_some_iff.mp hcalls
    exact ⟨rfl, rfl⟩
  refine (h.withCalls (h.calls.step hcalls) hshutdown.1 hshutdown.2).transport ?_
  rcases hu with rfl | hu
  · exact h.orderly
  · exact h.orderly.enqueue hu

omit [DecidableEq ι] in
theorem supervisorStep [DecidableEq ε] (h : Base s) {a : Supervise.Action (Err ε)}
    (hstep : s.supervisorStep config a = some t) : Base t := by
  obtain ⟨sup, hsup, hcases⟩ := supervisorStep_cases hstep
  have hinv := h.sup.step hsup
  have hkept : a ≠ .commit → sup.stopCommit = s.sup.stopCommit := fun hne =>
    (stopCommit_step h.sup hsup).resolve_left fun hc => hne hc.1
  -- a step of the supervisor that leaves the shutdown alone
  have hsame : a ≠ .commit → Base { s with sup } := fun hne =>
    ⟨hinv, h.calls, h.orderly, h.inbound, h.outbound, h.begun.trans (hkept hne).symm,
      (by rw [hkept hne]; exact h.opened), h.dispatch, h.ended⟩
  rcases hcases with ⟨rfl, -, rfl⟩ | ⟨rfl, rfl⟩ | ⟨rfl, rfl⟩ | ⟨hne, -, rfl⟩
  · have hb := hsame (by simp)
    exact ⟨hb.sup, ⟨hb.calls.closing, hb.calls.swept, hb.calls.calls⟩, hb.orderly.of_eq rfl rfl rfl rfl,
      hb.inbound, hb.outbound, hb.begun, hb.opened, hb.dispatch, nofun⟩
  · simp only [Supervise.step, Option.ite_none_right_eq_some] at hsup
    obtain ⟨hpc, hsup⟩ := hsup
    obtain rfl := Option.some.inj hsup
    have hopen : s.shutdown = .open := h.opened.mp (by rw [h.sup.commit, hpc]; rfl)
    refine ⟨hinv, ⟨fun _ => rfl, fun _ => rfl, h.calls.calls⟩, h.orderly, fun _ _ _ => .inr (.inr rfl),
      fun _ _ _ => .inr (.inr rfl), rfl, by simp [Supervise.State.commitStopRequests], fun hclosed => ?_,
      fun err he => .inl ?_⟩
    · have hcanceled := h.dispatch hclosed
      simp [hopen, ShutdownPc.isCanceled] at hcanceled
    · exact (h.ended err he).resolve_right (by simp [hopen, ShutdownPc.isCanceled])
  · have hb := hsame (by simp)
    refine hb.transport ⟨h.orderly.terminal, h.orderly.control, fun e he => ?_⟩
    rcases Mailbox.closed_of_close he with he | rfl
    · exact h.orderly.media e he
    · rfl
  · exact hsame hne

/-- The steps of an orderly socket keep the invariant, if `Close` does not end the transport. -/
theorem step [DecidableEq ε] {a : Action ι ε} (h : Base s) (hsocket : OrderlySocket a)
    (halive : Alive config s a) (htimeout : ∀ err, a = .closeTimeout err → s.transport.finishPc ≠ .idle)
    (hstep : Session.step config decode s a = some t) : Base t := by
  cases a with
  | socket a =>
    obtain ⟨u, hu, rfl⟩ := Option.map_eq_some_iff.mp hstep
    have hud : u.Orderly := h.orderly.step (fun err he => by subst he; exact hsocket)
      (fun err he => by subst he; exact hsocket) hu
    cases a <;> exact h.of_same rfl rfl rfl rfl hud h.inbound h.outbound h.ended
  | monitor a =>
    obtain ⟨u, hu, rfl⟩ := Option.map_eq_some_iff.mp hstep
    exact h.transport (Transport.monitorStep_orderly h.orderly (fun ha => by subst ha; exact halive) hu).1
  | reportMonitor =>
    simp only [Session.step] at hstep
    split at hstep <;> simp only [reduceCtorEq, Option.some.injEq] at hstep
    have hreturned := h.transport (u := { s.transport with monitor := .returned })
      (h.orderly.of_eq rfl rfl rfl rfl)
    subst hstep
    split_ifs
    · exact hreturned
    · exact hreturned.requestStop _
  | reader a => exact h.readerStep hstep
  | dispatcher a => exact h.dispatcherStep hstep
  | inbound a => exact h.inboundStep hstep
  | outbound a => exact h.outboundStep hstep
  | call id a => exact h.callStep hstep
  | send =>
    obtain ⟨u, hu, rfl⟩ := Option.map_eq_some_iff.mp hstep
    exact h.transport (h.orderly.enqueue hu)
  | stop request =>
    obtain rfl := Option.some.inj hstep
    exact h.requestStop request
  | bindAudio =>
    simp only [Session.step, Option.ite_none_right_eq_some] at hstep
    obtain rfl := Option.some.inj hstep.2
    exact h.of_same rfl rfl rfl rfl h.orderly nofun nofun h.ended
  | supervisor a => exact h.supervisorStep hstep
  | failPending =>
    simp only [Session.step, Option.ite_none_right_eq_some] at hstep
    obtain ⟨hbegun, hstep⟩ := hstep
    obtain ⟨calls, hcalls, rfl⟩ := Option.map_eq_some_iff.mp hstep
    have hfields : calls.shutdown = s.calls.shutdown ∧ calls.closing = s.calls.closing := by
      simp only [Pending.step, Option.ite_none_right_eq_some] at hcalls
      obtain rfl := Option.some.inj hcalls.2
      exact ⟨rfl, rfl⟩
    have hb := h.withCalls (h.calls.step hcalls) hfields.1 hfields.2
    exact hb.advance (by simp [hbegun]) (by simp) (by simp [hbegun, ShutdownPc.isCanceled])
  | closeAudio | cancelTasks =>
    simp only [Session.step, Option.ite_none_right_eq_some] at hstep
    obtain ⟨hbefore, hstep⟩ := hstep
    obtain rfl := Option.some.inj hstep
    exact h.advance (by simp [hbefore]) (by simp) (by simp [hbefore, ShutdownPc.isCanceled])
  | closeDispatch =>
    simp only [Session.step, Option.ite_none_right_eq_some] at hstep
    obtain ⟨hbefore, hstep⟩ := hstep
    obtain rfl := Option.some.inj hstep
    have hb : Base { s with shutdown := .dispatchClosed } :=
      h.advance (by simp [hbefore]) (by simp) fun _ => rfl
    exact ⟨hb.sup, hb.calls, hb.orderly, hb.inbound, hb.outbound, hb.begun, hb.opened, fun _ => rfl,
      hb.ended⟩
  | closeTransport =>
    simp only [Session.step, Option.ite_none_right_eq_some] at hstep
    obtain rfl := Option.some.inj hstep.2
    exact h.transport h.orderly.closeCommand
  | closeTimeout err =>
    simp only [Session.step, Option.ite_none_right_eq_some] at hstep
    obtain ⟨sup, hsup, rfl⟩ := Option.map_eq_some_iff.mp hstep.2
    have hkept : sup.stopCommit = s.sup.stopCommit :=
      (stopCommit_step h.sup hsup).resolve_left (by simp)
    have hfinish : s.transport.finish err = s.transport := if_neg (htimeout err rfl)
    rw [hfinish]
    exact ⟨h.sup.step hsup, h.calls, h.orderly, h.inbound, h.outbound, h.begun.trans hkept.symm,
      (by rw [hkept]; exact h.opened), h.dispatch, h.ended⟩

end Base

end Rtvbp.Go.Session
