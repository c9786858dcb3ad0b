import Rtvbp.Go.Proofs.DrainProofs

/-!
# The end of a session whose peer closes the socket

The control reader reports the orderly end of the socket without an error, and the keepalive monitor as a
failure. So the session ends closed if the monitor comes too late, when the supervisor is past its commit.
-/

namespace Rtvbp.Go.Session

open Rtvbp.Lib Rtvbp.Go.WebSocket Rtvbp.Go.Supervise

variable {ι ρ φ ε : Type} {config : Config} {decode : Bytes → Option (Frame ι ρ φ)}
  {s t : State ι ρ φ ε}

/-- Nothing has made the session fail. -/
structure Clean (s : State ι ρ φ ε) : Prop where
  base : Base s
  sound : s.sup.Sound
  clean : ¬ s.sup.failing

namespace Clean

theorem initial : Clean (initial : State ι ρ φ ε) where
  base := Base.initial
  sound := sound_initial
  clean := by simp [Session.initial, Supervise.initial, Supervise.State.failing, StopRequest.empty]

theorem closedCleanly (h : Clean s) : ClosedCleanly s :=
  finished_closed h.base.sup h.sound h.clean

/-- A step that is none of the supervisor. -/
theorem of_sup (h : Clean s) (hbase : Base t) (hsup : t.sup = s.sup) : Clean t :=
  ⟨hbase, by rw [hsup]; exact h.sound, by rw [hsup]; exact h.clean⟩

/-- A stop request without an error, or one that comes after the commit. -/
theorem of_requestStop (h : Clean s) (hbase : Base t) {request : StopRequest (Err ε)}
    (hsup : t.sup = s.sup.requestStop request) (hrequest : request = .empty ∨ s.sup.stopCommit = true) :
    Clean t := by
  cases hcommit : s.sup.stopCommit with
  | true =>
    have hclosing : t.sup = { s.sup with closing := true } := by
      rw [hsup, Supervise.State.requestStop, if_pos hcommit]
    exact ⟨hbase, by rw [hclosing]; exact ⟨h.sound.terminal, h.sound.queue⟩,
      by rw [hclosing]; exact h.clean⟩
  | false =>
    obtain rfl : request = .empty := hrequest.resolve_right (by simp [hcommit])
    refine ⟨hbase, ?_, ?_⟩
    · rw [hsup]
      exact h.sound.requestStop StopRequest.sound_empty
    · rw [hsup, Supervise.State.requestStop, if_neg (by simp [hcommit])]
      rintro (hfailed | ⟨request, hmem, hfailed⟩)
      · exact h.clean (.inl hfailed)
      · rcases List.mem_append.mp hmem with hmem | hmem
        · exact h.clean (.inr ⟨request, hmem, hfailed⟩)
        · obtain rfl := List.mem_singleton.mp hmem
          cases hfailed

variable [DecidableEq ι] [DecidableEq ε]

omit [DecidableEq ε] in
/-- The reader reports the end of its inbox without an error. -/
theorem readerStep (h : Clean s) {a : ReaderAction} (hbase : Base t)
    (hstep : s.readerStep decode a = some t) : Clean t := by
  cases a with
  | recv | recvEnds =>
    simp only [State.readerStep] at hstep
    split at hstep <;> simp only [reduceCtorEq, Option.some.injEq] at hstep
    subst hstep
    exact h.of_sup hbase rfl
  | recvCanceled =>
    simp only [State.readerStep, Option.ite_none_right_eq_some] at hstep
    obtain rfl := Option.some.inj hstep.2
    exact h.of_sup hbase rfl
  | handle =>
    simp only [State.readerStep] at hstep
    split at hstep <;> simp only [reduceCtorEq, Option.some.injEq] at hstep
    subst hstep
    refine h.of_sup hbase ?_
    unfold State.handleText
    (repeat' split) <;> rfl
  | report =>
    simp only [State.readerStep] at hstep
    split at hstep
    · rename_i err hreader
      split_ifs at hstep with hcanceled <;> obtain rfl := Option.some.inj hstep
      · exact h.of_sup hbase rfl
      · obtain rfl : err = .eof := (h.base.ended err hreader).resolve_right hcanceled
        exact h.of_requestStop hbase rfl (.inl rfl)
    · cases hstep

omit [DecidableEq ι] in
/-- A step of the supervisor that does not fail. -/
theorem supervisorStep (h : Clean s) {a : Supervise.Action (Err ε)} (hbase : Base t)
    (hfails : ¬ Fails config (· == ·) s.sup a) (hstep : s.supervisorStep config a = some t) : Clean t := by
  obtain ⟨sup, hsup, hcases⟩ := supervisorStep_cases hstep
  have hrequest : ∀ request, a = .requestStop request → request.Sound := by
    rintro request rfl
    cases hstep
  have ht : t.sup = sup := by
    rcases hcases with ⟨-, -, rfl⟩ | ⟨-, rfl⟩ | ⟨-, rfl⟩ | ⟨-, -, rfl⟩ <;> rfl
  refine ⟨hbase, ?_, ?_⟩
  · rw [ht]
    exact h.sound.step hrequest hsup
  · rw [ht, failing_step h.base.sup hsup]
    rintro (hfailing | hf)
    · exact h.clean hfailing
    · exact hfails hf

/-- As long as nothing else fails and the monitor comes too late, nothing makes the session fail. -/
theorem step {a : Action ι ε} (h : Clean s) (hsocket : OrderlySocket a) (halive : Alive config s a)
    (hfailure : NoFailure config s a) (hmonitor : MonitorLate s a)
    (hstep : Session.step config decode s a = some t) : Clean t := by
  have hbase : Base t := by
    refine h.base.step hsocket halive ?_ hstep
    rintro err rfl
    exact hfailure.elim
  cases a with
  | socket a =>
    obtain ⟨u, -, rfl⟩ := Option.map_eq_some_iff.mp hstep
    cases a <;> exact h.of_sup hbase rfl
  | monitor a =>
    obtain ⟨u, -, rfl⟩ := Option.map_eq_some_iff.mp hstep
    exact h.of_sup hbase rfl
  | reportMonitor =>
    simp only [Session.step] at hstep
    split at hstep <;> simp only [reduceCtorEq, Option.some.injEq] at hstep
    subst hstep
    split_ifs at hbase ⊢
    · exact h.of_sup hbase rfl
    · exact h.of_requestStop hbase rfl (.inr hmonitor)
  | reader a => exact h.readerStep hbase hstep
  | dispatcher a => exact h.of_sup hbase (dispatcherStep_untouched hstep).1.sup
  | inbound a => exact h.of_sup hbase (inboundStep_untouched h.base hstep).1.sup
  | outbound a => exact h.of_sup hbase (outboundStep_untouched h.base hstep).1.sup
  | call id a =>
    obtain ⟨calls, u, -, -, rfl⟩ := callStep_cases hstep
    exact h.of_sup hbase rfl
  | send =>
    obtain ⟨u, -, rfl⟩ := Option.map_eq_some_iff.mp hstep
    exact h.of_sup hbase rfl
  | stop request =>
    obtain rfl := Option.some.inj hstep
    exact h.of_requestStop hbase rfl (.inl hfailure)
  | bindAudio | closeAudio | cancelTasks | closeDispatch | closeTransport =>
    simp only [Session.step, Option.ite_none_right_eq_some] at hstep
    obtain rfl := Option.some.inj hstep.2
    exact h.of_sup hbase rfl
  | supervisor a => exact h.supervisorStep hbase hfailure hstep
  | failPending =>
    simp only [Session.step, Option.ite_none_right_eq_some] at hstep
    obtain ⟨calls, -, rfl⟩ := Option.map_eq_some_iff.mp hstep.2
    exact h.of_sup hbase rfl
  | closeTimeout err => exact hfailure.elim

end Clean

variable [DecidableEq ι] [DecidableEq ε]

/-- When the supervisor receives the result of `OnBegin` and does not fail, that is no error. -/
theorem beginSucceeds_of_noFailure {a : Action ι ε} (hfailure : NoFailure config s a)
    (hstep : step config decode s a = some t) : BeginSucceeds s a := by
  cases a with
  | supervisor a =>
    cases a with
    | beginReceived =>
      have hsup : s.supervisorStep config .beginReceived = some t := hstep
      obtain ⟨sup, hsup, -⟩ := supervisorStep_cases hsup
      simp only [Supervise.step, Option.ite_none_right_eq_some] at hsup
      obtain ⟨result, hresult, -⟩ := Option.map_eq_some_iff.mp hsup.2
      cases result with
      | none => exact hresult
      | some err => exact absurd (.inr (.inr (.inr (.inl ⟨rfl, err, hresult⟩)))) hfailure
    | _ => trivial
  | _ => trivial

/-- An orderly close ends the session without an error, if the monitor comes too late. -/
theorem closedCleanly_of_orderlyClose
    (h : (machine config decode).ReachableWhere
      (fun s a => OrderlyClose config s a ∧ MonitorLate s a) s) : ClosedCleanly s := by
  refine (h.invariant (I := Clean) ?_ ?_).closedCleanly
  · rintro _ rfl
    exact Clean.initial
  · rintro s a t hclean ⟨⟨hsocket, halive, hfailure⟩, hmonitor⟩ hstep
    exact hclean.step hsocket halive hfailure hmonitor hstep

/-- An orderly close drains the inbox, if nobody stops the session locally and the monitor comes too
late. -/
theorem drained_of_orderlyClose
    (h : (machine config decode).ReachableWhere
      (fun s a => OrderlyClose config s a ∧ MonitorLate s a ∧ NoLocalStop a) s)
    (htransport : s.sup.transport = true) : Drained decode s := by
  refine (h.invariant (I := Drain decode) ?_ ?_).drained htransport
  · rintro _ rfl
    exact Drain.initial
  · rintro s a t hdrain ⟨⟨hsocket, halive, hfailure⟩, hmonitor, hlocal⟩ hstep
    refine hdrain.step hsocket halive hlocal (beginSucceeds_of_noFailure hfailure hstep) ?_ hstep
    rintro rfl
    exact hmonitor

end Rtvbp.Go.Session
