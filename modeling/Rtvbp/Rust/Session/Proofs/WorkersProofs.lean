import Rtvbp.Rust.Session.Workers
import Rtvbp.Rust.Session.Proofs.EntryProofs
import Rtvbp.Rust.Session.Proofs.StopProofs
import Rtvbp.Rust.Proofs.WebSocketProofs

/-!
# The end of a session whose peer closes the socket

The control reader returns when its inbox is closed and empty, and `run` records that without a failure.
The keepalive monitor returns too when the transport closes, and `run` records that as a failure. So the
session ends closed, with every response handled, if the `select!` does not take the branch of the monitor.
-/

namespace Rtvbp.Rust.Workers

open Rtvbp.Lib Rtvbp.Rust.WebSocket
open Rtvbp.Envelope.Rust (ControlFrame)

variable {ι β : Type} {keepalive : Run.KeepalivePolicy} {encode : ControlFrame → Except Error β}
  {decode : Bytes → Option ControlFrame} {s t : State ι}

/-! ## The steps that touch neither the requests nor the messages on their way -/

/-- The step is none of `run`, of a request, of the reader or of the control inbox. -/
structure Untouched (s t : State ι) : Prop where
  run : t.run = s.run
  calls : t.calls = s.calls
  swept : t.swept = s.swept
  reader : t.reader = s.reader
  control : t.transport.control = s.transport.control
  delivered : t.delivered = s.delivered
  handled : t.handled = s.handled
  orderly : t.transport.Orderly
  dispatcher : t.dispatcher = .returned →
    s.dispatcher = .returned ∨ s.run.stop.requested = true ∨ s.run.closing = true

/-- A step of the transport that leaves the control inbox alone. -/
theorem Untouched.of_transport {u : Transport} (horderly : u.Orderly)
    (hcontrol : u.control = s.transport.control) : Untouched s { s with transport := u } :=
  ⟨rfl, rfl, rfl, rfl, hcontrol, rfl, rfl, horderly, .inl⟩

theorem dispatcherStep_untouched (h : s.transport.Orderly) {a : DispatcherAction}
    (hstep : s.dispatcherStep a = some t) : Untouched s t := by
  cases a with
  | recv =>
    simp only [State.dispatcherStep] at hstep
    split at hstep <;> simp only [reduceCtorEq, Option.some.injEq] at hstep
    subst hstep
    refine ⟨rfl, rfl, rfl, rfl, rfl, rfl, rfl, h, fun hreturned => .inr ?_⟩
    dsimp only at hreturned
    split_ifs at hreturned with hstop
    exact (Bool.or_eq_true_iff).mp hstop
  | handled =>
    simp only [State.dispatcherStep] at hstep
    split at hstep <;> simp only [reduceCtorEq, Option.some.injEq] at hstep
    subst hstep
    exact ⟨rfl, rfl, rfl, rfl, rfl, rfl, rfl, h, nofun⟩

/-- The audio pumps do not stop the session. -/
theorem inboundStep_untouched (h : s.transport.Orderly) {a : InboundAction}
    (hstep : s.inboundStep a = some t) : Untouched s t := by
  cases a with
  | read =>
    simp only [State.inboundStep] at hstep
    split at hstep <;> simp only [reduceCtorEq, Option.some.injEq] at hstep
    subst hstep
    exact ⟨rfl, rfl, rfl, rfl, rfl, rfl, rfl, h.of_eq rfl rfl rfl, .inl⟩
  | readEnds =>
    simp only [State.inboundStep] at hstep
    split at hstep <;> simp only [reduceCtorEq, Option.some.injEq] at hstep
    rename_i terminal hreading hmedia
    have hterminal : terminal = .orderly := h.media terminal (by rw [hmedia])
    subst hterminal hstep
    exact ⟨rfl, rfl, rfl, rfl, rfl, rfl, rfl, h, .inl⟩
  | pushed | pushFails =>
    simp only [State.inboundStep, Option.ite_none_right_eq_some] at hstep
    obtain rfl := Option.some.inj hstep.2
    exact ⟨rfl, rfl, rfl, rfl, rfl, rfl, rfl, h, .inl⟩

theorem outboundStep_untouched (h : s.transport.Orderly) {a : OutboundAction}
    (hstep : s.outboundStep a = some t) : Untouched s t := by
  cases a with
  | read _ | readEnds =>
    simp only [State.outboundStep, Option.ite_none_right_eq_some] at hstep
    obtain rfl := Option.some.inj hstep.2
    exact ⟨rfl, rfl, rfl, rfl, rfl, rfl, rfl, h, .inl⟩
  | write =>
    simp only [State.outboundStep, Option.ite_none_right_eq_some] at hstep
    obtain ⟨-, hstep⟩ := hstep
    split_ifs at hstep
    · obtain rfl := Option.some.inj hstep
      exact ⟨rfl, rfl, rfl, rfl, rfl, rfl, rfl, h, .inl⟩
    · split at hstep <;> obtain rfl := Option.some.inj hstep
      · rename_i u hu
        exact ⟨rfl, rfl, rfl, rfl, Transport.enqueue_control hu, rfl, rfl, h.enqueue hu, .inl⟩
      · rw [h.closedError_eq]
        exact ⟨rfl, rfl, rfl, rfl, rfl, rfl, rfl, h, .inl⟩

variable [DecidableEq ι]

/-- The steps of the monitor, the dispatcher and the pumps, and those that send. -/
theorem step_untouched {a : Action ι} (h : s.transport.Orderly) (halive : Alive keepalive s a)
    (hstep : step keepalive encode decode s a = some t) :
    Untouched s t ∨ (∃ b, a = .socket b) ∨ (∃ b, a = .reader b) ∨ (∃ i b, a = .call i b) ∨
      (∃ b, a = .run b) ∨ a = .failPending := by
  cases a with
  | socket b => exact .inr (.inl ⟨b, rfl⟩)
  | reader b => exact .inr (.inr (.inl ⟨b, rfl⟩))
  | call i b => exact .inr (.inr (.inr (.inl ⟨i, b, rfl⟩)))
  | run b => exact .inr (.inr (.inr (.inr (.inl ⟨b, rfl⟩))))
  | failPending => exact .inr (.inr (.inr (.inr (.inr rfl))))
  | monitor b =>
    obtain ⟨u, hu, rfl⟩ := Option.map_eq_some_iff.mp hstep
    obtain ⟨horderly, hcontrol⟩ := Transport.monitorStep_orderly h (by rintro rfl; exact halive) hu
    exact .inl (.of_transport horderly hcontrol)
  | dispatcher b => exact .inl (dispatcherStep_untouched h hstep)
  | inbound b => exact .inl (inboundStep_untouched h hstep)
  | outbound b => exact .inl (outboundStep_untouched h hstep)
  | send =>
    obtain ⟨u, hu, rfl⟩ := Option.map_eq_some_iff.mp hstep
    exact .inl (.of_transport (h.enqueue hu) (Transport.enqueue_control hu))
  | bindAudio =>
    simp only [step, Option.ite_none_right_eq_some] at hstep
    obtain rfl := Option.some.inj hstep.2
    exact .inl ⟨rfl, rfl, rfl, rfl, rfl, rfl, rfl, h, .inl⟩
  | closeTransport =>
    simp only [step, Option.ite_none_right_eq_some] at hstep
    obtain rfl := Option.some.inj hstep.2
    exact .inl (.of_transport h.close Transport.close_control)

/-! ## The steps of `run` -/

/-- What a step of `run` does to the other components. -/
theorem runStep_cases {a : Run.Action} (hstep : step keepalive encode decode s (.run a) = some t) :
    s.Offers a ∧ ∃ run, Run.step keepalive s.run a = some run ∧
      ((a = .connect (.ok ()) ∧ t = (s.setRun run).spawn keepalive) ∨ t = s.setRun run ∨
        t = { s.setRun run with
          transport := { s.transport with media := s.transport.media.close .orderly } } ∨
        (run.pc = .returned ∧ t = (s.setRun run).failPending)) := by
  simp only [step, Option.ite_none_right_eq_some] at hstep
  obtain ⟨hoffers, hstep⟩ := hstep
  obtain ⟨run, hrun, rfl⟩ := Option.map_eq_some_iff.mp hstep
  refine ⟨hoffers, run, hrun, ?_⟩
  unfold State.afterRun
  split
  · exact .inl ⟨rfl, rfl⟩
  · split_ifs
    · exact .inr (.inl rfl)
    · exact .inr (.inr (.inl rfl))
  · split_ifs with hreturned
    · exact .inr (.inr (.inr ⟨hreturned.1, rfl⟩))
    · exact .inr (.inl rfl)

/-- What a step of a request does. -/
theorem callStep_cases {i : ι} {a : Pending.CallAction} (hstep : s.callStep encode i a = some t) :
    ∃ shared call, Pending.act encode i s.calls.shared (s.calls.locals i) a = some (shared, call) ∧
      (t = { s with calls := ⟨shared, Function.update s.calls.locals i call⟩ } ∨
        ∃ u, s.transport.enqueue .text = some u ∧
          t = { s with calls := ⟨shared, Function.update s.calls.locals i call⟩, transport := u }) := by
  obtain ⟨calls, hcalls, hrest⟩ := Option.bind_eq_some_iff.mp hstep
  obtain ⟨⟨shared, call⟩, hact, rfl⟩ := Option.map_eq_some_iff.mp hcalls
  refine ⟨shared, call, hact, ?_⟩
  split at hrest
  · obtain ⟨u, hu, rfl⟩ := Option.map_eq_some_iff.mp hrest
    exact .inr ⟨u, hu, rfl⟩
  · obtain rfl := Option.some.inj hrest
    exact .inl rfl

/-- `fail_pending` concerns the requests alone. -/
theorem failPending_cases :
    s.failPending = { s with swept := true } ∨
    ∃ shared, Pending.env s.calls.shared .failPending = some shared ∧
      s.failPending = { s with calls := { s.calls with shared }, swept := true } := by
  unfold State.failPending
  cases henv : Pending.env s.calls.shared .failPending with
  | none => exact .inl rfl
  | some shared => exact .inr ⟨shared, rfl, rfl⟩

omit [DecidableEq ι] in
/-- The reader has returned what `run` takes from it. -/
theorem reader_of_offers {result : Run.Joined} (hoffers : s.Offers (.readerReturns result)) :
    ∃ r, s.reader = .ended r ∧ result = joined r := by
  simp only [State.Offers] at hoffers
  split at hoffers
  · rename_i r hreader
    exact ⟨r, hreader, hoffers⟩
  · exact hoffers.elim

omit [DecidableEq ι] in
/-- Under the conditions of an orderly close, a step of `run` brings no failure. -/
theorem harmless {a : Run.Action}
    (hended : ∀ result, s.reader = .ended result → result = .ok () ∨ result = .error .closed)
    (hoffers : s.Offers a)
    (hfailure : NoFailure keepalive (.run a : Action ι)) (hmonitor : MonitorIgnored (.run a : Action ι)) :
    Run.Harmless keepalive a := by
  cases a with
  | readerReturns result =>
    obtain ⟨r, hreader, rfl⟩ := reader_of_offers hoffers
    rcases hended r hreader with rfl | rfl
    · exact .inl rfl
    · exact .inr rfl
  | mediaCloses error => exact hoffers.2
  | run | requestFailure _ | connect _ | beginReturns _ | transportCloses _ => exact hfailure
  | keepaliveReturns _ => exact hmonitor
  | close | requestClose | notifyWaiters | park | wake | test => trivial

/-! ## Nothing fails -/

/-- What holds as long as nothing fails. -/
structure Calm (s : State ι) : Prop where
  orderly : s.transport.Orderly
  run : Run.Clean s.run
  ended : ∀ result, s.reader = .ended result → result = .ok () ∨ result = .error .closed

namespace Calm

omit [DecidableEq ι] in
theorem initial : Calm (initial : State ι) := ⟨.initial, .initial, nofun⟩

omit [DecidableEq ι] in
/-- A reader that has returned with the end of its inbox. -/
theorem ofEnded (h : Calm s) {u : State ι} {terminal : Terminal} (htransport : u.transport = s.transport)
    (hrun : u.run = s.run) (hreader : u.reader = .ended (.error terminal.error))
    (hcontrol : s.transport.control = ⟨[], some terminal⟩) : Calm u := by
  have hterminal : terminal = .orderly := h.orderly.control terminal (by rw [hcontrol])
  subst hterminal
  refine ⟨by rw [htransport]; exact h.orderly, by rw [hrun]; exact h.run, fun result hr => ?_⟩
  rw [hreader] at hr
  obtain rfl := ReaderPc.ended.inj hr
  exact .inr rfl

omit [DecidableEq ι] in
/-- The reader, `run` and the transport are as they were. -/
theorem of_eq (h : Calm s) (horderly : t.transport.Orderly) (hrun : t.run = s.run)
    (hreader : t.reader = s.reader) : Calm t :=
  ⟨horderly, by rw [hrun]; exact h.run, by rw [hreader]; exact h.ended⟩

omit [DecidableEq ι] in
theorem handleText (h : Calm s) (data : Bytes) : Calm (s.handleText decode data) := by
  have hgo : ∀ {u : State ι}, u.transport = s.transport → u.run = s.run →
      (∀ result, u.reader = .ended result → result = .ok ()) → Calm u := by
    intro u htransport hrun hreader
    exact ⟨by rw [htransport]; exact h.orderly, by rw [hrun]; exact h.run,
      fun result hr => .inl (hreader result hr)⟩
  unfold State.handleText
  dsimp only
  split
  · exact hgo rfl rfl nofun
  · split_ifs
    · split
      · exact hgo rfl rfl nofun
      · exact hgo rfl rfl nofun
    · split
      · refine hgo rfl rfl fun result hr => ?_
        exact (ReaderPc.ended.inj hr).symm
      · exact hgo rfl rfl nofun

theorem readerStep (h : Calm s) {a : ReaderAction} (hstep : s.readerStep decode a = some t) : Calm t := by
  cases a with
  | recv =>
    simp only [State.readerStep] at hstep
    split at hstep <;> simp only [reduceCtorEq, Option.some.injEq] at hstep
    subst hstep
    exact ⟨h.orderly.of_eq rfl rfl rfl, h.run, nofun⟩
  | recvEnds =>
    simp only [State.readerStep] at hstep
    split at hstep <;> simp only [reduceCtorEq, Option.some.injEq] at hstep
    rename_i hcontrol
    subst hstep
    exact h.ofEnded rfl rfl rfl hcontrol
  | handle =>
    simp only [State.readerStep] at hstep
    split at hstep <;> simp only [reduceCtorEq, Option.some.injEq] at hstep
    subst hstep
    exact h.handleText _
  | deliver =>
    simp only [State.readerStep] at hstep
    split at hstep
    · obtain ⟨shared, -, rfl⟩ := Option.map_eq_some_iff.mp hstep
      exact ⟨h.orderly, h.run, nofun⟩
    · cases hstep

theorem step {a : Action ι} (h : Calm s) (hclose : OrderlyClose keepalive s a) (hmonitor : MonitorIgnored a)
    (hstep : step keepalive encode decode s a = some t) : Calm t := by
  obtain ⟨hsocket, halive, hfailure⟩ := hclose
  rcases step_untouched h.orderly halive hstep with
    hu | ⟨b, rfl⟩ | ⟨b, rfl⟩ | ⟨i, b, rfl⟩ | ⟨b, rfl⟩ | rfl
  · exact h.of_eq hu.orderly hu.run hu.reader
  · obtain ⟨u, hu, rfl⟩ := Option.map_eq_some_iff.mp hstep
    have horderly : u.Orderly :=
      h.orderly.step (by rintro error rfl; exact hsocket) (by rintro message rfl; exact hsocket) hu
    cases b <;> exact h.of_eq horderly rfl rfl
  · exact h.readerStep hstep
  · obtain ⟨shared, call, -, rfl | ⟨u, hu, rfl⟩⟩ := callStep_cases hstep
    · exact h.of_eq h.orderly rfl rfl
    · exact h.of_eq (h.orderly.enqueue hu) rfl rfl
  · obtain ⟨hoffers, run, hrun, hcases⟩ := runStep_cases hstep
    have hclean := h.run.step (harmless h.ended hoffers hfailure hmonitor) hrun
    rcases hcases with ⟨-, rfl⟩ | rfl | rfl | ⟨-, rfl⟩
    · exact ⟨h.orderly.of_eq rfl rfl rfl, hclean, nofun⟩
    · exact ⟨h.orderly, hclean, h.ended⟩
    · exact ⟨h.orderly.closeMedia rfl, hclean, h.ended⟩
    · exact ⟨h.orderly, hclean, h.ended⟩
  · simp only [Workers.step, Option.ite_none_right_eq_some] at hstep
    obtain rfl := Option.some.inj hstep.2
    exact h.of_eq h.orderly rfl rfl

end Calm

/-- An orderly close ends the session without an error, if the `select!` ignores the monitor. -/
theorem closedCleanly_of_orderlyClose
    (h : (machine keepalive encode decode).ReachableWhere
      (fun s a => OrderlyClose keepalive s a ∧ MonitorIgnored a) s) : ClosedCleanly s := by
  have hcalm : Calm s := by
    refine h.invariant (I := Calm) ?_ ?_
    · rintro _ rfl
      exact Calm.initial
    · rintro s a t hcalm ⟨hclose, hmonitor⟩ hstep
      exact hcalm.step hclose hmonitor hstep
  exact fun hreturned => ⟨hcalm.run.returned hreturned, hcalm.run.finalError⟩

end Rtvbp.Rust.Workers
