import Rtvbp.Go.Proofs.SessionProofs

/-!
# The session drains its inbox before it shuts down

Without a local stop the control reader is the first to stop the session, as the audio pumps do not. It
does so when its inbox is closed and empty. Until then the supervisor is quiet, and from then on every
message that the read pump delivered is handled.
-/

namespace Rtvbp.Go.Session

open Rtvbp.Lib Rtvbp.Go.WebSocket Rtvbp.Go.Supervise

variable {ι ρ φ ε : Type} {config : Config} {decode : Bytes → Option (Frame ι ρ φ)}
  {s t : State ι ρ φ ε}

/-! ## The messages on their way -/

/-- The messages of the read pump on their way to their requests. -/
structure Flow (decode : Bytes → Option (Frame ι ρ φ)) (s : State ι ρ φ ε) : Prop where
  fifo : s.delivered.map Prod.fst =
    s.handled.map Prod.fst ++ s.reader.held ++ s.transport.control.items
  registered : ∀ text id response, (text, true) ∈ s.delivered →
    decode text = some (.response id response) → (s.calls.calls id).pc.hasRegistered = true
  completed : ∀ text id response, (text, true) ∈ s.handled →
    decode text = some (.response id response) →
      (s.calls.calls id).Settled ∧ (s.calls.calls id).completions = [.response response]
  /-- A request that was pending when its response was delivered is settled when that is handled. -/
  settled : ∀ text id response, (text, true) ∈ s.delivered.take s.handled.length →
    decode text = some (.response id response) →
      (s.calls.calls id).Settled ∧ ¬ (s.calls.calls id).FailedByShutdown
  unswept : s.calls.swept = false → ∀ id, ¬ (s.calls.calls id).FailedByShutdown

namespace Flow

theorem initial : Flow decode (initial : State ι ρ φ ε) where
  fifo := rfl
  registered := nofun
  completed := nofun
  settled := nofun
  unswept := fun _ _ h => by
    obtain ⟨cause, hcause⟩ := h
    cases hcause

/-- Later states of the calls, while the messages stay where they are. -/
theorem later (h : Flow decode s) (hdelivered : t.delivered = s.delivered) (hhandled : t.handled = s.handled)
    (hinbox : t.reader.held ++ t.transport.control.items = s.reader.held ++ s.transport.control.items)
    (hlater : ∀ id, (s.calls.calls id).Later (t.calls.calls id))
    (hunswept : t.calls.swept = false → ∀ id, ¬ (t.calls.calls id).FailedByShutdown) : Flow decode t := by
  refine ⟨?_, ?_, ?_, ?_, hunswept⟩
  · rw [hdelivered, hhandled, List.append_assoc, hinbox, ← List.append_assoc]
    exact h.fifo
  · intro text id response hmem hdecode
    rw [hdelivered] at hmem
    exact (hlater id).registered (h.registered text id response hmem hdecode)
  · intro text id response hmem hdecode
    rw [hhandled] at hmem
    obtain ⟨hsettled, hcompletions⟩ := h.completed text id response hmem hdecode
    obtain ⟨hsettled', hsame⟩ := (hlater id).settled hsettled
    exact ⟨hsettled', hsame.trans hcompletions⟩
  · intro text id response hmem hdecode
    rw [hdelivered, hhandled] at hmem
    obtain ⟨hsettled, hfailed⟩ := h.settled text id response hmem hdecode
    obtain ⟨hsettled', hsame⟩ := (hlater id).settled hsettled
    refine ⟨hsettled', fun hf => hfailed ?_⟩
    unfold Pending.Call.FailedByShutdown at hf ⊢
    rwa [hsame] at hf

/-- The calls and the messages stay as they are. -/
theorem of_same (h : Flow decode s) (hdelivered : t.delivered = s.delivered)
    (hhandled : t.handled = s.handled)
    (hinbox : t.reader.held ++ t.transport.control.items = s.reader.held ++ s.transport.control.items)
    (hcalls : t.calls.calls = s.calls.calls) (hswept : t.calls.swept = s.calls.swept) : Flow decode t := by
  refine h.later hdelivered hhandled hinbox (fun id => ?_) fun hs id => ?_
  · rw [hcalls]
    exact .refl _
  · rw [hcalls]
    exact h.unswept (hswept.symm.trans hs) id

/-- A text is an answer only if it is a response to a pending request. -/
theorem pending_of_answers {text : Bytes} {id : ι} {response : ρ}
    (hanswers : s.answers decode text = true) (hdecode : decode text = some (.response id response)) :
    (s.calls.calls id).pending = true := by
  simpa [State.answers, hdecode] using hanswers

/-- The read pump delivers a message. -/
theorem deliver (h : Flow decode s) (hcalls : Pending.Inv s.calls) (text : Bytes) {u : Transport ε}
    (hu : u.control = s.transport.control.push text) :
    Flow decode { s with transport := u, delivered := s.deliver decode text } := by
  by_cases hclosed : s.transport.control.closed.isSome
  · refine h.of_same ?_ rfl ?_ rfl rfl
    · simp [State.deliver, hclosed]
    · simp [hu, Mailbox.push_eq_of_closed hclosed]
  · have hdeliver : s.deliver decode text = s.delivered ++ [(text, s.answers decode text)] := by
      simp [State.deliver, hclosed]
    have hpush : u.control.items = s.transport.control.items ++ [text] := by
      rw [hu, Mailbox.push_items_of_open hclosed]
    have hlength : s.handled.length ≤ s.delivered.length := by
      have := congrArg List.length h.fifo
      simp only [List.length_append, List.length_map] at this
      omega
    refine ⟨?_, ?_, h.completed, ?_, h.unswept⟩
    · simp only [hdeliver, hpush, List.map_append, List.map_cons, List.map_nil, h.fifo, List.append_assoc]
    · intro text' id response hmem hdecode
      simp only [hdeliver, List.mem_append, List.mem_singleton, Prod.mk.injEq] at hmem
      rcases hmem with hmem | ⟨rfl, hanswers⟩
      · exact h.registered text' id response hmem hdecode
      · have hpending := pending_of_answers hanswers.symm hdecode
        by_contra hne
        simp [((hcalls.calls id).unregistered (by simpa using hne)).1] at hpending
    · intro text' id response hmem hdecode
      rw [hdeliver, List.take_append_of_le_length hlength] at hmem
      exact h.settled text' id response hmem hdecode

/-- The message that the reader holds is the next one that was delivered. -/
theorem next (h : Flow decode s) {text : Bytes} (hreader : s.reader = .holding text) :
    ∃ pending, s.delivered.take (s.handled.length + 1) =
      s.delivered.take s.handled.length ++ [(text, pending)] := by
  have hget : (s.delivered.map Prod.fst)[s.handled.length]? = some text := by
    rw [h.fifo, hreader]
    simp [ReaderPc.held]
  rw [List.getElem?_map] at hget
  obtain ⟨entry, hentry, rfl⟩ := Option.map_eq_some_iff.mp hget
  refine ⟨entry.2, ?_⟩
  rw [List.take_add_one, hentry]
  rfl

/-- The reader is done with the message that it holds. -/
theorem handle (h : Flow decode s) (hcalls : Pending.Inv s.calls) {text : Bytes}
    (hreader : s.reader = .holding text) (hdelivered : t.delivered = s.delivered)
    (hhandled : t.handled = s.handled ++ [(text, s.answers decode text)]) (hheld : t.reader.held = [])
    (hcontrol : t.transport.control = s.transport.control)
    (hlater : ∀ id, (s.calls.calls id).Later (t.calls.calls id))
    (hresponse : ∀ id response, decode text = some (.response id response) →
      t.calls.calls id = (s.calls.calls id).complete (.response response))
    (hunswept : ∀ id, ¬ (t.calls.calls id).FailedByShutdown) : Flow decode t := by
  refine ⟨?_, ?_, ?_, ?_, fun _ => hunswept⟩
  · rw [hdelivered, hhandled, hheld, hcontrol, h.fifo, hreader]
    simp [ReaderPc.held]
  · intro text' id response hmem hdecode
    rw [hdelivered] at hmem
    exact (hlater id).registered (h.registered text' id response hmem hdecode)
  · intro text' id response hmem hdecode
    rw [hhandled, List.mem_append, List.mem_singleton, Prod.mk.injEq] at hmem
    rcases hmem with hmem | ⟨rfl, hanswers⟩
    · obtain ⟨hsettled, hcompletions⟩ := h.completed text' id response hmem hdecode
      obtain ⟨hsettled', hsame⟩ := (hlater id).settled hsettled
      exact ⟨hsettled', hsame.trans hcompletions⟩
    · have hpending := pending_of_answers hanswers.symm hdecode
      have hcall := hcalls.calls id
      have hreg : (s.calls.calls id).pc.hasRegistered = true := by
        by_contra hne
        simp [(hcall.unregistered (by simpa using hne)).1] at hpending
      have hempty := (hcall.pending hpending).1
      rw [hresponse id response hdecode]
      simp [Pending.Call.complete, hpending, hempty, Pending.Call.Settled, hreg]
  · intro text' id response hmem hdecode
    obtain ⟨pending, hnext⟩ := h.next hreader
    rw [hdelivered, hhandled, List.length_append, List.length_singleton, hnext, List.mem_append,
      List.mem_singleton, Prod.mk.injEq] at hmem
    refine ⟨?_, hunswept id⟩
    rcases hmem with hmem | ⟨rfl, hpending⟩
    · obtain ⟨hsettled, -⟩ := h.settled text' id response hmem hdecode
      exact ((hlater id).settled hsettled).1
    · have hdeliv : (text', true) ∈ s.delivered := by
        refine List.mem_of_mem_take (i := s.handled.length + 1) ?_
        rw [hnext, ← hpending]
        simp
      have hreg := (hlater id).registered (h.registered text' id response hdeliv hdecode)
      refine ⟨hreg, ?_⟩
      rw [hresponse id response hdecode]
      unfold Pending.Call.complete
      split_ifs with hp
      · rfl
      · simpa using hp

end Flow

/-! ## Who stops the session -/

/-- The reader has not reported anything, and if it has stopped, its inbox is closed and empty. -/
def State.Reading (s : State ι ρ φ ε) : Prop :=
  s.reader ≠ .returned ∧ ∀ err, s.reader = .ended err → s.transport.control = ⟨[], some err⟩

/-- The reader has reported the end of its inbox. -/
structure State.Ended (s : State ι ρ φ ε) : Prop where
  reader : s.reader = .returned
  control : s.transport.control = ⟨[], some .eof⟩
  accepted : s.sup.Accepted

/-- What holds in every state of a run in which nobody stops the session locally: it is quiet, or ends for
want of a transport, or the reader has stopped it. -/
structure Drain (decode : Bytes → Option (Frame ι ρ φ)) (s : State ι ρ φ ε) : Prop where
  base : Base s
  flow : Flow decode s
  off : s.sup.transport = false → s.reader = .off
  phase : (s.sup.Quiet ∧ s.Reading) ∨ s.sup.Aborted ∨ s.Ended

/-- The step is none of the supervisor, of a request, of the reader or of the control inbox. -/
structure Untouched (s t : State ι ρ φ ε) : Prop where
  sup : t.sup = s.sup
  calls : t.calls = s.calls
  reader : t.reader = s.reader
  control : t.transport.control = s.transport.control
  delivered : t.delivered = s.delivered
  handled : t.handled = s.handled

theorem dispatcherStep_untouched {a : DispatcherAction} (hstep : s.dispatcherStep a = some t) :
    Untouched s t ∧ t.transport.monitor = s.transport.monitor := by
  cases a with
  | pop =>
    simp only [State.dispatcherStep] at hstep
    split at hstep <;> simp only [reduceCtorEq, Option.some.injEq] at hstep
    subst hstep
    exact ⟨⟨rfl, rfl, rfl, rfl, rfl, rfl⟩, rfl⟩
  | popEnds | handled =>
    simp only [State.dispatcherStep, Option.ite_none_right_eq_some] at hstep
    obtain rfl := Option.some.inj hstep.2
    exact ⟨⟨rfl, rfl, rfl, rfl, rfl, rfl⟩, rfl⟩

/-- The audio pumps do not stop the session. -/
theorem inboundStep_untouched (h : Base s) {a : InboundAction ε} (hstep : s.inboundStep a = some t) :
    Untouched s t ∧ t.transport.monitor = s.transport.monitor := by
  cases a with
  | read | readEnds =>
    simp only [State.inboundStep] at hstep
    split at hstep <;> simp only [reduceCtorEq, Option.some.injEq] at hstep
    subst hstep
    exact ⟨⟨rfl, rfl, rfl, rfl, rfl, rfl⟩, rfl⟩
  | buffer n =>
    simp only [State.inboundStep] at hstep
    split at hstep <;> simp only [reduceCtorEq, Option.ite_none_right_eq_some] at hstep
    obtain rfl := Option.some.inj hstep.2
    exact ⟨⟨rfl, rfl, rfl, rfl, rfl, rfl⟩, rfl⟩
  | bufferFails err =>
    simp only [State.inboundStep, Option.ite_none_right_eq_some] at hstep
    obtain rfl := Option.some.inj hstep.2
    exact ⟨⟨rfl, rfl, rfl, rfl, rfl, rfl⟩, rfl⟩
  | report =>
    simp only [State.inboundStep] at hstep
    split at hstep <;> simp only [reduceCtorEq, Option.some.injEq] at hstep
    rename_i operation err hfailed
    rw [Base.handleAudioPumpError_eq (h.inbound operation err hfailed)] at hstep
    subst hstep
    exact ⟨⟨rfl, rfl, rfl, rfl, rfl, rfl⟩, rfl⟩

theorem outboundStep_untouched (h : Base s) {a : OutboundAction ε} (hstep : s.outboundStep a = some t) :
    Untouched s t ∧ t.transport.monitor = s.transport.monitor := by
  cases a with
  | read _ | readFails _ =>
    simp only [State.outboundStep, Option.ite_none_right_eq_some] at hstep
    obtain rfl := Option.some.inj hstep.2
    exact ⟨⟨rfl, rfl, rfl, rfl, rfl, rfl⟩, rfl⟩
  | write =>
    simp only [State.outboundStep, Option.ite_none_right_eq_some] at hstep
    obtain ⟨-, hstep⟩ := hstep
    split_ifs at hstep
    · obtain rfl := Option.some.inj hstep
      exact ⟨⟨rfl, rfl, rfl, rfl, rfl, rfl⟩, rfl⟩
    · split at hstep <;> obtain rfl := Option.some.inj hstep
      · rename_i u hu
        exact ⟨⟨rfl, rfl, rfl, Transport.enqueue_control hu, rfl, rfl⟩, Transport.enqueue_monitor hu⟩
      · exact ⟨⟨rfl, rfl, rfl, rfl, rfl, rfl⟩, rfl⟩
  | report =>
    simp only [State.outboundStep] at hstep
    split at hstep <;> simp only [reduceCtorEq, Option.some.injEq] at hstep
    rename_i operation err hfailed
    rw [Base.handleAudioPumpError_eq (h.outbound operation err hfailed)] at hstep
    subst hstep
    exact ⟨⟨rfl, rfl, rfl, rfl, rfl, rfl⟩, rfl⟩

theorem State.Reading.of_eq (h : s.Reading) (hreader : t.reader = s.reader)
    (hcontrol : t.transport.control = s.transport.control) : t.Reading := by
  unfold State.Reading
  rw [hreader, hcontrol]
  exact h

theorem State.Ended.of_eq (h : s.Ended) (hreader : t.reader = s.reader)
    (hcontrol : t.transport.control = s.transport.control) (haccepted : t.sup.Accepted) : t.Ended :=
  ⟨hreader.trans h.reader, hcontrol.trans h.control, haccepted⟩

namespace Drain

theorem initial : Drain decode (initial : State ι ρ φ ε) where
  base := Base.initial
  flow := Flow.initial
  off := fun _ => rfl
  phase := .inl ⟨quiet_initial, nofun, nofun⟩

/-- The phases depend on the supervisor, the reader and the control inbox. -/
theorem phase_of_eq (h : Drain decode s) (hsup : t.sup = s.sup) (hreader : t.reader = s.reader)
    (hcontrol : t.transport.control = s.transport.control) :
    (t.sup.Quiet ∧ t.Reading) ∨ t.sup.Aborted ∨ t.Ended := by
  rw [hsup]
  refine h.phase.imp ?_ (Or.imp_right fun hended => ?_)
  · rintro ⟨hquiet, hreading⟩
    exact ⟨hquiet, hreading.of_eq hreader hcontrol⟩
  · exact hended.of_eq hreader hcontrol (by rw [hsup]; exact hended.accepted)

theorem untouched (h : Drain decode s) (hbase : Base t) (hu : Untouched s t) : Drain decode t := by
  refine ⟨hbase, ?_, ?_, h.phase_of_eq hu.sup hu.reader hu.control⟩
  · exact h.flow.of_same hu.delivered hu.handled (by rw [hu.reader, hu.control]) (by rw [hu.calls])
      (by rw [hu.calls])
  · rw [hu.sup, hu.reader]
    exact h.off

/-- While a session that has a transport is not shutting down, nobody has stopped it. -/
theorem quiet (h : Drain decode s) (hreader : s.reader ≠ .off) (hreturned : s.reader ≠ .returned) :
    s.sup.Quiet ∧ s.Reading := by
  rcases h.phase with hquiet | habort | hended
  · exact hquiet
  · exact absurd (h.off habort.2) hreader
  · exact absurd hended.reader hreturned

/-- A quiet session has not begun its shutdown. -/
theorem open_of_quiet (h : Drain decode s) (hq : s.sup.Quiet) : s.shutdown = .open :=
  h.base.opened.mp (hq.stopCommit h.base.sup)

theorem unswept_of_quiet (h : Drain decode s) (hq : s.sup.Quiet) : s.calls.swept = false := by
  by_contra hne
  have hshutdown := h.base.calls.swept (by simpa using hne)
  rw [h.base.begun, hq.stopCommit h.base.sup] at hshutdown
  cases hshutdown

/-- Once the shutdown has begun, a session that has a transport is stopped by its reader. -/
theorem ended (h : Drain decode s) (htransport : s.sup.transport = true)
    (hcommit : s.sup.stopCommit = true) : s.Ended := by
  rcases h.phase with ⟨hquiet, -⟩ | habort | hended
  · simp [hquiet.stopCommit h.base.sup] at hcommit
  · simp [habort.2] at htransport
  · exact hended

/-- A run in which the reader is the first to stop the session drains the inbox. -/
theorem drained (h : Drain decode s) (htransport : s.sup.transport = true) : Drained decode s := by
  have hall : s.Ended → s.handled.map Prod.fst = s.delivered.map Prod.fst := by
    intro hended
    have hfifo := h.flow.fifo
    rw [hended.reader, hended.control] at hfifo
    simpa [ReaderPc.held] using hfifo.symm
  have hswept : s.calls.swept = true → s.Ended := by
    intro hswept
    refine h.ended htransport ?_
    rw [← h.base.begun]
    exact h.base.calls.swept hswept
  refine ⟨?_, ?_, ?_, ?_⟩
  · intro hshutdown
    exact hall (h.ended htransport (h.base.begun.symm.trans hshutdown))
  · intro text id response hmem hdecode
    exact (h.flow.completed text id response hmem hdecode).2
  · intro text id response cause hmem hdecode hcause
    cases hs : s.calls.swept with
    | false => exact h.flow.unswept hs id ⟨cause, hcause⟩
    | true =>
      have hlength := congrArg List.length (hall (hswept hs))
      simp only [List.length_map] at hlength
      have hmem' : (text, true) ∈ s.delivered.take s.handled.length := by
        rw [hlength, List.take_length]
        exact hmem
      exact (h.flow.settled text id response hmem' hdecode).2 ⟨cause, hcause⟩
  · intro id cause hcause
    cases hs : s.calls.swept with
    | false => exact absurd ⟨cause, hcause⟩ (h.flow.unswept hs id)
    | true => exact ⟨(hswept hs).reader, (hswept hs).control⟩

/-- The socket pushes into the control inbox or closes it, and never an inbox that is closed. -/
theorem socket [DecidableEq ι] [DecidableEq ε] (h : Drain decode s) {a : SocketAction ε}
    (hbase : Base t) (hstep : Session.step config decode s (.socket a) = some t) : Drain decode t := by
  obtain ⟨u, hu, ht⟩ := Option.map_eq_some_iff.mp hstep
  have hclosed : s.transport.control.closed.isSome → u.control = s.transport.control := by
    intro hclosed
    rcases Transport.step_control hu with ⟨text, -, hpush⟩ | ⟨-, hsame | ⟨err, hclose⟩⟩
    · rw [hpush, Mailbox.push_eq_of_closed hclosed]
    · exact hsame
    · rw [hclose, Mailbox.close_eq_of_closed hclosed]
  have hphase : ∀ v : State ι ρ φ ε, v.sup = s.sup → v.reader = s.reader → v.transport = u →
      (v.sup.Quiet ∧ v.Reading) ∨ v.sup.Aborted ∨ v.Ended := by
    intro v hsup hreader htransport
    rw [hsup]
    refine h.phase.imp ?_ (Or.imp_right fun hended => ?_)
    · rintro ⟨hquiet, hne, hend⟩
      refine ⟨hquiet, by rwa [hreader], fun err he => ?_⟩
      have hcontrol := hend err (hreader.symm.trans he)
      rw [htransport, hclosed (by simp [hcontrol]), hcontrol]
    · refine hended.of_eq hreader ?_ (by rw [hsup]; exact hended.accepted)
      rw [htransport, hclosed (by simp [hended.control])]
  rcases Transport.step_control hu with ⟨text, rfl, hpush⟩ | ⟨hne, hcontrol⟩
  · subst ht
    exact ⟨hbase, h.flow.deliver h.base.calls text hpush, h.off, hphase _ rfl rfl rfl⟩
  · have hitems : u.control.items = s.transport.control.items := by
      rcases hcontrol with hsame | ⟨err, hclose⟩
      · rw [hsame]
      · rw [hclose, Mailbox.close_items]
    have hflow : Flow decode { s with transport := u } :=
      h.flow.of_same rfl rfl (by rw [hitems]) rfl rfl
    cases a with
    | text data => exact absurd rfl (hne data)
    | newTransport | binary _ | readFails _ | pop | popEnds | writes _ | writeFinished | finish =>
      subst ht
      exact ⟨hbase, hflow, h.off, hphase _ rfl rfl rfl⟩

variable [DecidableEq ι]

/-- The reader handles the message that it holds. -/
theorem handleText (h : Drain decode s) {text : Bytes} (hreader : s.reader = .holding text)
    (hbase : Base (s.handleText decode text)) : Drain decode (s.handleText decode text) := by
  obtain ⟨hquiet, -⟩ := h.quiet (by simp [hreader]) (by simp [hreader])
  have hunswept := h.flow.unswept (h.unswept_of_quiet hquiet)
  have hon : s.sup.transport ≠ false := fun hoff => by simp [h.off hoff] at hreader
  have hdispatch : ¬ s.dispatch.closed = true := fun hclosed => by
    have hcanceled := h.base.dispatch hclosed
    simp [h.open_of_quiet hquiet, ShutdownPc.isCanceled] at hcanceled
  cases hdecode : decode text with
  | none =>
    have heq : s.handleText decode text =
        { s with reader := .receiving, handled := s.handled ++ [(text, s.answers decode text)] } := by
      simp [State.handleText, hdecode]
    rw [heq] at hbase ⊢
    refine ⟨hbase, ?_, fun hoff => absurd hoff hon, .inl ⟨hquiet, by simp, by simp⟩⟩
    exact h.flow.handle h.base.calls hreader rfl rfl rfl rfl (fun _ => .refl _)
      (fun id response hd => by simp [hdecode] at hd) hunswept
  | some frame =>
    cases frame with
    | response id response =>
      have hstep : Pending.step [.given .sessionClosed] s.calls (.response id response) =
          some (s.calls.setCall id ((s.calls.calls id).complete (.response response))) := rfl
      have heq : s.handleText decode text = { s with
          calls := s.calls.setCall id ((s.calls.calls id).complete (.response response))
          reader := .receiving
          handled := s.handled ++ [(text, s.answers decode text)] } := by
        simp [State.handleText, hdecode]
      rw [heq] at hbase ⊢
      refine ⟨hbase, ?_, fun hoff => absurd hoff hon, .inl ⟨hquiet, by simp, by simp⟩⟩
      refine h.flow.handle h.base.calls hreader rfl rfl rfl rfl (Pending.later_step hstep) ?_ ?_
      · intro id' response' hd
        obtain ⟨rfl, rfl⟩ := Frame.response.inj (Option.some.inj (hdecode.symm.trans hd))
        simp [Pending.State.setCall]
      · intro id' hfailed
        exact hunswept id' (Pending.failedByShutdown_step hstep (by simp) id' hfailed)
    | dispatched frame =>
      have heq : s.handleText decode text = { s with
          dispatch := { s.dispatch with frames := s.dispatch.frames ++ [frame] }
          reader := .receiving
          handled := s.handled ++ [(text, s.answers decode text)] } := by
        simp [State.handleText, hdecode, hdispatch]
      rw [heq] at hbase ⊢
      refine ⟨hbase, ?_, fun hoff => absurd hoff hon, .inl ⟨hquiet, by simp, by simp⟩⟩
      exact h.flow.handle h.base.calls hreader rfl rfl rfl rfl (fun _ => .refl _)
        (fun id response hd => by simp [hdecode] at hd) hunswept

/-- The control reader stops the session when its inbox is closed and empty. -/
theorem readerStep (h : Drain decode s) {a : ReaderAction} (hbase : Base t)
    (hstep : s.readerStep decode a = some t) : Drain decode t := by
  cases a with
  | recv =>
    simp only [State.readerStep] at hstep
    split at hstep <;> simp only [reduceCtorEq, Option.some.injEq] at hstep
    rename_i text rest hreader hitems
    obtain ⟨hquiet, -⟩ := h.quiet (by simp [hreader]) (by simp [hreader])
    subst hstep
    refine ⟨hbase, ?_, fun hoff => ?_, .inl ⟨hquiet, by simp, by simp⟩⟩
    · exact h.flow.of_same rfl rfl (by simp [hreader, hitems, ReaderPc.held]) rfl rfl
    · simp [h.off hoff] at hreader
  | recvEnds =>
    simp only [State.readerStep] at hstep
    split at hstep <;> simp only [reduceCtorEq, Option.some.injEq] at hstep
    rename_i err hreader hcontrol
    obtain ⟨hquiet, -⟩ := h.quiet (by simp [hreader]) (by simp [hreader])
    subst hstep
    refine ⟨hbase, ?_, fun hoff => ?_, .inl ⟨hquiet, by simp, fun err' he => ?_⟩⟩
    · exact h.flow.of_same rfl rfl (by simp [hreader, ReaderPc.held]) rfl rfl
    · simp [h.off hoff] at hreader
    · obtain rfl := ReaderPc.ended.inj he
      exact hcontrol
  | recvCanceled =>
    simp only [State.readerStep, Option.ite_none_right_eq_some] at hstep
    obtain ⟨⟨hreader, hcanceled⟩, -⟩ := hstep
    have hreceiving : s.reader = .receiving := by
      cases hr : s.reader <;> simp [hr] at hreader
      rfl
    obtain ⟨hquiet, -⟩ := h.quiet (by simp [hreceiving]) (by simp [hreceiving])
    simp [h.open_of_quiet hquiet, ShutdownPc.isCanceled] at hcanceled
  | handle =>
    simp only [State.readerStep] at hstep
    split at hstep <;> simp only [reduceCtorEq, Option.some.injEq] at hstep
    rename_i text hreader
    subst hstep
    exact h.handleText hreader hbase
  | report =>
    simp only [State.readerStep] at hstep
    split at hstep
    · rename_i err hreader
      obtain ⟨hquiet, hreading⟩ := h.quiet (by simp [hreader]) (by simp [hreader])
      have hcontrol := hreading.2 err hreader
      obtain ⟨rfl, -⟩ := h.base.orderly.control err (by rw [hcontrol])
      have hon : s.sup.transport = true := by
        by_contra hne
        simp [h.off (by simpa using hne)] at hreader
      have haccepted : (s.sup.requestStop (stopFromTransport .eof)).Accepted := by
        refine (hquiet.accepted hon).of_eq ?_ ?_ <;>
          (unfold Supervise.State.requestStop; split_ifs <;> rfl)
      rw [if_neg (by simp [h.open_of_quiet hquiet, ShutdownPc.isCanceled])] at hstep
      obtain rfl := Option.some.inj hstep
      refine ⟨hbase, ?_, fun hoff => ?_, .inr (.inr ⟨rfl, hcontrol, haccepted⟩)⟩
      · exact h.flow.of_same rfl rfl (by simp [State.requestStop, hreader, ReaderPc.held]) rfl rfl
      · exact absurd haccepted.1 (by rw [show (s.sup.requestStop _).transport = false from hoff]; simp)
    · cases hstep

/-- A step of a call leaves the messages alone. -/
theorem callStep (h : Drain decode s) {id : ι} {a : Pending.CallAction (Causes ε)} (hbase : Base t)
    (hstep : s.callStep id a = some t) : Drain decode t := by
  obtain ⟨calls, u, hcalls, hu, rfl⟩ := callStep_cases hstep
  have hcontrol : u.control = s.transport.control := by
    rcases hu with rfl | hu
    · rfl
    · exact Transport.enqueue_control hu
  have hswept : calls.swept = s.calls.swept := by
    obtain ⟨c, -, rfl⟩ := Option.map_eq_some_iff.mp hcalls
    rfl
  refine ⟨hbase, ?_, h.off, h.phase_of_eq rfl rfl hcontrol⟩
  refine h.flow.later rfl rfl (by rw [hcontrol]) (Pending.later_step hcalls) fun hs id' hfailed => ?_
  exact h.flow.unswept (hswept.symm.trans hs) id'
    (Pending.failedByShutdown_step hcalls (by simp) id' hfailed)

omit [DecidableEq ι] in
/-- What the supervisor makes of the phases, while the reader and its inbox stay as they are. -/
theorem phase_step [DecidableEq ε] (h : Drain decode s) {a : Supervise.Action (Err ε)}
    {sup : Supervise.State (Err ε)} (hlocal : NoLocalStop (ι := ι) (.supervisor a))
    (hbegin : BeginSucceeds s (.supervisor a)) (hrequest : a.request = none)
    (hsup : Supervise.step config (· == ·) .canceled s.sup a = some sup)
    (ht : t.sup = sup) (hreader : t.reader = s.reader)
    (hcontrol : t.transport.control = s.transport.control) :
    (t.sup.Quiet ∧ t.Reading) ∨ t.sup.Aborted ∨ t.Ended := by
  subst ht
  rcases h.phase with ⟨hquiet, hreading⟩ | habort | hended
  · have hparent : ∀ err, a ≠ .parentEnds err := by
      rintro err rfl
      exact hlocal
    have hbegin' : a = .beginReceived → s.sup.beginResult = some none := by
      rintro rfl
      exact hbegin
    rcases hquiet.step h.base.sup hrequest hparent hbegin' hsup with hq | ha
    · exact .inl ⟨hq, hreading.of_eq hreader hcontrol⟩
    · exact .inr (.inl ha)
  · exact .inr (.inl (habort.step h.base.sup hsup))
  · exact .inr (.inr (hended.of_eq hreader hcontrol (hended.accepted.step h.base.sup hsup)))

omit [DecidableEq ι] in
/-- After a step of the supervisor that leaves no transport, there was no reader. -/
theorem off_step [DecidableEq ε] (h : Drain decode s) {a : Supervise.Action (Err ε)}
    {sup : Supervise.State (Err ε)} (hsup : Supervise.step config (· == ·) .canceled s.sup a = some sup)
    (hoff : sup.transport = false) : s.reader = .off := by
  refine h.off ?_
  by_contra hne
  have hon : s.sup.transport = true := by simpa using hne
  have haccepted : s.sup.Accepted := by
    rcases h.phase with ⟨hquiet, -⟩ | habort | hended
    · exact hquiet.accepted hon
    · simp [habort.2] at hon
    · exact hended.accepted
  simp [(haccepted.step h.base.sup hsup).1] at hoff

omit [DecidableEq ι] in
/-- A step of the supervisor starts the reader once, and leaves it alone otherwise. -/
theorem supervisorStep [DecidableEq ε] (h : Drain decode s) {a : Supervise.Action (Err ε)} (hbase : Base t)
    (hlocal : NoLocalStop (ι := ι) (.supervisor a)) (hbegin : BeginSucceeds s (.supervisor a))
    (hstep : s.supervisorStep config a = some t) : Drain decode t := by
  obtain ⟨sup, hsup, hcases⟩ := supervisorStep_cases hstep
  rcases hcases with ⟨rfl, htransport, rfl⟩ | ⟨rfl, rfl⟩ | ⟨rfl, rfl⟩ | ⟨-, hrequest, rfl⟩
  · -- the workers start: there was no reader before
    have hcreating : s.sup.pc = .creating := by
      simp only [Supervise.step, Option.ite_none_right_eq_some] at hsup
      exact hsup.1
    have hquiet : s.sup.Quiet := by
      rcases h.phase with ⟨hquiet, -⟩ | ⟨hleft, -⟩ | ⟨-, -, -, hpc | hpc | hpc⟩
      · exact hquiet
      · simp [hcreating, Pc.leftSelects] at hleft
      all_goals simp [hcreating, Pc.leftSelects] at hpc
    have hreader : s.reader = .off := by
      refine h.off ?_
      by_contra hne
      rcases hquiet.transport (by simpa using hne) with hpc | hpc <;> simp [hcreating] at hpc
    have hquiet' : sup.Quiet := by
      rcases hquiet.step h.base.sup rfl (by simp) (by simp) hsup with hq | ha
      · exact hq
      · simp [ha.2] at htransport
    refine ⟨hbase, ?_, fun hno => ?_, .inl ⟨hquiet', by simp [State.startWorkers], by simp [State.startWorkers]⟩⟩
    · exact h.flow.of_same rfl rfl (by simp [State.startWorkers, hreader, ReaderPc.held]) rfl rfl
    · exact absurd htransport (by rw [show sup.transport = false from hno]; simp)
  · exact ⟨hbase, h.flow.of_same rfl rfl rfl rfl rfl, h.off_step hsup,
      h.phase_step hlocal hbegin rfl hsup rfl rfl rfl⟩
  · exact ⟨hbase, h.flow.of_same rfl rfl rfl rfl rfl, h.off_step hsup,
      h.phase_step hlocal hbegin rfl hsup rfl rfl rfl⟩
  · exact ⟨hbase, h.flow.of_same rfl rfl rfl rfl rfl, h.off_step hsup,
      h.phase_step hlocal hbegin hrequest hsup rfl rfl rfl⟩

/-- When `Close` runs out of time, the transport has ended before. -/
theorem finishPc_of_closeTimeout [DecidableEq ε] (h : Drain decode s) {err : Err ε}
    (hstep : Session.step config decode s (.closeTimeout err) = some t) : s.transport.finishPc ≠ .idle := by
  simp only [Session.step, Option.ite_none_right_eq_some] at hstep
  obtain ⟨⟨htransport, -⟩, hstep⟩ := hstep
  obtain ⟨sup, hsup, -⟩ := Option.map_eq_some_iff.mp hstep
  simp only [Supervise.step, Option.ite_none_right_eq_some] at hsup
  have hcommit : s.sup.stopCommit = true := by
    rw [h.base.sup.commit, hsup.1]
    rfl
  have hended := h.ended htransport hcommit
  exact (h.base.orderly.control .eof (by rw [hended.control])).2

omit [DecidableEq ι] in
/-- The monitor of a session that is shutting down changes nothing by its report. -/
theorem reportMonitor (h : Drain decode s) (hcommit : s.sup.stopCommit = true) {u : Transport ε}
    (hcontrol : u.control = s.transport.control) {request : StopRequest (Err ε)}
    (hbase : Base ({ s with transport := u }.requestStop request)) :
    Drain decode ({ s with transport := u }.requestStop request) := by
  have hsup : s.sup.requestStop request = { s.sup with closing := true } := by
    simp [Supervise.State.requestStop, hcommit]
  refine ⟨hbase, h.flow.of_same rfl rfl (by simp [State.requestStop, hcontrol]) rfl rfl, ?_, ?_⟩
  · intro hoff
    refine h.off ?_
    simp only [State.requestStop, hsup] at hoff
    exact hoff
  · rcases h.phase with ⟨hquiet, -⟩ | habort | hended
    · simp [hquiet.stopCommit h.base.sup] at hcommit
    · refine .inr (.inl ?_)
      simp only [State.requestStop, hsup]
      exact habort
    · refine .inr (.inr (hended.of_eq rfl hcontrol ?_))
      simp only [State.requestStop, hsup]
      exact hended.accepted.of_eq rfl rfl

/-- In a run without a local stop every step keeps the invariant, unless the monitor stops the session. -/
theorem step [DecidableEq ε] {a : Action ι ε} (h : Drain decode s) (hsocket : OrderlySocket a)
    (halive : Alive config s a) (hlocal : NoLocalStop a) (hbegin : BeginSucceeds s a)
    (hmonitor : a = .reportMonitor → s.sup.stopCommit = true)
    (hstep : Session.step config decode s a = some t) : Drain decode t := by
  have hbase : Base t := by
    refine h.base.step hsocket halive ?_ hstep
    rintro err rfl
    exact h.finishPc_of_closeTimeout hstep
  cases a with
  | socket a => exact h.socket hbase hstep
  | monitor a =>
    obtain ⟨u, hu, rfl⟩ := Option.map_eq_some_iff.mp hstep
    have hcontrol :=
      (Transport.monitorStep_orderly h.base.orderly (fun ha => by subst ha; exact halive) hu).2
    exact h.untouched hbase ⟨rfl, rfl, rfl, hcontrol, rfl, rfl⟩
  | reportMonitor =>
    simp only [Session.step] at hstep
    split at hstep <;> simp only [reduceCtorEq, Option.some.injEq] at hstep
    subst hstep
    split_ifs at hbase ⊢
    · exact h.untouched hbase ⟨rfl, rfl, rfl, rfl, rfl, rfl⟩
    · exact h.reportMonitor (u := { s.transport with monitor := .returned }) (hmonitor rfl) rfl hbase
  | reader a => exact h.readerStep hbase hstep
  | dispatcher a => exact h.untouched hbase (dispatcherStep_untouched hstep).1
  | inbound a => exact h.untouched hbase (inboundStep_untouched h.base hstep).1
  | outbound a => exact h.untouched hbase (outboundStep_untouched h.base hstep).1
  | call id a => exact h.callStep hbase hstep
  | send =>
    obtain ⟨u, hu, rfl⟩ := Option.map_eq_some_iff.mp hstep
    exact h.untouched hbase ⟨rfl, rfl, rfl, Transport.enqueue_control hu, rfl, rfl⟩
  | stop request => exact hlocal.elim
  | bindAudio | closeAudio | cancelTasks | closeDispatch =>
    simp only [Session.step, Option.ite_none_right_eq_some] at hstep
    obtain rfl := Option.some.inj hstep.2
    exact h.untouched hbase ⟨rfl, rfl, rfl, rfl, rfl, rfl⟩
  | supervisor a => exact h.supervisorStep hbase hlocal hbegin hstep
  | failPending =>
    simp only [Session.step, Option.ite_none_right_eq_some] at hstep
    obtain ⟨calls, hcalls, rfl⟩ := Option.map_eq_some_iff.mp hstep.2
    have hswept : calls.swept = true := by
      simp only [Pending.step, Option.ite_none_right_eq_some] at hcalls
      obtain rfl := Option.some.inj hcalls.2
      rfl
    refine ⟨hbase, ?_, h.off, h.phase_of_eq rfl rfl rfl⟩
    refine h.flow.later rfl rfl rfl (Pending.later_step hcalls) fun hs => ?_
    simp [hswept] at hs
  | closeTransport =>
    simp only [Session.step, Option.ite_none_right_eq_some] at hstep
    obtain rfl := Option.some.inj hstep.2
    exact h.untouched hbase ⟨rfl, rfl, rfl, Transport.closeCommand_control, rfl, rfl⟩
  | closeTimeout err =>
    simp only [Session.step, Option.ite_none_right_eq_some] at hstep
    obtain ⟨sup, hsup, rfl⟩ := Option.map_eq_some_iff.mp hstep.2
    have hcontrol : (s.transport.finish err).control = s.transport.control := Transport.finish_control err
    exact ⟨hbase, h.flow.of_same rfl rfl (by rw [hcontrol]) rfl rfl, h.off_step hsup,
      h.phase_step (a := .transportCloses (some err)) trivial trivial rfl hsup rfl rfl hcontrol⟩

end Drain

/-! ## Without keepalive -/

variable [DecidableEq ι] [DecidableEq ε]

/-- A session without keepalive never has a monitor. -/
theorem monitor_off_step {a : Action ι ε} (hkeepalive : config.keepalive.enabled = false)
    (hbase : Base s) (h : s.transport.monitor = .off) (hstep : step config decode s a = some t) :
    t.transport.monitor = .off := by
  cases a with
  | socket a =>
    obtain ⟨u, hu, rfl⟩ := Option.map_eq_some_iff.mp hstep
    have hmonitor := (Transport.step_monitor hu).trans h
    cases a <;> exact hmonitor
  | monitor a => simp [step, Transport.monitorStep_off h] at hstep
  | reportMonitor => simp [step, h] at hstep
  | reader a =>
    cases a with
    | recv | recvEnds =>
      simp only [step, State.readerStep] at hstep
      split at hstep <;> simp only [reduceCtorEq, Option.some.injEq] at hstep
      subst hstep
      exact h
    | recvCanceled =>
      simp only [step, State.readerStep, Option.ite_none_right_eq_some] at hstep
      obtain rfl := Option.some.inj hstep.2
      exact h
    | handle =>
      simp only [step, State.readerStep] at hstep
      split at hstep <;> simp only [reduceCtorEq, Option.some.injEq] at hstep
      subst hstep
      unfold State.handleText
      (repeat' split) <;> exact h
    | report =>
      simp only [step, State.readerStep] at hstep
      split at hstep
      · split_ifs at hstep <;> obtain rfl := Option.some.inj hstep <;> exact h
      · cases hstep
  | dispatcher a => exact (dispatcherStep_untouched hstep).2.trans h
  | inbound a => exact (inboundStep_untouched hbase hstep).2.trans h
  | outbound a => exact (outboundStep_untouched hbase hstep).2.trans h
  | call id a =>
    obtain ⟨calls, u, -, hu, rfl⟩ := callStep_cases hstep
    rcases hu with rfl | hu
    · exact h
    · exact (Transport.enqueue_monitor hu).trans h
  | send =>
    obtain ⟨u, hu, rfl⟩ := Option.map_eq_some_iff.mp hstep
    exact (Transport.enqueue_monitor hu).trans h
  | stop request =>
    obtain rfl := Option.some.inj hstep
    exact h
  | supervisor a =>
    obtain ⟨sup, -, hcases⟩ := supervisorStep_cases hstep
    rcases hcases with ⟨-, -, rfl⟩ | ⟨-, rfl⟩ | ⟨-, rfl⟩ | ⟨-, -, rfl⟩
    · simp [State.startWorkers, hkeepalive]
    all_goals exact h
  | bindAudio | closeAudio | cancelTasks | closeDispatch =>
    simp only [step, Option.ite_none_right_eq_some] at hstep
    obtain rfl := Option.some.inj hstep.2
    exact h
  | failPending =>
    simp only [step, Option.ite_none_right_eq_some] at hstep
    obtain ⟨calls, -, rfl⟩ := Option.map_eq_some_iff.mp hstep.2
    exact h
  | closeTransport =>
    simp only [step, Option.ite_none_right_eq_some] at hstep
    obtain rfl := Option.some.inj hstep.2
    exact Transport.closeCommand_monitor.trans h
  | closeTimeout err =>
    simp only [step, Option.ite_none_right_eq_some] at hstep
    obtain ⟨sup, -, rfl⟩ := Option.map_eq_some_iff.mp hstep.2
    exact (Transport.finish_monitor err).trans h

/-- A session without keepalive drains its control inbox before it fails the pending requests. In every
state of every run in which the socket ends in an orderly way, nobody stops the session locally and
`OnBegin` does not fail: when the shutdown of the requests begins, the reader has handled every text that
the read pump delivered; a response that found its request pending has completed it; a request that was
pending when its response was delivered is not failed by the shutdown; and the shutdown fails no request
before the reader has seen the end of its inbox, whatever the audio pumps have seen. -/
theorem responses_drained_before_shutdown (config : Config) (hkeepalive : config.keepalive.enabled = false)
    (decode : Bytes → Option (Frame ι ρ φ)) (s : State ι ρ φ ε)
    (h : (machine config decode).ReachableWhere
      (fun s a => OrderlySocket a ∧ NoLocalStop a ∧ BeginSucceeds s a) s)
    (htransport : s.sup.transport = true) : Drained decode s := by
  have hinv : Drain decode s ∧ s.transport.monitor = .off := by
    refine h.invariant (I := fun s => Drain decode s ∧ s.transport.monitor = .off) ?_ ?_
    · rintro _ rfl
      exact ⟨Drain.initial, rfl⟩
    · rintro s a t ⟨hdrain, hoff⟩ ⟨hsocket, hlocal, hbegin⟩ hstep
      have halive : Alive config s a := by
        cases a with
        | monitor a => simp [machine, step, Transport.monitorStep_off hoff] at hstep
        | _ => trivial
      have hmonitor : a = .reportMonitor → s.sup.stopCommit = true := by
        rintro rfl
        simp [machine, step, hoff] at hstep
      exact ⟨hdrain.step hsocket halive hlocal hbegin hmonitor hstep,
        monitor_off_step hkeepalive hdrain.base hoff hstep⟩
  exact hinv.1.drained htransport

/-! ## A run -/

/-- A peer whose only text is the response to the request 0. -/
def oneResponse (text : Bytes) : Option (Frame Nat String String) :=
  if text = [7] then some (.response 0 "ok") else none

/-- The steps up to an active session with its audio bound and the request 0 sent. -/
def activeRun : List (Action Nat String) :=
  [.socket .newTransport, .supervisor .run, .supervisor .configure,
    .supervisor (.factoryReturns ⟨true, none⟩), .supervisor .created, .supervisor (.onBeginReturns none),
    .supervisor .beginReceived, .bindAudio, .call 0 .check, .call 0 .register, .call 0 (.beginSend none),
    .call 0 (.sendReturns none)]

/-- The peer answers and closes the socket, and the inbound pump sees it first. -/
def mediaFirstRun : List (Action Nat String) :=
  activeRun ++ [.socket (.text [7]), .socket (.readFails (.closeError 1000)), .socket .finish,
    .socket .finish, .socket .finish, .inbound .readEnds, .inbound .report, .reader .recv, .reader .handle,
    .reader .recvEnds, .reader .report, .supervisor .offer, .supervisor .activeStopped, .supervisor .commit,
    .failPending, .call 0 .receive]

theorem mediaFirstRun_drained :
    ∃ s, (machine fullConfig oneResponse).exec initial mediaFirstRun = some s ∧
      s.calls.swept = true ∧ s.delivered = [([7], true)] ∧ Drained oneResponse s := by
  have hexec : (machine fullConfig oneResponse).exec initial mediaFirstRun = some _ := rfl
  refine ⟨_, hexec, rfl, rfl, ?_⟩
  exact responses_drained_before_shutdown fullConfig rfl oneResponse _
    (.of_exec rfl (by decide) hexec) rfl

end Rtvbp.Go.Session
