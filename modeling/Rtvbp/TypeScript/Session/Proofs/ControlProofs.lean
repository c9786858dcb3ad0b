import Rtvbp.TypeScript.Session.Control
import Rtvbp.TypeScript.Session.Proofs.PendingProofs
import Rtvbp.TypeScript.Session.Proofs.SuperviseProofs

/-!
# Which responses reach their requests before the shutdown

The control reader learns of the closed connection when its queue is drained, and stops the session then.
The audio stream learns of it through a queue of its own, which may be empty long before, and it stops the
session as well. As long as the report of the control reader is the first to stop the session, every
response that the control queue admitted has been handled before the pending requests are failed.
-/

namespace Rtvbp.TypeScript.Control

open Rtvbp.Lib
open Rtvbp.TypeScript.WebSocket (Thrown Inbox Notice)

variable {ι ρ μ : Type} {config : Supervise.Config} {decode : μ → Option (Frame ι ρ)}

/-! ## The inbox of the control reader -/

section Inbox

variable {b b' : Inbox μ}

/-- Nobody waits with a message, the queue knows whether its reader waits, a reader that waits is rejected
when the queue closes, and one that is rejected has drained it. -/
structure Live (b : Inbox μ) : Prop where
  writers : b.queue.writers = []
  waiting : b.reader = .waiting → b.queue.readers = 1 ∧ b.queue.closed = false
  busy : b.reader ≠ .waiting → b.queue.readers = 0
  ended : b.reader = .over → b.queue.closed = true ∧ b.queue.items = []

theorem Live.items_eq_nil (h : Live b) (hw : b.reader = .waiting) : b.queue.items = [] :=
  b.queue.readers_empty (by rw [(h.waiting hw).1]; exact one_ne_zero)

theorem close_items (q : AsyncQueue μ) : q.close.items = q.items := by
  unfold AsyncQueue.close
  split_ifs <;> rfl

theorem close_closed (q : AsyncQueue μ) : q.close.closed = true := by
  unfold AsyncQueue.close
  split
  · assumption
  · rfl

theorem close_writers {q : AsyncQueue μ} (h : q.writers = []) : q.close.writers = [] := by
  unfold AsyncQueue.close
  split
  · exact h
  · rfl

theorem close_readers_eq_zero {q : AsyncQueue μ} (h : q.readers = 0) : q.close.readers = 0 := by
  unfold AsyncQueue.close
  split
  · exact h
  · show (if q.items = [] then 0 else q.readers) = 0
    split_ifs
    · rfl
    · exact h

theorem Live.finish (h : Live b) : Live b.finish := by
  by_cases hw : b.reader = .waiting
  · have hitems := h.items_eq_nil hw
    have hreader : b.finish.reader = .over := if_pos hw
    refine ⟨close_writers h.writers, fun h' => ?_, fun _ => ?_, fun _ => ⟨close_closed _, (close_items _).trans hitems⟩⟩
    · rw [hreader] at h'
      cases h'
    · show b.queue.close.readers = 0
      unfold AsyncQueue.close
      rw [if_neg (by simp [(h.waiting hw).2])]
      exact if_pos hitems
  · have hreader : b.finish.reader = b.reader := if_neg hw
    refine ⟨close_writers h.writers, fun h' => absurd (hreader.symm.trans h') hw,
      fun _ => close_readers_eq_zero (h.busy hw), ?_⟩
    intro hover
    exact ⟨close_closed _, (close_items _).trans (h.ended (hreader.symm.trans hover)).2⟩

/-- The reader that waits receives the message at once; otherwise it is stored. -/
theorem arrive_cases (h : Live b) {m : μ} (hb : b.arrive m = some b') :
    Live b' ∧ b.reader ≠ .over ∧ b'.reader ≠ .over ∧
      ((b.reader = .waiting ∧ b.queue.readers ≠ 0 ∧ b'.reader = .busy ∧ b.queue.items = [] ∧
          b'.queue.items = []) ∨
        (b.reader ≠ .waiting ∧ b.queue.readers = 0 ∧ b'.reader = b.reader ∧
          b'.queue.items = b.queue.items ++ [m])) := by
  have hopen : b.queue.closed = false := by
    by_contra hc
    have hpush : b.queue.push m = none := if_pos (by simpa using hc)
    simp [Inbox.arrive, AsyncQueue.tryPush, hpush] at hb
  have hne : b.reader ≠ .over := fun hover => by simp [(h.ended hover).1] at hopen
  rcases AsyncQueue.push_cases hopen m with ⟨h0, q, hq, hi, hwr, hr, -, -⟩ | ⟨-, q, hq, -⟩ |
    ⟨h0, q, hq, hi, hwr, hr, -, -⟩
  · have hw : b.reader ≠ .waiting := fun hw => by simp [(h.waiting hw).1] at h0
    simp only [Inbox.arrive, AsyncQueue.tryPush, hq, Option.some.injEq] at hb
    subst hb
    exact ⟨⟨hwr.trans h.writers, fun hw' => absurd hw' hw, fun _ => hr, fun hover => absurd hover hne⟩, hne,
      hne,
      .inr ⟨hw, h0, rfl, hi⟩⟩
  · simp [Inbox.arrive, AsyncQueue.tryPush, hq] at hb
  · have hw : b.reader = .waiting := by
      by_contra hw
      exact h0 (h.busy hw)
    have hitems := h.items_eq_nil hw
    simp only [Inbox.arrive, AsyncQueue.tryPush, hq, Option.some.injEq] at hb
    subst hb
    refine ⟨⟨hwr.trans h.writers, by simp, fun _ => ?_, by simp⟩, hne, by simp,
      .inl ⟨hw, h0, rfl, hitems, hi.trans hitems⟩⟩
    rw [hr, (h.waiting hw).1]

/-- The reader asks for the next message: it takes the first one, waits for one, or sees the end. -/
theorem shift_cases (h : Live b) (hbusy : b.reader = .busy) :
    Live b.shift.1 ∧
      ((∃ m, b.queue.items = m :: b.shift.1.queue.items ∧ b.shift.1.reader = .busy ∧
          b.shift.2 = false) ∨
        (b.queue.items = [] ∧ b.shift.1.queue.items = [] ∧ b.shift.1.reader = .waiting ∧
          b.shift.2 = false) ∨
        (b.queue.items = [] ∧ b.shift.1.queue.items = [] ∧ b.shift.1.reader = .over ∧
          b.shift.2 = true)) := by
  have h0 : b.queue.readers = 0 := h.busy (by simp [hbusy])
  by_cases hitems : b.queue.items = []
  · cases hclosed : b.queue.closed with
    | true =>
      have hshift : b.queue.shift = none := by simp [AsyncQueue.shift, hitems, hclosed]
      have heq : b.shift = ({ b with reader := .over }, true) := by simp [Inbox.shift, hshift]
      rw [heq]
      exact ⟨⟨h.writers, by simp, fun _ => h0, fun _ => ⟨hclosed, hitems⟩⟩,
        .inr (.inr ⟨hitems, hitems, rfl, rfl⟩)⟩
    | false =>
      have hshift : b.queue.shift = some (b.queue.addReader hitems, .waiting) := by
        simp [AsyncQueue.shift, hitems, hclosed]
      have heq : b.shift = (⟨b.queue.addReader hitems, .waiting⟩, false) := by simp [Inbox.shift, hshift]
      rw [heq]
      exact ⟨⟨h.writers, fun _ => ⟨by simp [AsyncQueue.addReader, h0], hclosed⟩, by simp, by simp⟩,
        .inr (.inl ⟨hitems, hitems, rfl, rfl⟩)⟩
  · have hshift : b.queue.shift =
        some (b.queue.takeItem hitems, .value (b.queue.items.head hitems) !b.queue.writers.isEmpty) :=
      dif_neg hitems
    have heq : b.shift = (⟨b.queue.takeItem hitems, .busy⟩, false) := by simp [Inbox.shift, hshift]
    rw [heq]
    refine ⟨⟨?_, by simp, fun _ => h0, by simp⟩, .inl ⟨b.queue.items.head hitems, ?_, rfl, rfl⟩⟩
    · simp [AsyncQueue.takeItem, h.writers]
    · simp [AsyncQueue.takeItem, h.writers]

end Inbox

/-! ## The transport and its workers -/

section Transport

variable {s t u : WebSocket.State μ}

/-- What a step does to the control path that is none of the control reader and none of the supervisor: it
may close the control queue, which rejects a waiting reader. -/
structure Closes (s t : WebSocket.State μ) : Prop where
  session : t.session = s.session
  controls : t.controls = s.controls ∨ t.controls = s.controls.finish
  notices : ∀ n ∈ t.notices, ofReader n.report = true → n ∈ s.notices ∨ t.controls.reader = .over

theorem Closes.of_same (hsession : t.session = s.session) (hcontrols : t.controls = s.controls)
    (hnotices : t.notices = s.notices) : Closes s t :=
  ⟨hsession, .inl hcontrols, fun _ hn _ => .inl (hnotices ▸ hn)⟩

/-- Somebody else has something to report. -/
theorem Closes.notify (h : Closes s t) {turns : Nat} {report : WebSocket.Report}
    (hreport : ofReader report = false) (hsession : u.session = t.session)
    (hcontrols : u.controls = t.controls) (hnotices : u.notices = t.notices ++ [⟨turns, report⟩]) :
    Closes s u := by
  refine ⟨hsession.trans h.session, by rw [hcontrols]; exact h.controls, fun n hn hr => ?_⟩
  rw [hnotices] at hn
  rcases List.mem_append.mp hn with hn | hn
  · rw [hcontrols]
    exact h.notices n hn hr
  · obtain rfl := List.mem_singleton.mp hn
    rw [hreport] at hr
    cases hr

/-- Fields that are not of the control path. -/
theorem Closes.congr (h : Closes s t) (hsession : u.session = t.session)
    (hcontrols : u.controls = t.controls) (hnotices : u.notices = t.notices) : Closes s u := by
  refine ⟨hsession.trans h.session, by rw [hcontrols]; exact h.controls, ?_⟩
  rw [hnotices, hcontrols]
  exact h.notices

/-- The queue keeps its messages. -/
theorem Closes.items (h : Closes s t) : t.controls.queue.items = s.controls.queue.items := by
  rcases h.controls with heq | heq <;> rw [heq]
  exact close_items _

theorem closes_finishQueues (hsession : s.session = u.session) (hcontrols : s.controls = u.controls)
    (hnotices : s.notices = u.notices) : Closes u s.finishQueues := by
  unfold WebSocket.State.finishQueues
  split
  · refine ⟨hsession, .inr (by rw [hcontrols]), fun n hn hr => ?_⟩
    rcases List.mem_append.mp hn with hn | hn
    · exact .inl (hnotices ▸ hn)
    · -- only the notice of a waiting control reader is one of its own
      by_cases hw : s.controls.reader = .waiting
      · exact .inr (if_pos hw)
      · simp only [WebSocket.State.closureNotices, hw, if_false, List.nil_append, List.mem_append] at hn
        rcases hn with hn | hn
        · split_ifs at hn
          · obtain rfl := List.mem_singleton.mp hn
            cases hr
          · cases hn
        · split_ifs at hn
          · obtain rfl := List.mem_singleton.mp hn
            cases hr
          · cases hn
  · exact .of_same hsession hcontrols hnotices

theorem closes_endBy (reason : WebSocket.End) : Closes s (s.endBy reason) := by
  unfold WebSocket.State.endBy
  split_ifs <;> exact .of_same rfl rfl rfl

theorem closes_endBy_finishQueues (reason : WebSocket.End) : Closes s (s.endBy reason).finishQueues := by
  refine closes_finishQueues ?_ ?_ ?_ <;> unfold WebSocket.State.endBy <;> split_ifs <;> rfl

theorem closes_finish (error : Thrown) : Closes s (s.finish error) := by
  unfold WebSocket.State.finish
  split_ifs
  · exact .of_same rfl rfl rfl
  · exact closes_endBy_finishQueues _

/-- The steps of the socket, of the writes, of the audio stream and of the keepalive worker. -/
theorem closes_step {a : WebSocket.Action μ} (hstep : WebSocket.step config s a = some t)
    (hsession : ∀ b, a ≠ .session b) (hturn : a ≠ .turn) (hread : a ≠ .readControl)
    (htext : ∀ m, a = .text m → s.controls.arrive m = none) : Closes s t := by
  cases a with
  | session b => exact absurd rfl (hsession b)
  | turn => exact absurd rfl hturn
  | readControl => exact absurd rfl hread
  | text m =>
    simp only [WebSocket.step, Option.ite_none_right_eq_some] at hstep
    obtain rfl := Option.some.inj hstep.2
    rw [htext m rfl]
    exact closes_finish (.session "inbound_overflow" "WebSocket inbound queue is full")
  | binary m =>
    simp only [WebSocket.step, Option.ite_none_right_eq_some] at hstep
    obtain rfl := Option.some.inj hstep.2
    cases s.binary.arrive m with
    | none => exact closes_finish (.session "inbound_overflow" "WebSocket inbound queue is full")
    | some b => exact .of_same rfl rfl rfl
  | closes error =>
    simp only [WebSocket.step, Option.ite_none_right_eq_some] at hstep
    obtain rfl := Option.some.inj hstep.2
    exact closes_endBy_finishQueues _
  | closeTransport =>
    obtain rfl := Option.some.inj hstep
    exact (closes_endBy _).congr rfl rfl rfl
  | socketCloses =>
    simp only [WebSocket.step, Option.ite_none_right_eq_some] at hstep
    obtain rfl := Option.some.inj hstep.2
    exact closes_finishQueues rfl rfl rfl
  | sendTextRejects error responding =>
    obtain rfl := Option.some.inj hstep
    cases responding with
    | true =>
      have hreport : ofReader (.response error) = false := rfl
      exact (closes_finish error).notify hreport rfl rfl rfl
    | false => exact closes_finish error
  | sendBinaryRejects error =>
    obtain rfl := Option.some.inj hstep
    exact closes_finish error
  | responseRefused =>
    simp only [WebSocket.step, Option.ite_none_right_eq_some] at hstep
    obtain rfl := Option.some.inj hstep.2
    exact (Closes.of_same rfl rfl rfl).notify rfl rfl rfl rfl
  | bindAudio | pingFulfills | pongResult =>
    simp only [WebSocket.step, Option.ite_none_right_eq_some] at hstep
    obtain rfl := Option.some.inj hstep.2
    exact .of_same rfl rfl rfl
  | readFrame =>
    simp only [WebSocket.step, Option.ite_none_right_eq_some] at hstep
    obtain rfl := Option.some.inj hstep.2
    split_ifs
    · exact (Closes.of_same rfl rfl rfl).notify rfl rfl rfl rfl
    · exact .of_same rfl rfl rfl
  | frameRejected | keepaliveTimesOut =>
    simp only [WebSocket.step, Option.ite_none_right_eq_some] at hstep
    obtain rfl := Option.some.inj hstep.2
    exact (Closes.of_same rfl rfl rfl).notify rfl rfl rfl rfl
  | keepaliveWakes =>
    simp only [WebSocket.step, Option.ite_none_right_eq_some] at hstep
    obtain rfl := Option.some.inj hstep.2
    split_ifs
    · exact (Closes.of_same rfl rfl rfl).notify rfl rfl rfl rfl
    · exact .of_same rfl rfl rfl
  | pingRejects error =>
    simp only [WebSocket.step, Option.ite_none_right_eq_some] at hstep
    obtain rfl := Option.some.inj hstep.2
    exact (closes_finish error).notify rfl rfl rfl rfl

end Transport

/-! ## The supervisor and the reader -/

/-- Nothing has stopped the session. -/
structure Quiet (x : Supervise.State Thrown) : Prop where
  aborted : x.life.aborted = false
  parent : x.parent = none
  begins : ∀ error, x.beginning ≠ .rejected error
  phase : x.pc.phase ≠ .stopping

/-- Without a local stop a step of the supervisor does not stop the session. -/
theorem Quiet.step {s : State ι ρ μ} {a : Supervise.Action Thrown} {x : Supervise.State Thrown}
    (h : Quiet s.ws.session) (hlocal : NoLocalStop config s (.ws (.session a)))
    (hstep : Supervise.step config WebSocket.stoppedWhileStarting WebSocket.missingMonitor s.ws.session a =
      some x) : Quiet x := by
  obtain ⟨haborted, hparent, hbegins, hphase⟩ := h
  have hpc : ∀ pc : Supervise.Pc, pc.phase = .stopping → s.ws.session.pc ≠ pc := by
    rintro pc hstop rfl
    exact hphase hstop
  cases a with
  | stop cause failed => exact hlocal.elim
  | parentAbort reason => exact hlocal.elim
  | factoryRejects error => exact hlocal.elim
  | beginRejects error => exact hlocal.elim
  | run =>
    simp only [Supervise.step, Option.ite_none_right_eq_some] at hstep
    obtain rfl := Option.some.inj hstep.2
    exact ⟨haborted, hparent, hbegins, by simp [Supervise.Pc.phase]⟩
  | connect =>
    simp only [Supervise.step, hparent, Option.ite_none_right_eq_some] at hstep
    obtain ⟨-, hstep⟩ := hstep
    split at hstep <;> obtain rfl := Option.some.inj hstep <;>
      exact ⟨haborted, rfl, hbegins, by simp [Supervise.Pc.phase]⟩
  | factoryResolves transport =>
    simp only [Supervise.step, Option.ite_none_right_eq_some] at hstep
    obtain rfl := Option.some.inj hstep.2
    exact ⟨haborted, hparent, hbegins, by simp [Supervise.Pc.phase]⟩
  | start error =>
    obtain ⟨rfl, hconfig⟩ := hlocal
    simp only [Supervise.step, hconfig, Option.ite_none_right_eq_some] at hstep
    obtain rfl := Option.some.inj hstep.2
    exact ⟨haborted, hparent, by simp, by simp [Supervise.Pc.phase]⟩
  | beginFulfills =>
    simp only [Supervise.step] at hstep
    split at hstep
    · obtain rfl := Option.some.inj hstep
      exact ⟨haborted, hparent, by simp, hphase⟩
    · cases hstep
  | began =>
    simp only [Supervise.step, Option.ite_none_right_eq_some] at hstep
    obtain ⟨-, hstep⟩ := hstep
    split at hstep
    · cases hstep
    · cases hstep
    · rename_i error herror
      exact absurd herror (hbegins error)
    · rw [if_neg (by simp [haborted])] at hstep
      obtain rfl := Option.some.inj hstep
      exact ⟨haborted, hparent, hbegins, by simp [Supervise.Pc.phase]⟩
  | stopped =>
    simp [Supervise.step, haborted] at hstep
  | wake =>
    simp [Supervise.step, haborted] at hstep
  | audioCloses error =>
    simp [Supervise.step, hpc .closingAudio rfl] at hstep
  | transportCloses error =>
    simp [Supervise.step, hpc .closingTransport rfl] at hstep
  | workersJoin error =>
    simp [Supervise.step, hpc .joining rfl] at hstep

/-- The session is undisturbed until its control reader has seen the end of the closed queue. -/
structure Orderly (ws : WebSocket.State μ) (held : Option μ) (swept : Bool) : Prop where
  live : Live ws.controls
  busy : held.isSome = true → ws.controls.reader = .busy
  ended : ∀ n ∈ ws.notices, ofReader n.report = true → ws.controls.reader = .over
  quiet : ws.controls.reader ≠ .over → Quiet ws.session ∧ swept = false
  starting : ws.session.pc.started = false → ws.controls.reader = .off

section Orderly

variable {ws ws' : WebSocket.State μ} {held : Option μ} {swept : Bool}

/-- A reader that is over holds nothing, and its queue is drained. -/
theorem Orderly.drained (h : Orderly ws held swept) (hover : ws.controls.reader = .over) :
    held = none ∧ ws.controls.queue.items = [] := by
  refine ⟨?_, (h.live.ended hover).2⟩
  cases held with
  | none => rfl
  | some m =>
    have hbusy := h.busy rfl
    rw [hover] at hbusy
    cases hbusy

theorem Orderly.reader_of_stopping (h : Orderly ws held swept)
    (hphase : ws.session.pc.phase = .stopping) : ws.controls.reader = .over := by
  by_contra hne
  exact (h.quiet hne).1.phase hphase

/-- The queues may be closed, and somebody else may have something to report. -/
theorem Orderly.closes (h : Orderly ws held swept) (hc : Closes ws ws') : Orderly ws' held swept := by
  have hover : ws.controls.reader = .over → ws'.controls.reader = .over := by
    intro hover
    rcases hc.controls with heq | heq <;> rw [heq]
    · exact hover
    · simp [Inbox.finish, hover]
  refine ⟨?_, fun hheld => ?_, fun n hn hr => ?_, fun hne => ?_, fun hstart => ?_⟩
  · rcases hc.controls with heq | heq <;> rw [heq]
    · exact h.live
    · exact h.live.finish
  · have hbusy := h.busy hheld
    rcases hc.controls with heq | heq <;> rw [heq]
    · exact hbusy
    · simp [Inbox.finish, hbusy]
  · rcases hc.notices n hn hr with hn | hn
    · exact hover (h.ended n hn hr)
    · exact hn
  · rw [hc.session]
    exact h.quiet fun h' => hne (hover h')
  · rw [hc.session] at hstart
    have hoff := h.starting hstart
    rcases hc.controls with heq | heq <;> rw [heq]
    · exact hoff
    · simp [Inbox.finish, hoff]

/-- A step of the supervisor, before the workers follow it. -/
theorem Orderly.session (h : Orderly ws held swept) {x : Supervise.State Thrown}
    (hquiet : Quiet ws.session → Quiet x)
    (hstarted : ws.session.pc.started = true → x.pc.started = true) (stoppedLocally : Bool) :
    Orderly { ws with session := x, stoppedLocally } held swept := by
  refine ⟨h.live, h.busy, h.ended, fun hne => ?_, fun hx => ?_⟩
  · exact ⟨hquiet (h.quiet hne).1, (h.quiet hne).2⟩
  · refine h.starting ?_
    by_contra hs
    rw [hstarted (by simpa using hs)] at hx
    cases hx

/-- The reader of a session that is not stopped is not thrown out. -/
theorem Orderly.leaveAborted (h : Orderly ws held swept) : ws.leaveAborted = ws := by
  unfold WebSocket.State.leaveAborted
  split_ifs with haborted
  · have hw : ws.controls.reader ≠ .waiting := by
      intro hw
      have hquiet := (h.quiet (by simp [hw])).1.aborted
      rw [WebSocket.State.aborted, hquiet] at haborted
      cases haborted
    rw [Inbox.abort, if_neg hw]
  · rfl

theorem closes_tearDown : Closes ws ws.tearDown := by
  unfold WebSocket.State.tearDown
  split
  · exact .of_same rfl rfl rfl
  · exact (closes_endBy _).congr rfl rfl rfl
  · exact .of_same rfl rfl rfl

/-- The supervisor starts the reader. -/
theorem Orderly.startWorkers (h : Orderly ws held swept) (config : Supervise.Config)
    (hoff : ws.controls.reader = .off) (hstarted : ws.session.pc.started = true) :
    Orderly (ws.startWorkers config) held swept := by
  have hheld : held.isSome = true → ws.controls.reader ≠ .off := by
    intro hheld
    rw [h.busy hheld]
    simp
  refine ⟨⟨h.live.writers, by simp [WebSocket.State.startWorkers], fun _ => h.live.busy (by simp [hoff]),
    by simp [WebSocket.State.startWorkers]⟩, fun hh => absurd hoff (hheld hh), fun n hn hr => ?_,
    fun _ => h.quiet (by simp [hoff]), fun hx => ?_⟩
  · have hover := h.ended n hn hr
    rw [hoff] at hover
    cases hover
  · rw [show ws.session.pc.started = false from hx] at hstarted
    cases hstarted

/-- One turn: while the reader goes on, nothing is reported. -/
theorem Orderly.turn (h : Orderly ws held swept)
    (hfirst : ws.controls.reader = .over ∨ ∀ n ∈ ws.notices, n.turns = 0 → ofReader n.report = true) :
    Orderly ws.turn held swept := by
  have hlife : ws.controls.reader ≠ .over → ws.turn.session = ws.session := by
    intro hne
    have hdue : ws.notices.filter (·.turns = 0) = [] := by
      refine List.filter_eq_nil_iff.mpr fun n hn hturns => hne ?_
      rcases hfirst with hover | hall
      · exact hover
      · exact h.ended n hn (hall n hn (by simpa using hturns))
    simp only [WebSocket.State.turn, hdue, List.foldl_nil]
  have hpc : ws.turn.session.pc = ws.session.pc := rfl
  refine ⟨h.live, h.busy, fun n hn hr => ?_, fun hne => ?_, fun hstart => h.starting (hpc ▸ hstart)⟩
  · simp only [WebSocket.State.turn, List.mem_map] at hn
    obtain ⟨n', hn', rfl⟩ := hn
    exact h.ended n' (List.mem_filter.mp hn').1 hr
  · rw [hlife hne]
    exact h.quiet hne

end Orderly

/-- What the workers do after a step of the supervisor: the control reader starts, or it goes on. -/
theorem Orderly.follow {s : State ι ρ μ} (h : Orderly s.ws s.held s.swept)
    {a : Supervise.Action Thrown} {x : Supervise.State Thrown}
    (hlocal : NoLocalStop config s (.ws (.session a)))
    (hstep : Supervise.step config WebSocket.stoppedWhileStarting WebSocket.missingMonitor s.ws.session a =
      some x) :
    Orderly (s.ws.follow config a x) s.held s.swept ∧
      (s.ws.follow config a x).controls.queue.items = s.ws.controls.queue.items := by
  obtain ⟨hstarted, hstart⟩ := Supervise.step_started hstep
  have hnext := h.session (fun hq => hq.step hlocal hstep) hstarted
    (s.ws.stoppedLocally || (!s.ws.aborted && s.ws.session.stopsLocally a))
  unfold WebSocket.State.follow
  split <;> dsimp only
  · rename_i error
    obtain ⟨hs, hx⟩ := hstart ⟨error, rfl⟩
    have hworkers := hnext.startWorkers config (h.starting hs) hx
    rw [hworkers.leaveAborted]
    exact ⟨hworkers.closes closes_tearDown, closes_tearDown.items⟩
  · have hcloses := closes_endBy_finishQueues (s := { s.ws with
      session := x
      stoppedLocally := s.ws.stoppedLocally ||
        (!s.ws.aborted && s.ws.session.stopsLocally (.transportCloses none)) }) .stopped
    exact ⟨hnext.closes hcloses, hcloses.items⟩
  · rw [hnext.leaveAborted]
    exact ⟨hnext.closes closes_tearDown, closes_tearDown.items⟩

/-! ## The way of a response -/

/-- The admitted messages that the reader has not handled. -/
def State.ahead (s : State ι ρ μ) : List μ := s.held.toList ++ s.ws.controls.queue.items

/-- The messages are handled in the order in which they were admitted, and a response that finds its
request in the map completes it. -/
structure Flow (decode : μ → Option (Frame ι ρ)) (s : State ι ρ μ) : Prop where
  fifo : s.delivered.map Prod.fst = s.handled.map Prod.fst ++ s.ahead
  tidy : ∀ id, (s.requests id).Tidy
  /-- An answered request is in the map only while its response is ahead. -/
  answered : ∀ m id response, (m, true) ∈ s.delivered → decode m = some (.response id response) →
    (s.requests id).pc.hasRegistered = true ∧ ((s.requests id).pending = true → m ∈ s.ahead)
  completed : ∀ m id response, (m, true) ∈ s.handled → decode m = some (.response id response) →
    (s.requests id).Settled ∧ (s.requests id).completions = [.response response]
  kept : ∀ m id response, (m, true) ∈ s.delivered → decode m = some (.response id response) →
    ¬ (s.requests id).FailedByShutdown

section Flow

variable {s t : State ι ρ μ}

theorem Flow.congr (h : Flow decode s) (hrequests : t.requests = s.requests)
    (hdelivered : t.delivered = s.delivered) (hhandled : t.handled = s.handled) (hahead : t.ahead = s.ahead) :
    Flow decode t := by
  obtain ⟨hfifo, htidy, hanswered, hcompleted, hkept⟩ := h
  constructor
  · rw [hdelivered, hhandled, hahead]
    exact hfifo
  · rw [hrequests]
    exact htidy
  · rw [hdelivered, hrequests, hahead]
    exact hanswered
  · rw [hhandled, hrequests]
    exact hcompleted
  · rw [hdelivered, hrequests]
    exact hkept

theorem registered_of_pending {c : Pending.Call ρ Thrown} (h : c.Tidy) (hp : c.pending = true) :
    c.pc.hasRegistered = true := by
  by_contra hreg
  rw [(h.unregistered (by simpa using hreg)).1] at hp
  cases hp

theorem answers_iff {m : μ} : s.answers decode m = true ↔
    ∃ id response, decode m = some (.response id response) ∧ (s.requests id).pending = true := by
  unfold State.answers
  split
  · rename_i id response hdecode
    constructor
    · intro hp
      exact ⟨id, response, hdecode, hp⟩
    · rintro ⟨id', response', hdecode', hp⟩
      rw [hdecode] at hdecode'
      cases hdecode'
      exact hp
  · rename_i hne
    constructor
    · intro hp
      cases hp
    · rintro ⟨id, response, hdecode, -⟩
      exact absurd hdecode (hne id response)

/-- A message is admitted. -/
theorem Flow.deliver (h : Flow decode s) {m : μ} (hrequests : t.requests = s.requests)
    (hdelivered : t.delivered = s.delivered ++ [(m, s.answers decode m)]) (hhandled : t.handled = s.handled)
    (hahead : t.ahead = s.ahead ++ [m]) : Flow decode t := by
  have hnew : ∀ m' id response, (m', true) ∈ t.delivered → decode m' = some (.response id response) →
      (m', true) ∈ s.delivered ∨ m' = m ∧ (s.requests id).pending = true := by
    intro m' id response hm' hdecode
    rw [hdelivered] at hm'
    rcases List.mem_append.mp hm' with hm' | hm'
    · exact .inl hm'
    · obtain ⟨rfl, hanswers⟩ := Prod.mk.inj (List.mem_singleton.mp hm')
      obtain ⟨id', response', hdecode', hp⟩ := answers_iff.1 hanswers.symm
      rw [hdecode] at hdecode'
      cases hdecode'
      exact .inr ⟨rfl, hp⟩
  refine ⟨?_, by rw [hrequests]; exact h.tidy, fun m' id response hm' hdecode => ?_, ?_,
    fun m' id response hm' hdecode => ?_⟩
  · rw [hdelivered, hhandled, hahead, List.map_append, h.fifo, List.append_assoc]
    rfl
  · rw [hrequests, hahead]
    rcases hnew m' id response hm' hdecode with hm' | ⟨rfl, hp⟩
    · obtain ⟨hreg, hpending⟩ := h.answered m' id response hm' hdecode
      exact ⟨hreg, fun hp => List.mem_append_left _ (hpending hp)⟩
    · exact ⟨registered_of_pending (h.tidy id) hp, fun _ => List.mem_append_right _ List.mem_cons_self⟩
  · rw [hhandled, hrequests]
    exact h.completed
  · rw [hrequests]
    rcases hnew m' id response hm' hdecode with hm' | ⟨-, hp⟩
    · exact h.kept m' id response hm' hdecode
    · rintro ⟨cause, hcause⟩
      rw [(h.tidy id).pending hp] at hcause
      cases hcause

theorem pending_of_later {c d : Pending.Call ρ Thrown} (h : c.Later d) (hreg : c.pc.hasRegistered = true)
    (hp : d.pending = true) : c.pending = true := by
  by_contra hc
  have hsettled := (h.settled ⟨hreg, by simpa using hc⟩).1
  rw [hsettled.2] at hp
  cases hp

/-- The requests move on, and the shutdown fails none that is answered. -/
theorem Flow.later (h : Flow decode s) (hlater : ∀ id, (s.requests id).Later (t.requests id))
    (hkept : ∀ m id response, (m, true) ∈ s.delivered → decode m = some (.response id response) →
      (t.requests id).FailedByShutdown → (s.requests id).FailedByShutdown)
    (hdelivered : t.delivered = s.delivered) (hhandled : t.handled = s.handled) (hahead : t.ahead = s.ahead) :
    Flow decode t := by
  refine ⟨by rw [hdelivered, hhandled, hahead]; exact h.fifo, fun id => (hlater id).tidy (h.tidy id),
    fun m id response hm hdecode => ?_, fun m id response hm hdecode => ?_,
    fun m id response hm hdecode hfailed => ?_⟩
  · rw [hdelivered] at hm
    rw [hahead]
    obtain ⟨hreg, hp⟩ := h.answered m id response hm hdecode
    exact ⟨(hlater id).registered hreg, fun hp' => hp (pending_of_later (hlater id) hreg hp')⟩
  · rw [hhandled] at hm
    obtain ⟨hsettled, hcompletions⟩ := h.completed m id response hm hdecode
    obtain ⟨hsettled', heq⟩ := (hlater id).settled hsettled
    exact ⟨hsettled', heq.trans hcompletions⟩
  · rw [hdelivered] at hm
    exact h.kept m id response hm hdecode (hkept m id response hm hdecode hfailed)

/-- The reader handles the next message; a response completes its request. -/
theorem Flow.handle (h : Flow decode s) {m : μ} (hahead : s.ahead = m :: t.ahead)
    (hlater : ∀ id, (s.requests id).Later (t.requests id))
    (hkept : ∀ id, (t.requests id).FailedByShutdown → (s.requests id).FailedByShutdown)
    (hcompletes : ∀ id response, decode m = some (.response id response) →
      t.requests id = (s.requests id).complete (.response response))
    (hdelivered : t.delivered = s.delivered)
    (hhandled : t.handled = s.handled ++ [(m, s.answers decode m)]) : Flow decode t := by
  refine ⟨?_, fun id => (hlater id).tidy (h.tidy id), fun m' id response hm' hdecode => ?_,
    fun m' id response hm' hdecode => ?_, fun m' id response hm' hdecode hfailed => ?_⟩
  · rw [hdelivered, hhandled, h.fifo, hahead, List.map_append, List.append_assoc]
    rfl
  · rw [hdelivered] at hm'
    obtain ⟨hreg, hp⟩ := h.answered m' id response hm' hdecode
    refine ⟨(hlater id).registered hreg, fun hp' => ?_⟩
    have hmem := hp (pending_of_later (hlater id) hreg hp')
    rw [hahead] at hmem
    rcases List.mem_cons.mp hmem with rfl | hmem
    · rw [hcompletes id response hdecode, Pending.Call.complete_pending] at hp'
      cases hp'
    · exact hmem
  · rw [hhandled] at hm'
    rcases List.mem_append.mp hm' with hm' | hm'
    · obtain ⟨hsettled, hcompletions⟩ := h.completed m' id response hm' hdecode
      obtain ⟨hsettled', heq⟩ := (hlater id).settled hsettled
      exact ⟨hsettled', heq.trans hcompletions⟩
    · obtain ⟨rfl, hanswers⟩ := Prod.mk.inj (List.mem_singleton.mp hm')
      obtain ⟨id', response', hdecode', hp⟩ := answers_iff.1 hanswers.symm
      rw [hdecode] at hdecode'
      cases hdecode'
      rw [hcompletes id response hdecode]
      refine ⟨⟨?_, Pending.Call.complete_pending _ _⟩, ?_⟩
      · rw [Pending.Call.complete_pc]
        exact registered_of_pending (h.tidy id) hp
      · simp [Pending.Call.complete, hp, (h.tidy id).pending hp]
  · rw [hdelivered] at hm'
    exact h.kept m' id response hm' hdecode (hkept id hfailed)

end Flow

/-! ## The session -/

/-- The invariant of the session. -/
structure Inv (decode : μ → Option (Frame ι ρ)) (s : State ι ρ μ) : Prop where
  orderly : Orderly s.ws s.held s.swept
  dispatch : s.dispatch.closed = true → s.swept = true
  flow : Flow decode s

theorem inv_initial (capacity : Nat) (h : 0 < capacity) (dispatchCapacity : Nat) (hd : 0 < dispatchCapacity) :
    Inv decode (initial capacity h dispatchCapacity hd) := by
  refine ⟨⟨⟨rfl, ?_, fun _ => rfl, ?_⟩, ?_, ?_, ?_, fun _ => rfl⟩, ?_, ⟨rfl, ?_, ?_, ?_, ?_⟩⟩
  · simp [initial, WebSocket.initial]
  · simp [initial, WebSocket.initial]
  · simp [initial]
  · simp [initial, WebSocket.initial]
  · exact fun _ => ⟨⟨rfl, rfl, by simp [initial, WebSocket.initial, Supervise.initial],
      by simp [initial, WebSocket.initial, Supervise.initial, Supervise.Pc.phase]⟩, rfl⟩
  · simp [initial, AsyncQueue.new]
  · exact fun id => ⟨fun _ => ⟨rfl, rfl⟩, fun _ => rfl⟩
  · simp [initial]
  · simp [initial]
  · simp [initial]

section Steps

variable {s t : State ι ρ μ}

/-- The start of the `finally` block finds nothing ahead of the reader. -/
theorem Inv.finalize (h : Inv decode s) : Inv decode s.finalize := by
  unfold State.finalize
  split_ifs with hsweep
  · have hover := h.orderly.reader_of_stopping (by rw [hsweep.1]; rfl)
    obtain ⟨hheld, hitems⟩ := h.orderly.drained hover
    have hahead : s.ahead = [] := by rw [State.ahead, hheld, hitems]; rfl
    have horderly := h.orderly
    refine ⟨⟨horderly.live, horderly.busy, horderly.ended, fun hne => absurd hover hne, horderly.starting⟩,
      fun _ => rfl, h.flow.later (fun id => Pending.Call.later_complete _ _) ?_ rfl rfl rfl⟩
    intro m id response hm hdecode hfailed
    obtain ⟨-, hp⟩ := h.flow.answered m id response hm hdecode
    have hnot : ¬ (s.requests id).pending = true := by
      intro hpending
      have hmem := hp hpending
      rw [hahead] at hmem
      cases hmem
    have hsame : (s.requests id).complete
        (.shutdown (s.ws.session.life.stopCause.getD sessionClosed)) = s.requests id := if_neg hnot
    rw [← hsame]
    exact hfailed
  · exact h

/-- A step that leaves the messages and the requests. -/
theorem Inv.ws (h : Inv decode s) {ws : WebSocket.State μ} (horderly : Orderly ws s.held s.swept)
    (hitems : ws.controls.queue.items = s.ws.controls.queue.items) : Inv decode { s with ws } := by
  refine ⟨horderly, h.dispatch, h.flow.congr rfl rfl rfl ?_⟩
  rw [State.ahead, State.ahead, hitems]

/-- A text message arrives. -/
theorem Inv.text (h : Inv decode s) {m : μ} {ws : WebSocket.State μ}
    (hstep : WebSocket.step config s.ws (.text m) = some ws) : Inv decode (s.arrive decode m ws) := by
  unfold State.arrive
  cases harrive : s.ws.controls.arrive m with
  | none =>
    have hcloses := closes_step hstep (by simp) (by simp) (by simp) fun m' hm' => by
      cases hm'
      exact harrive
    exact h.ws (h.orderly.closes hcloses) hcloses.items
  | some b =>
    simp only [WebSocket.step, Option.ite_none_right_eq_some, harrive] at hstep
    obtain rfl := Option.some.inj hstep.2
    obtain ⟨hlive, hne, hne', hcases⟩ := arrive_cases h.orderly.live harrive
    obtain ⟨-, hbusy, hended, hquiet, hstarting⟩ := h.orderly
    have hnotices : ∀ n ∈ s.ws.notices, ofReader n.report = true → b.reader = .over :=
      fun n hn hr => absurd (hended n hn hr) hne
    rcases hcases with ⟨hw, hreaders, hreader, hitems, hitems'⟩ | ⟨hw, hreaders, hreader, hitems⟩
    · -- the waiting reader receives the message
      have hheld : s.held = none := by
        by_contra hheld
        have hreader := hbusy (Option.isSome_iff_ne_none.mpr hheld)
        rw [hw] at hreader
        cases hreader
      refine ⟨⟨hlive, fun _ => hreader, hnotices, fun _ => hquiet hne, fun hs => ?_⟩, h.dispatch,
        h.flow.deliver rfl rfl rfl ?_⟩
      · have hoff := hstarting hs
        rw [hw] at hoff
        cases hoff
      · simp [State.ahead, WebSocket.State.receive, hheld, hreaders, hitems, hitems']
    · -- the message is stored
      refine ⟨⟨hlive, fun hs => ?_, hnotices, fun _ => hquiet hne, fun hs => ?_⟩, h.dispatch,
        h.flow.deliver rfl rfl rfl ?_⟩
      · refine hreader.trans (hbusy ?_)
        simpa [hreaders] using hs
      · exact hreader.trans (hstarting hs)
      · simp [State.ahead, WebSocket.State.receive, hreaders, hitems]

/-- The reader asks for the next message. -/
theorem Inv.readControl (h : Inv decode s) {ws : WebSocket.State μ} (hheld : s.held = none)
    (hstep : WebSocket.step config s.ws .readControl = some ws) :
    Inv decode { s with ws, held := s.ws.controls.queue.items.head? } := by
  simp only [WebSocket.step, Option.ite_none_right_eq_some] at hstep
  obtain ⟨⟨hbusy, -⟩, hstep⟩ := hstep
  obtain ⟨hquiet, hswept⟩ := h.orderly.quiet (by simp [hbusy])
  have hnone : ∀ n ∈ s.ws.notices, ofReader n.report = true → False := by
    intro n hn hr
    have hover := h.orderly.ended n hn hr
    rw [hbusy] at hover
    cases hover
  have hstarting : s.ws.session.pc.started = false → False := by
    intro hs
    have hoff := h.orderly.starting hs
    rw [hbusy] at hoff
    cases hoff
  obtain ⟨hlive, hcases⟩ := shift_cases h.orderly.live hbusy
  rcases hcases with ⟨m, hitems, hreader, hrejected⟩ | ⟨hitems, hitems', hreader, hrejected⟩ |
    ⟨hitems, hitems', hreader, hrejected⟩
  · rw [hrejected] at hstep
    obtain rfl := Option.some.inj hstep
    refine ⟨⟨hlive, fun _ => hreader, fun n hn hr => (hnone n hn hr).elim, fun _ => ⟨hquiet, hswept⟩,
      fun hs => (hstarting hs).elim⟩, h.dispatch, h.flow.congr rfl rfl rfl ?_⟩
    simp [State.ahead, hheld, hitems]
  · rw [hrejected] at hstep
    obtain rfl := Option.some.inj hstep
    refine ⟨⟨hlive, fun hs => ?_, fun n hn hr => (hnone n hn hr).elim, fun _ => ⟨hquiet, hswept⟩,
      fun hs => (hstarting hs).elim⟩, h.dispatch, h.flow.congr rfl rfl rfl ?_⟩
    · rw [hitems] at hs
      cases hs
    · simp [State.ahead, hheld, hitems, hitems']
  · -- the queue is closed and drained, and the reader has this to report
    rw [hrejected] at hstep
    obtain rfl := Option.some.inj hstep
    refine ⟨⟨hlive, fun hs => ?_, fun _ _ _ => hreader, fun hne => absurd hreader hne,
      fun hs => (hstarting hs).elim⟩, h.dispatch, h.flow.congr rfl rfl rfl ?_⟩
    · rw [hitems] at hs
      cases hs
    · simp [State.ahead, WebSocket.State.notify, hheld, hitems, hitems']

/-- The reader handles the message that it has received. -/
theorem Inv.handle [DecidableEq ι] (h : Inv decode s) {m : μ} (hheld : s.held = some m) :
    Inv decode (s.handleMessage decode m) := by
  have hbusy := h.orderly.busy (by simp [hheld])
  obtain ⟨hquiet, hswept⟩ := h.orderly.quiet (by simp [hbusy])
  have hopen : s.dispatch.closed = false := by
    by_contra hclosed
    rw [h.dispatch (by simpa using hclosed)] at hswept
    cases hswept
  have horderly : Orderly s.ws none s.swept :=
    ⟨h.orderly.live, by simp, h.orderly.ended, h.orderly.quiet, h.orderly.starting⟩
  have hahead : ∀ items, s.ws.controls.queue.items = items → s.ahead = m :: items := by
    rintro items rfl
    simp [State.ahead, hheld]
  have hstill : ∀ id, (s.requests id).Later (s.requests id) := fun id => .refl _
  unfold State.handleMessage
  dsimp only
  split
  · rename_i hdecode
    exact ⟨horderly, h.dispatch, h.flow.handle (hahead _ rfl) hstill (fun _ hf => hf) (by simp [hdecode]) rfl rfl⟩
  · rename_i id response hdecode
    refine ⟨horderly, h.dispatch, h.flow.handle (hahead _ rfl) (fun other => ?_) (fun other hf => ?_)
      (fun id' response' hdecode' => ?_) rfl rfl⟩
    · by_cases hother : other = id
      · subst hother
        simpa using Pending.Call.later_complete (s.requests other) (.response response)
      · simpa [Function.update_of_ne hother] using hstill other
    · by_cases hother : other = id
      · subst hother
        simp only [Function.update_self] at hf
        exact Pending.Call.failed_of_complete (by simp) hf
      · simpa [Function.update_of_ne hother] using hf
    · rw [hdecode] at hdecode'
      cases hdecode'
      simp
  · rename_i call hdecode
    have hflow : ∀ {t : State ι ρ μ}, t.requests = s.requests → t.delivered = s.delivered →
        t.handled = s.handled ++ [(m, s.answers decode m)] → t.held = none →
        t.ws.controls.queue.items = s.ws.controls.queue.items → Flow decode t := by
      intro t hrequests hdelivered hhandled hnone hitems
      refine h.flow.handle (m := m) ?_ (fun id => by rw [hrequests]; exact hstill id)
        (fun id hf => by rwa [hrequests] at hf) (by simp [hdecode]) hdelivered hhandled
      rw [hahead _ rfl, State.ahead, hnone, hitems]
      rfl
    unfold State.pushCall
    rw [if_neg (by simpa [WebSocket.State.aborted] using hquiet.aborted)]
    -- the dispatch queue is open: the frame is handed over or stored, or the reader waits
    rcases AsyncQueue.push_cases hopen call with ⟨-, q, hq, -, -, -, -, hq'⟩ | ⟨-, q, hq, -, -, -, -, hq'⟩ |
      ⟨-, q, hq, -, -, -, -, hq'⟩
    all_goals
      simp only [hq]
      exact ⟨horderly, fun hclosed => by simp [hq'] at hclosed, hflow rfl rfl rfl rfl rfl⟩

/-- Every step without a local stop keeps the invariant, unless another report overtakes the reader. -/
theorem Inv.step [DecidableEq ι] (h : Inv decode s) {a : Action ι ρ μ} (hlocal : NoLocalStop config s a)
    (hfirst : ReaderFirst s a) (hstep : step config decode s a = some t) : Inv decode t := by
  cases a with
  | handle =>
    obtain ⟨m, hheld, rfl⟩ := Option.map_eq_some_iff.mp hstep
    exact h.handle hheld
  | shift =>
    simp only [Control.step, Option.ite_none_right_eq_some, State.shiftCall] at hstep
    obtain ⟨-, hstep⟩ := hstep
    split at hstep
    · cases hstep
    · rename_i q hq
      obtain rfl := Option.some.inj hstep
      exact ⟨h.orderly, fun hc => h.dispatch ((AsyncQueue.closed_of_shift hq).symm.trans hc),
        h.flow.congr rfl rfl rfl rfl⟩
    · rename_i q v admits hq
      obtain rfl := Option.some.inj hstep
      exact ⟨h.orderly, fun hc => h.dispatch ((AsyncQueue.closed_of_shift hq).symm.trans hc),
        h.flow.congr rfl rfl rfl rfl⟩
  | finish =>
    simp only [Control.step, Option.ite_none_right_eq_some] at hstep
    obtain rfl := Option.some.inj hstep.2
    exact ⟨h.orderly, h.dispatch, h.flow.congr rfl rfl rfl rfl⟩
  | request b =>
    simp only [Control.step, Option.ite_none_right_eq_some] at hstep
    obtain ⟨hrequest, hstep⟩ := hstep
    obtain ⟨p, hp, rfl⟩ := Option.map_eq_some_iff.mp hstep
    have hlater := fun id => Pending.later_step hp id
    refine ⟨h.orderly, h.dispatch, h.flow.later (fun id => (hlater id).1) (fun _ id _ _ _ => ?_) rfl rfl rfl⟩
    refine (hlater id).2 fun cause hb => ?_
    rw [hb] at hrequest
    cases hrequest
  | ws b =>
    cases b with
    | text m =>
      obtain ⟨ws, hws, rfl⟩ := Option.map_eq_some_iff.mp hstep
      exact h.text hws
    | readControl =>
      simp only [Control.step, State.wsStep, Option.ite_none_right_eq_some] at hstep
      obtain ⟨⟨hheld, -⟩, hstep⟩ := hstep
      obtain ⟨ws, hws, rfl⟩ := Option.map_eq_some_iff.mp hstep
      exact h.readControl (Option.isNone_iff_eq_none.mp hheld) hws
    | session a =>
      obtain ⟨ws, hws, rfl⟩ := Option.map_eq_some_iff.mp hstep
      obtain ⟨x, hx, rfl⟩ := Option.map_eq_some_iff.mp hws
      obtain ⟨horderly, hitems⟩ := h.orderly.follow hlocal hx
      exact (h.ws horderly hitems).finalize
    | turn =>
      obtain ⟨ws, hws, rfl⟩ := Option.map_eq_some_iff.mp hstep
      simp only [WebSocket.step, Option.ite_none_right_eq_some] at hws
      obtain rfl := Option.some.inj hws.2
      have horderly := h.orderly.turn hfirst
      rw [horderly.leaveAborted]
      exact (h.ws horderly rfl).finalize
    | _ =>
      simp only [Control.step, State.wsStep] at hstep
      obtain ⟨ws, hws, rfl⟩ := Option.map_eq_some_iff.mp hstep
      have hcloses := closes_step hws (by simp) (by simp) (by simp) (by simp)
      exact (h.ws (h.orderly.closes hcloses) hcloses.items).finalize

theorem Inv.drained (h : Inv decode s) : Drained decode s := by
  refine ⟨fun hswept => ?_, fun m id response hm hdecode => (h.flow.completed m id response hm hdecode).2,
    fun m id response cause hm hdecode hcause => h.flow.kept m id response hm hdecode ⟨cause, hcause⟩⟩
  have hover : s.ws.controls.reader = .over := by
    by_contra hne
    rw [(h.orderly.quiet hne).2] at hswept
    cases hswept
  obtain ⟨hheld, hitems⟩ := h.orderly.drained hover
  rw [h.flow.fifo, State.ahead, hheld, hitems]
  simp

end Steps

/-- As long as nobody on this side stops the session and no other report overtakes the control reader, the
session handles every message that its control queue admitted before it fails the pending requests: each
response completes its request, and no answered request is rejected. -/
theorem drained_of_reader_first [DecidableEq ι] (config : Supervise.Config) (decode : μ → Option (Frame ι ρ))
    (s : State ι ρ μ)
    (h : (machine config decode).ReachableWhere (fun s a => NoLocalStop config s a ∧ ReaderFirst s a) s) :
    Drained decode s := by
  have hinv : Inv decode s := by
    refine h.invariant ?_ fun _ _ _ hs hG hstep => hs.step hG.1 hG.2 hstep
    rintro s ⟨capacity, hc, dispatchCapacity, hd, rfl⟩
    exact inv_initial capacity hc dispatchCapacity hd
  exact hinv.drained

/-- The messages of the runs below: a response to the one request, and an event. -/
def textFrame : Bool → Option (Frame Unit String)
  | true => some (.response () "pong")
  | false => some (.call (.event "e1" "call.dtmf"))

/-- A session on a given transport, without keepalive. -/
def plainConfig : Supervise.Config where
  transport := some { supportsKeepalive := false, monitorKeepalive := false, monitor := false }
  keepalive := false

/-- The session becomes active and sends a request. -/
def opening : List (Action Unit String Bool) :=
  [.ws (.session .run), .ws (.session .connect), .ws (.session (.start none)), .ws (.session .beginFulfills),
    .ws (.session .began), .request (.call () none), .request (.sendSettles () none)]

/-- The response arrives before the close, and the reader sees the end of its queue. -/
def drainingRun : List (Action Unit String Bool) :=
  opening ++ [.ws .readControl, .ws (.text true), .ws (.closes none), .handle, .ws .readControl] ++
    List.replicate 5 (.ws .turn) ++ [.ws (.session .wake)]

theorem drainingRun_drained : ∃ s, (machine plainConfig textFrame).ReachableWhere
      (fun s a => NoLocalStop plainConfig s a ∧ ReaderFirst s a) s ∧ Drained textFrame s ∧ s.swept = true ∧
      (s.requests ()).completions = [.response "pong"] := by
  have hexec : (machine plainConfig textFrame).exec (initial 4 (by decide) 4 (by decide)) drainingRun =
    some _ := rfl
  have hreach := Machine.ReachableWhere.of_exec (M := machine plainConfig textFrame)
    (G := fun s a => NoLocalStop plainConfig s a ∧ ReaderFirst s a) ⟨4, by decide, 4, by decide, rfl⟩
    (by decide) hexec
  exact ⟨_, hreach, drained_of_reader_first plainConfig textFrame _ hreach, rfl, rfl⟩

/-- Three events fill the dispatcher, its queue and the reader, the response waits in the control queue, and
the waiting audio stream is the first to see the close. -/
def overtakingRun : List (Action Unit String Bool) :=
  opening ++ [.ws .bindAudio, .ws .readFrame, .shift, .ws .readControl,
    .ws (.text false), .handle, .ws .readControl, .ws (.text false), .handle, .ws .readControl,
    .ws (.text false), .handle, .ws (.text true), .ws (.closes none)] ++
    List.replicate 5 (.ws .turn) ++ [.ws (.session .wake)]

theorem overtakingRun_not_drained : ∃ s, (machine plainConfig textFrame).ReachableWhere
      (NoLocalStop plainConfig) s ∧ (true, true) ∈ s.delivered ∧
      (s.requests ()).completions = [.shutdown sessionClosed] ∧ ¬ Drained textFrame s := by
  have hexec : (machine plainConfig textFrame).exec (initial 4 (by decide) 1 (by decide)) overtakingRun =
    some _ := rfl
  have hreach := Machine.ReachableWhere.of_exec (M := machine plainConfig textFrame)
    (G := NoLocalStop plainConfig) ⟨4, by decide, 1, by decide, rfl⟩ (by decide) hexec
  refine ⟨_, hreach, by decide, rfl, fun hdrained => ?_⟩
  exact hdrained.kept true () "pong" sessionClosed (by decide) rfl (by decide)

end Rtvbp.TypeScript.Control
