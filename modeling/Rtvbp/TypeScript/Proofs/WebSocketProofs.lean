import Rtvbp.TypeScript.WebSocket
import Rtvbp.TypeScript.Session.Proofs.SuperviseProofs

/-!
# Proofs: which end of the connection is a failure

`#finish` drops its error and `onClose` does not pass it on, so that the workers only see closed queues
and stop the session as if the peer had closed it. A rejected ping is different: the keepalive worker
holds the error itself, and it is three turns away from the session, where the readers that the
closed queues reject are at least four turns away.
-/

namespace Rtvbp.TypeScript.WebSocket

open Rtvbp.Lib

/-! ## Reports -/

section Reports

variable {life : Lifecycle Thrown}

/-- The first report decides the failure flag. -/
theorem deliver_first (h : life.aborted = false) (r : Report) :
    (r.deliver life).aborted = true ∧ (r.deliver life).stopFailed = r.fails := by
  cases r with
  | worker code error =>
    by_cases hc : (asSessionError error code).isClosed <;>
      simp [Report.deliver, Report.fails, h, hc, Lifecycle.requestStop_stopFailed_first]
  | audio error =>
    by_cases hc : (asSessionError error "media_read").isClosed <;>
      simp [Report.deliver, Report.fails, h, hc, Lifecycle.requestStop_stopFailed_first]
  | response error => simp [Report.deliver, Report.fails, h, Lifecycle.requestStop_stopFailed_first]

/-- A later report can only add a failure. -/
theorem deliver_aborted (h : life.aborted = true) (r : Report) :
    (r.deliver life).aborted = true ∧ (r.deliver life).state = life.state ∧
      (life.stopFailed = true → (r.deliver life).stopFailed = true) := by
  cases r with
  | worker code error => simp [Report.deliver, h]
  | audio error =>
    by_cases hc : (asSessionError error "media_read").isClosed <;>
      simp +contextual [Report.deliver, h, hc, Lifecycle.requestStop_state_of_aborted,
        Lifecycle.requestStop_stopFailed]
  | response error => simp [Report.deliver, h]

/-- The notices of a turn, delivered to a session that is stopping. -/
theorem deliverAll_aborted (h : life.aborted = true) (due : List Notice) :
    (due.foldl (fun life n => n.report.deliver life) life).aborted = true ∧
      (due.foldl (fun life n => n.report.deliver life) life).state = life.state ∧
      (life.stopFailed = true →
        (due.foldl (fun life n => n.report.deliver life) life).stopFailed = true) := by
  induction due generalizing life with
  | nil => exact ⟨h, rfl, id⟩
  | cons n due ih =>
    obtain ⟨h1, h2, h3⟩ := deliver_aborted h n.report
    obtain ⟨i1, i2, i3⟩ := ih h1
    exact ⟨i1, i2.trans h2, fun hf => i3 (h3 hf)⟩

/-- The notices of a turn, delivered to a running session: the first one decides. -/
theorem deliverAll_first (h : life.aborted = false) (n : Notice) (due : List Notice) :
    ((n :: due).foldl (fun life n => n.report.deliver life) life).aborted = true ∧
      (n.report.fails = true →
        ((n :: due).foldl (fun life n => n.report.deliver life) life).stopFailed = true) := by
  obtain ⟨h1, h2⟩ := deliver_first h n.report
  obtain ⟨i1, -, i3⟩ := deliverAll_aborted h1 due
  exact ⟨i1, fun hf => i3 (h2.trans hf)⟩

/-- A report is a stop request or nothing, so it keeps the invariant of the supervisor. -/
theorem inv_deliver {session : Supervise.State Thrown} (h : Supervise.Inv session) (r : Report) :
    Supervise.Inv { session with life := r.deliver session.life } := by
  have hstop : ∀ cause failed,
      Supervise.Inv { session with life := session.life.requestStop cause failed } :=
    fun cause failed =>
      (h.requestStop (t := { session with life := session.life.requestStop cause failed })
        cause failed rfl rfl rfl rfl).1
  cases r with
  | worker code error =>
    simp only [Report.deliver]
    split_ifs
    · exact h
    · exact hstop _ _
    · exact hstop _ _
  | audio error =>
    simp only [Report.deliver]
    split_ifs <;> exact hstop _ _
  | response error =>
    simp only [Report.deliver]
    split_ifs
    · exact h
    · exact hstop _ _

theorem inv_deliverAll {session : Supervise.State Thrown} (h : Supervise.Inv session)
    (due : List Notice) : Supervise.Inv { session with
      life := due.foldl (fun life n => n.report.deliver life) session.life } := by
  induction due generalizing session with
  | nil => exact h
  | cons n due ih => exact ih (inv_deliver h n.report)

end Reports

/-! ## Inboxes -/

section Inboxes

variable {μ : Type} {b b' : Inbox μ}

theorem arrive_open {m : μ} (h : b.arrive m = some b') : b'.queue.closed = false := by
  unfold Inbox.arrive at h
  split at h
  · cases h
  next q hq =>
    obtain rfl := Option.some.inj h
    exact AsyncQueue.closed_of_tryPush hq
  next q pushed _ hq =>
    obtain rfl := Option.some.inj h
    exact AsyncQueue.closed_of_tryPush hq

@[simp] theorem abort_closed : b.abort.queue.closed = b.queue.closed := by
  unfold Inbox.abort
  split_ifs <;> rfl

@[simp] theorem shift_closed : b.shift.1.queue.closed = b.queue.closed := by
  unfold Inbox.shift
  split
  · rfl
  next q hq => exact AsyncQueue.closed_of_shift hq
  next q v admits hq => exact AsyncQueue.closed_of_shift hq

/-- A reader is rejected at once only by a closed queue. -/
theorem closed_of_shift_rejected (h : b.shift.2 = true) : b.queue.closed = true := by
  unfold Inbox.shift at h
  split at h
  next hq => exact AsyncQueue.closed_of_shift_eq_none hq
  · cases h
  · cases h

end Inboxes

/-! ## The invariant -/

variable {μ : Type} {s t : State μ}

/-- The report of a rejected ping is ahead of every report that does not fail. -/
def State.FailureAhead (s : State μ) : Prop :=
  ∃ n ∈ s.notices, n.report.fails = true ∧ n.turns ≤ 2 ∧
    ∀ m ∈ s.notices, m.report.fails = false → n.turns < m.turns

/-- What holds along every run that drops no failure. -/
structure Inv (s : State μ) : Prop where
  session : Supervise.Inv s.session
  closed : s.closed = true → s.ended ≠ none
  attached : s.attached = false → s.closed = true
  /-- Nobody reports the end of an open connection. -/
  opened : s.ended = none → s.aborted = false → ∀ n ∈ s.notices, n.report.fails = true
  failure : s.ended = some .failure → s.aborted = false → s.keepalive = .over ∧ s.FailureAhead
  stopped : s.ended = some .stopped → s.aborted = false → s.stoppedLocally = true
  reported : s.aborted = true → (s.ended = some .failure → s.session.life.stopFailed = true) ∧
    (s.session.life.stopFailed = true ∨ s.ended = some .clean ∨ s.stoppedLocally = true)
  done : s.session.pc = .done → Classified s
  started : s.session.pc.started = false → s.keepalive = .off
  queues : s.controls.queue.closed = true ∨ s.binary.queue.closed = true → s.ended ≠ none

theorem inv_initial (capacity : Nat) (h : 0 < capacity) : Inv (initial capacity h : State μ) := by
  refine ⟨Supervise.inv_initial, ?_, ?_, ?_, ?_, ?_, ?_, ?_, fun _ => rfl, ?_⟩ <;>
    simp [initial, AsyncQueue.new, State.aborted, Supervise.initial, Lifecycle.new]

/-- A session that is torn down is aborted. -/
theorem Inv.aborted_of_done (h : Inv s) (hpc : s.session.pc = .done) : s.aborted = true :=
  (h.session.stopping (by rw [hpc]; rfl)).1

/-- The inboxes do not matter to the invariant, nor does the keepalive worker before it is over. -/
theorem Inv.of_same (h : Inv s) (hsession : t.session = s.session) (hclosed : t.closed = s.closed)
    (hattached : t.attached = s.attached) (hnotices : t.notices = s.notices)
    (hended : t.ended = s.ended) (hlocal : t.stoppedLocally = s.stoppedLocally)
    (hcontrols : t.controls.queue.closed = true → s.controls.queue.closed = true)
    (hbinary : t.binary.queue.closed = true → s.binary.queue.closed = true)
    (hkeepalive : s.keepalive = t.keepalive ∨ s.keepalive ≠ .over ∧ s.session.pc.started = true) :
    Inv t := by
  obtain ⟨h1, h2, h3, h4, h5, h6, h7, h8, h9, h10⟩ := h
  have haborted : t.aborted = s.aborted := by rw [State.aborted, hsession, State.aborted]
  have hahead : t.FailureAhead ↔ s.FailureAhead := by simp only [State.FailureAhead, hnotices]
  refine ⟨?_, ?_, ?_, ?_, ?_, ?_, ?_, ?_, ?_, ?_⟩
  · rwa [hsession]
  · rwa [hclosed, hended]
  · rwa [hattached, hclosed]
  · rwa [hended, haborted, hnotices]
  · rw [hended, haborted, hahead]
    refine fun he ha => ⟨?_, (h5 he ha).2⟩
    rcases hkeepalive with hk | ⟨hk, -⟩
    · rw [← hk]
      exact (h5 he ha).1
    · exact absurd (h5 he ha).1 hk
  · rwa [hended, haborted, hlocal]
  · rwa [haborted, hended, hlocal, hsession]
  · rwa [hsession, Classified, hended, hsession, hlocal]
  · rw [hsession]
    intro hs
    rcases hkeepalive with hk | ⟨-, hk⟩
    · rw [← hk]
      exact h9 hs
    · simp [hk] at hs
  · rw [hended]
    exact fun hq => h10 (hq.imp hcontrols hbinary)

theorem Inv.leaveAborted (h : Inv s) : Inv s.leaveAborted := by
  unfold State.leaveAborted
  split_ifs
  · exact h.of_same rfl rfl rfl rfl rfl rfl (by simp) id (.inl rfl)
  · exact h

/-- A new notice is harmless if it fails, or if it is far enough away. -/
theorem Inv.notify (h : Inv s) (turns : Nat) (report : Report)
    (hopened : s.ended = none → s.aborted = false → report.fails = true)
    (hahead : s.ended = some .failure → s.aborted = false → report.fails = true ∨ 2 < turns) :
    Inv (s.notify turns report) := by
  obtain ⟨h1, h2, h3, h4, h5, h6, h7, h8, h9, h10⟩ := h
  refine ⟨h1, h2, h3, fun he ha n hn => ?_, fun he ha => ⟨(h5 he ha).1, ?_⟩, h6, h7, h8, h9, h10⟩
  · rcases List.mem_append.mp hn with hn | hn
    · exact h4 he ha n hn
    · rw [List.mem_singleton.mp hn]
      exact hopened he ha
  · obtain ⟨n, hn, hf, hle, hall⟩ := (h5 he ha).2
    refine ⟨n, List.mem_append_left _ hn, hf, hle, fun m hm hmf => ?_⟩
    rcases List.mem_append.mp hm with hm | hm
    · exact hall m hm hmf
    · obtain rfl := List.mem_singleton.mp hm
      rcases hahead he ha with hr | ht
      · simp [hr] at hmf
      · exact lt_of_le_of_lt hle ht

/-- The rejections that closing the queues causes are at least four turns away. -/
theorem closureNotices_far (n : Notice) (hn : n ∈ s.closureNotices) : 2 < n.turns := by
  simp only [State.closureNotices, List.mem_append] at hn
  rcases hn with (hn | hn) | hn <;> split_ifs at hn <;> simp at hn <;> simp [hn]

theorem Inv.finishQueues (h : Inv s) (hended : s.ended ≠ none) : Inv s.finishQueues := by
  unfold State.finishQueues
  by_cases hatt : s.attached = true
  · rw [if_pos hatt]
    obtain ⟨h1, h2, h3, h4, h5, h6, h7, h8, h9, h10⟩ := h
    refine ⟨h1, fun _ => hended, fun _ => rfl, fun he => absurd he hended, fun he ha => ?_, h6, h7, h8, fun hs => ?_,
      fun _ => hended⟩
    · obtain ⟨hk, n, hn, hf, hle, hall⟩ := h5 he ha
      refine ⟨by simp [hk], n, List.mem_append_left _ hn, hf, hle, fun m hm hmf => ?_⟩
      rcases List.mem_append.mp hm with hm | hm
      · exact hall m hm hmf
      · exact lt_of_le_of_lt hle (closureNotices_far m hm)
    · simp [h9 hs]
  · rw [if_neg hatt]
    exact h

theorem endBy_ended (reason : End) : (s.endBy reason).ended ≠ none := by
  unfold State.endBy
  by_cases h : s.ended.isSome
  · rw [if_pos h]
    exact Option.isSome_iff_ne_none.mp h
  · rw [if_neg h]
    simp

/-- The end of a connection, unless it is a failure or a close on this side before any stop. -/
theorem Inv.endBy (h : Inv s) (reason : End)
    (hreason : s.aborted = false → s.ended = none → reason = .clean) : Inv (s.endBy reason) := by
  unfold State.endBy
  split_ifs with hsome haborted
  · exact h
  · have hnone : s.ended = none := by simpa using hsome
    obtain ⟨h1, h2, h3, h4, h5, h6, h7, h8, h9, h10⟩ := h
    have hlocal := (h7 haborted).2
    refine ⟨h1, fun _ => by simp, h3, by simp, by simp, fun _ ha => absurd haborted (by simp_all [State.aborted]),
      fun _ => ⟨by simp, by simpa [hnone] using hlocal⟩, fun hpc => ⟨by simp, fun hst => ?_⟩, h9, by simp⟩
    simpa [hnone] using (h8 hpc).2 hst
  · have hnone : s.ended = none := by simpa using hsome
    have hfalse : s.aborted = false := by simpa using haborted
    obtain rfl := hreason hfalse hnone
    obtain ⟨h1, h2, h3, h4, h5, h6, h7, h8, h9, h10⟩ := h
    refine ⟨h1, fun _ => by simp, h3, by simp, by simp, by simp, fun ha => ⟨by simp, by simp⟩,
      fun hpc => ⟨by simp, by simp⟩, h9, by simp⟩

/-- `#finish` after the connection has ended, or in a session that is stopping. -/
theorem Inv.finish (h : Inv s) (error : Thrown) (hended : s.aborted = false → s.ended ≠ none) :
    Inv (s.finish error) := by
  unfold State.finish
  split_ifs
  · exact h
  · exact (h.endBy .failure fun ha he => absurd he (hended ha)).finishQueues (endBy_ended _)

/-- A turn delivers the due notices. A rejected ping is among the first of them. -/
theorem Inv.turn (h : Inv s) : Inv s.turn := by
  have hsession : Supervise.Inv s.turn.session := inv_deliverAll h.session _
  cases ha : s.aborted with
  | true =>
    obtain ⟨d1, d2, d3⟩ := deliverAll_aborted ha (s.notices.filter (·.turns = 0))
    have haborted : s.turn.aborted = true := d1
    refine ⟨hsession, h.closed, h.attached, fun _ hf => ?_, fun _ hf => ?_, fun _ hf => ?_, fun _ => ?_,
      fun hpc => ?_, h.started, h.queues⟩
    · simp [haborted] at hf
    · simp [haborted] at hf
    · simp [haborted] at hf
    · obtain ⟨r1, r2⟩ := h.reported ha
      exact ⟨fun he => d3 (r1 he), r2.imp_left d3⟩
    · obtain ⟨c1, c2⟩ := h.done hpc
      exact ⟨fun he => d2.trans (c1 he), fun hst => c2 (d2.symm.trans hst)⟩
  | false =>
    have hpc : s.turn.session.pc ≠ .done := fun hpc => by
      have := h.aborted_of_done hpc
      simp [ha] at this
    cases hdue : s.notices.filter (·.turns = 0) with
    | nil =>
      -- Nothing is due: every notice comes one turn closer.
      have hlate : ∀ n ∈ s.notices, n.turns ≠ 0 := by simpa using List.filter_eq_nil_iff.mp hdue
      have hlife : s.turn.session = s.session := by simp [State.turn, hdue]
      have hnotices : s.turn.notices = s.notices.map fun n => { n with turns := n.turns - 1 } := by
        simp only [State.turn]
        rw [List.filter_eq_self.mpr (by simpa using hlate)]
      have haborted : s.turn.aborted = false := by rw [State.aborted, hlife]; exact ha
      refine ⟨hsession, h.closed, h.attached, fun he _ n hn => ?_, fun he _ => ⟨(h.failure he ha).1, ?_⟩,
        fun he _ => h.stopped he ha, (fun hf => by simp [haborted] at hf),
        fun hd => absurd hd hpc, h.started, h.queues⟩
      · rw [hnotices] at hn
        obtain ⟨m, hm, rfl⟩ := List.mem_map.mp hn
        exact h.opened he ha m hm
      · obtain ⟨n, hn, hf, hle, hall⟩ := (h.failure he ha).2
        unfold State.FailureAhead
        rw [hnotices]
        refine ⟨_, List.mem_map_of_mem hn, hf, (Nat.sub_le _ _).trans hle, fun m' hm' hmf => ?_⟩
        obtain ⟨m, hm, rfl⟩ := List.mem_map.mp hm'
        have hlt := hall m hm hmf
        have hn0 := hlate n hn
        simp only
        omega
    | cons n due =>
      obtain ⟨hn, hn0⟩ : n ∈ s.notices ∧ n.turns = 0 := by
        have : n ∈ s.notices.filter (·.turns = 0) := by rw [hdue]; exact List.mem_cons_self
        simpa using List.mem_filter.mp this
      have hlife : s.turn.session.life =
          (n :: due).foldl (fun life n => n.report.deliver life) s.session.life := by
        simp only [State.turn, hdue]
      obtain ⟨d1, d2⟩ := deliverAll_first ha n due
      rw [← hlife] at d1 d2
      refine ⟨hsession, h.closed, h.attached, fun _ hf => absurd d1 (by simp [← hf, State.aborted]),
        fun _ hf => absurd d1 (by simp [← hf, State.aborted]),
        fun _ hf => absurd d1 (by simp [← hf, State.aborted]), fun _ => ⟨fun he => d2 ?_, ?_⟩,
        fun hd => absurd hd hpc, h.started, h.queues⟩
      · by_contra hnf
        obtain ⟨p, -, -, -, hall⟩ := (h.failure he ha).2
        have := hall n hn (by simpa using hnf)
        omega
      · cases hf : n.report.fails with
        | true => exact .inl (d2 hf)
        | false =>
          -- A report that does not fail comes only from a connection that has ended cleanly or here.
          cases hended : s.ended with
          | none => simp [h.opened hended ha n hn] at hf
          | some reason =>
            cases reason with
            | clean => exact .inr (.inl hended)
            | stopped => exact .inr (.inr (h.stopped hended ha))
            | failure =>
              obtain ⟨p, -, -, -, hall⟩ := (h.failure hended ha).2
              have := hall n hn hf
              omega

/-- The transport may be marked as closed once the connection has ended. -/
theorem Inv.markClosed (h : Inv s) (hended : s.ended ≠ none) : Inv { s with closed := true } := by
  obtain ⟨h1, h2, h3, h4, h5, h6, h7, h8, h9, h10⟩ := h
  exact ⟨h1, fun _ => hended, fun _ => rfl, h4, h5, h6, h7, h8, h9, h10⟩

theorem Inv.tearDown (h : Inv s) : Inv s.tearDown := by
  unfold State.tearDown
  split
  · exact h.of_same rfl rfl rfl rfl rfl rfl id (by simp) (.inl rfl)
  next hpc =>
    have haborted : s.aborted = true := (h.session.stopping (by rw [hpc]; rfl)).1
    exact (h.endBy .stopped fun ha => by simp [haborted] at ha).markClosed (endBy_ended _)
  · exact h

/-! ## The steps -/

section Steps

variable {config : Supervise.Config}

/-- The terminal state, once it is set from the failure flag. -/
theorem classified_of_reported {session : Supervise.State Thrown} {ended : Option End} {stopped : Bool}
    (hstate : session.life.state = if session.life.stopFailed then .failed else .closed)
    (hfailure : ended = some .failure → session.life.stopFailed = true)
    (hclosed : session.life.stopFailed = true ∨ ended = some .clean ∨ stopped = true) :
    (ended = some .failure → session.life.state = .failed) ∧
      (session.life.state = .closed → ended = some .clean ∨ stopped = true) := by
  rw [hstate]
  refine ⟨fun he => by simp [hfailure he], fun hst => hclosed.resolve_left fun hf => ?_⟩
  simp [hf] at hst

/-- No step of the supervisor takes a stop back. -/
theorem not_aborted_of_step {a : Supervise.Action Thrown} {session : Supervise.State Thrown}
    (hstep : Supervise.step config stoppedWhileStarting missingMonitor s.session a = some session)
    (ha : session.life.aborted = false) : s.aborted = false := by
  rcases Supervise.step_advances hstep with ⟨hsame, -⟩ | ⟨hfalse, -, -⟩
  · exact hsame.symm.trans ha
  · exact hfalse

/-- A step of the supervisor. -/
theorem Inv.supervise (h : Inv s) {a : Supervise.Action Thrown} {session : Supervise.State Thrown}
    (hstep : Supervise.step config stoppedWhileStarting missingMonitor s.session a = some session)
    (hdrop : ¬ DropsFailure s (.session a)) :
    Inv { s with
      session := session
      stoppedLocally := s.stoppedLocally || (!s.aborted && s.session.stopsLocally a) } := by
  obtain ⟨hinv, -⟩ := Supervise.step_spec h.session hstep
  have hstarted : session.pc.started = false → s.keepalive = .off := fun hs =>
    h.started (by
      by_contra hne
      simp [(Supervise.step_started hstep).1 (by simpa using hne)] at hs)
  have hreported : session.life.aborted = true →
      (s.ended = some .failure → session.life.stopFailed = true) ∧
      (session.life.stopFailed = true ∨ s.ended = some .clean ∨
        (s.stoppedLocally || (!s.aborted && s.session.stopsLocally a)) = true) := by
    intro haborted
    rcases Supervise.step_advances hstep with ⟨hsame, hmono⟩ | ⟨hfalse, -, hfirst⟩
    · obtain ⟨r1, r2⟩ := h.reported (hsame.symm.trans haborted)
      refine ⟨fun he => hmono (r1 he), ?_⟩
      rcases r2 with hf | hc | hl
      · exact .inl (hmono hf)
      · exact .inr (.inl hc)
      · exact .inr (.inr (by simp [hl]))
    · have hnot : s.aborted = false := hfalse
      refine ⟨fun he => hfirst.resolve_right fun hl => hdrop ⟨hnot, he, hl⟩, ?_⟩
      exact hfirst.imp_right fun hl => .inr (by simp [hnot, hl])
  refine ⟨hinv, h.closed, h.attached, fun he ha => ?_, fun he ha => ?_, fun he ha => ?_, hreported,
    fun hpc => ?_, hstarted, h.queues⟩
  · exact h.opened he (not_aborted_of_step hstep ha)
  · exact h.failure he (not_aborted_of_step hstep ha)
  · simp [h.stopped he (not_aborted_of_step hstep ha)]
  · have haborted : session.life.aborted = true := (hinv.stopping (by rw [hpc]; rfl)).1
    rcases Supervise.step_done h.session hstep hpc with ⟨hdone, hsame⟩ | hstate
    · obtain ⟨c1, c2⟩ := h.done hdone
      refine ⟨fun he => hsame.trans (c1 he), fun hst => ?_⟩
      exact (c2 (hsame.symm.trans hst)).imp_right fun hl => by simp [hl]
    · exact classified_of_reported hstate (hreported haborted).1 (hreported haborted).2

/-- What follows a step of the supervisor. -/
theorem Inv.follow (h : Inv s) {a : Supervise.Action Thrown} {session : Supervise.State Thrown}
    (hstep : Supervise.step config stoppedWhileStarting missingMonitor s.session a = some session)
    (hdrop : ¬ DropsFailure s (.session a)) : Inv (s.follow config a session) := by
  have hinv := h.supervise hstep hdrop
  unfold State.follow
  dsimp only
  split
  next error =>
    -- The workers are started for the first time, so the keepalive worker is not over.
    obtain ⟨hbefore, hafter⟩ := (Supervise.step_started hstep).2 ⟨error, rfl⟩
    have hkeepalive := h.started hbefore
    refine (Inv.leaveAborted ?_).tearDown
    exact hinv.of_same rfl rfl rfl rfl rfl rfl id id (.inr ⟨by simp [hkeepalive], hafter⟩)
  next =>
    have haborted : session.life.aborted = true := by
      refine ((Supervise.step_spec h.session hstep).1.stopping ?_).1
      simp only [Supervise.step, Option.ite_none_right_eq_some] at hstep
      rw [← Option.some.inj hstep.2]
      rfl
    refine (hinv.endBy .stopped fun ha => ?_).finishQueues (endBy_ended _)
    simp [State.aborted, haborted] at ha
  next => exact hinv.leaveAborted.tearDown

/-- A keepalive worker that has not ended has been started. -/
theorem Inv.started_of_keepalive (h : Inv s) (hk : s.keepalive ≠ .off) :
    s.session.pc.started = true := by
  by_contra hne
  exact hk (h.started (by simpa using hne))

/-- The owner of the transport closes it. -/
theorem Inv.closeTransport (h : Inv s) : Inv { s.endBy .stopped with
    closed := true
    stoppedLocally := s.stoppedLocally || (!s.aborted && s.ended.isNone) } := by
  cases hended : s.ended with
  | some reason =>
    have hsame : s.endBy .stopped = s := by simp [State.endBy, hended]
    rw [hsame]
    refine (h.markClosed (by simp [hended])).of_same rfl rfl rfl rfl rfl ?_ id id (.inl rfl)
    simp
  | none =>
    cases ha : s.aborted with
    | true =>
      refine (Inv.markClosed (h.endBy .stopped fun hf => by simp [ha] at hf) (endBy_ended _)).of_same rfl rfl
        rfl rfl rfl ?_ id id (.inl rfl)
      simp [State.endBy, hended]
    | false =>
      have hend : s.endBy .stopped = { s with ended := some .stopped } := by simp [State.endBy, hended, ha]
      rw [hend]
      obtain ⟨h1, h2, h3, h4, h5, h6, h7, h8, h9, h10⟩ := h
      refine ⟨h1, by simp, fun _ => rfl, by simp, by simp, by simp, fun hf => ?_, fun hpc => ⟨by simp, by simp⟩,
        h9, by simp⟩
      exact absurd ha (by simp [State.aborted] at hf ⊢; exact hf)

/-- The code of a worker does not turn an error into `closed`. -/
theorem asSessionError_isClosed (error : Thrown) {code : String} (hcode : code ≠ "closed") :
    (asSessionError error code).isClosed = error.isClosed := by
  cases error <;> simp [asSessionError, Thrown.isClosed, hcode]

theorem finishQueues_session : s.finishQueues.session = s.session := by
  unfold State.finishQueues
  split_ifs <;> rfl

theorem finishQueues_ended : s.finishQueues.ended = s.ended := by
  unfold State.finishQueues
  split_ifs <;> rfl

theorem finishQueues_keepalive (hk : s.keepalive ≠ .awaiting) : s.finishQueues.keepalive = s.keepalive := by
  unfold State.finishQueues
  split_ifs <;> rfl

theorem endBy_same (reason : End) :
    (s.endBy reason).session = s.session ∧ (s.endBy reason).keepalive = s.keepalive := by
  unfold State.endBy
  by_cases h : s.ended.isSome
  · rw [if_pos h]
    exact ⟨rfl, rfl⟩
  · rw [if_neg h]
    exact ⟨rfl, rfl⟩

theorem finish_session (error : Thrown) : (s.finish error).session = s.session := by
  unfold State.finish
  split_ifs
  · rfl
  · rw [finishQueues_session, (endBy_same _).1]

theorem finish_keepalive (error : Thrown) (hk : s.keepalive ≠ .awaiting) :
    (s.finish error).keepalive = s.keepalive := by
  unfold State.finish
  split_ifs
  · rfl
  · rw [finishQueues_keepalive (by rwa [(endBy_same _).2]), (endBy_same _).2]

/-- A rejected ping that ends the connection: the keepalive worker is ahead with its error. -/
theorem Inv.pingRejects_first (h : Inv s) {error : Thrown} (hk : s.keepalive = .pinging)
    (ha : s.aborted = false) (he : s.ended = none) (herror : error.isClosed = false) :
    Inv ({ s.finish error with keepalive := .over }.notify 2 (.worker "keepalive" error)) := by
  have hclosed : s.closed = false := by
    by_contra hne
    exact h.closed (by simpa using hne) he
  have hattached : s.attached = true := by
    by_contra hne
    simp [h.attached (by simpa using hne)] at hclosed
  have hfails : (Report.worker "keepalive" error).fails = true := by
    simp [Report.fails, asSessionError_isClosed error (show "keepalive" ≠ "closed" by decide), herror]
  have hnotices : (s.finish error).notices = s.notices ++ s.closureNotices := by
    simp [State.finish, State.endBy, State.finishQueues, hclosed, he, hattached]
    rfl
  have hended : (s.finish error).ended = some .failure := by
    simp [State.finish, State.endBy, State.finishQueues, hclosed, he, ha, hattached]
  have hmarked : (s.finish error).closed = true := by
    simp [State.finish, State.endBy, State.finishQueues, hclosed, he, hattached]
  have hsession := finish_session (s := s) error
  have haborted : (s.finish error).aborted = false := by rw [State.aborted, hsession]; exact ha
  have hinv : Supervise.Inv (s.finish error).session := by rw [hsession]; exact h.session
  refine ⟨hinv, fun _ => ?_, fun _ => hmarked,
    fun hn => ?_, fun _ _ => ⟨rfl, ?_⟩, fun hs => ?_, fun hf => ?_, fun hpc => ?_, fun hs => ?_, fun _ => ?_⟩
  · simp [State.notify, hended]
  · simp [State.notify, hended] at hn
  · refine ⟨⟨2, .worker "keepalive" error⟩, by simp [State.notify], hfails, le_rfl, fun m hm hmf => ?_⟩
    simp only [State.notify, hnotices, List.mem_append, List.mem_singleton] at hm
    rcases hm with (hm | hm) | rfl
    · simp [h.opened he ha m hm] at hmf
    · exact closureNotices_far m hm
    · simp [hfails] at hmf
  · simp [State.notify, hended] at hs
  · exact absurd haborted (by simp [State.aborted] at hf ⊢; exact hf)
  · have hdone : s.session.pc = .done := by rw [← hsession]; exact hpc
    simp [h.aborted_of_done hdone] at ha
  · have hs' : s.session.pc.started = false := by rw [← hsession]; exact hs
    simp [h.started hs'] at hk
  · simp [State.notify, hended]

/-- A rejected ping: the keepalive worker reports its error. -/
theorem Inv.pingRejects (h : Inv s) {error : Thrown} (hk : s.keepalive = .pinging)
    (hdrop : ¬ DropsFailure s (.pingRejects error)) :
    Inv ({ s.finish error with keepalive := .over }.notify 2 (.worker "keepalive" error)) := by
  by_cases hfirst : s.aborted = false ∧ s.ended = none
  · obtain ⟨ha, he⟩ := hfirst
    refine h.pingRejects_first hk ha he ?_
    by_contra hne
    exact hdrop ⟨ha, he, by simpa using hne⟩
  · -- The connection has ended before, and not by a rejected ping, or the session is stopping.
    have hfinish : Inv (s.finish error) := h.finish error fun ha he => hfirst ⟨ha, he⟩
    have hsession := finish_session (s := s) error
    have hkeepalive : (s.finish error).keepalive = .pinging := by
      rw [finish_keepalive error (by simp [hk]), hk]
    have hstarted : (s.finish error).session.pc.started = true :=
      hfinish.started_of_keepalive (by simp [hkeepalive])
    refine Inv.notify ?_ 2 _ (fun he ha => ?_) fun he ha => ?_
    · exact hfinish.of_same rfl rfl rfl rfl rfl rfl id id (.inr ⟨by simp [hkeepalive], hstarted⟩)
    · refine absurd ⟨?_, ?_⟩ hfirst
      · rw [State.aborted, ← hsession]
        exact ha
      · by_contra hne
        have hended : (s.finish error).ended ≠ none := by
          unfold State.finish
          split_ifs
          · exact hne
          · rw [finishQueues_ended]
            exact endBy_ended _
        exact hended he
    · simp [(hfinish.failure he ha).1] at hkeepalive

/-- Every step that drops no failure keeps the invariant. -/
theorem Inv.step (h : Inv s) {a : Action μ} (hdrop : ¬ DropsFailure s a)
    (hstep : step config s a = some t) : Inv t := by
  cases a with
  | session a =>
    simp only [WebSocket.step, Option.map_eq_some_iff] at hstep
    obtain ⟨session, hsession, rfl⟩ := hstep
    exact h.follow hsession hdrop
  | turn =>
    simp only [WebSocket.step, Option.ite_none_right_eq_some] at hstep
    obtain rfl := Option.some.inj hstep.2
    exact h.turn.leaveAborted
  | text m =>
    simp only [WebSocket.step, Option.ite_none_right_eq_some] at hstep
    obtain rfl := Option.some.inj hstep.2
    cases harrive : s.controls.arrive m with
    | some b =>
      have hopen := arrive_open harrive
      exact h.of_same rfl rfl rfl rfl rfl rfl (by simp [State.receive, hopen]) id (.inl rfl)
    | none =>
      exact Inv.finish h (.session "inbound_overflow" "WebSocket inbound queue is full")
        fun ha he => hdrop ⟨ha, he, harrive⟩
  | binary m =>
    simp only [WebSocket.step, Option.ite_none_right_eq_some] at hstep
    obtain rfl := Option.some.inj hstep.2
    cases harrive : s.binary.arrive m with
    | some b =>
      have hopen := arrive_open harrive
      exact h.of_same rfl rfl rfl rfl rfl rfl id (by simp [State.receive, hopen]) (.inl rfl)
    | none =>
      exact Inv.finish h (.session "inbound_overflow" "WebSocket inbound queue is full")
        fun ha he => hdrop ⟨ha, he, harrive⟩
  | closes error =>
    simp only [WebSocket.step, Option.ite_none_right_eq_some] at hstep
    obtain rfl := Option.some.inj hstep.2
    refine (h.endBy _ fun ha he => ?_).finishQueues (endBy_ended _)
    rw [if_neg fun herror => hdrop ⟨ha, he, herror⟩]
  | closeTransport =>
    obtain rfl := Option.some.inj hstep
    exact h.closeTransport
  | socketCloses =>
    simp only [WebSocket.step, Option.ite_none_right_eq_some] at hstep
    obtain rfl := Option.some.inj hstep.2
    exact h.finishQueues (h.closed hstep.1)
  | sendTextRejects error responding =>
    obtain rfl := Option.some.inj hstep
    have hfinish : Inv (s.finish error) := h.finish error fun ha he => hdrop ⟨ha, he⟩
    split_ifs
    · exact hfinish.notify 6 _ (fun _ _ => rfl) fun _ _ => .inl rfl
    · exact hfinish
  | sendBinaryRejects error =>
    obtain rfl := Option.some.inj hstep
    exact h.finish error fun ha he => hdrop ⟨ha, he⟩
  | responseRefused =>
    simp only [WebSocket.step, Option.ite_none_right_eq_some] at hstep
    obtain rfl := Option.some.inj hstep.2
    exact h.notify 6 _ (fun _ _ => rfl) fun _ _ => .inl rfl
  | readControl =>
    simp only [WebSocket.step, Option.ite_none_right_eq_some] at hstep
    obtain rfl := Option.some.inj hstep.2
    have hread : Inv { s with controls := s.controls.shift.1 } :=
      h.of_same rfl rfl rfl rfl rfl rfl (by simp) id (.inl rfl)
    split_ifs with hrejected
    · refine hread.notify 4 _ (fun he _ => ?_) fun _ _ => .inr (by decide)
      exact absurd he (h.queues (.inl (closed_of_shift_rejected hrejected)))
    · exact hread
  | bindAudio =>
    simp only [WebSocket.step, Option.ite_none_right_eq_some] at hstep
    obtain rfl := Option.some.inj hstep.2
    exact h.of_same rfl rfl rfl rfl rfl rfl id id (.inl rfl)
  | readFrame =>
    simp only [WebSocket.step, Option.ite_none_right_eq_some] at hstep
    obtain rfl := Option.some.inj hstep.2
    have hread : Inv { s with binary := s.binary.shift.1 } :=
      h.of_same rfl rfl rfl rfl rfl rfl id (by simp) (.inl rfl)
    split_ifs with hrejected
    · refine hread.notify 3 _ (fun he _ => ?_) fun _ _ => .inr (by decide)
      exact absurd he (h.queues (.inr (closed_of_shift_rejected hrejected)))
    · exact hread
  | frameRejected =>
    simp only [WebSocket.step, Option.ite_none_right_eq_some] at hstep
    obtain rfl := Option.some.inj hstep.2
    refine Inv.notify ?_ 1 _ (fun _ _ => rfl) fun _ _ => .inl rfl
    exact h.of_same rfl rfl rfl rfl rfl rfl id id (.inl rfl)
  | keepaliveWakes =>
    simp only [WebSocket.step, Option.ite_none_right_eq_some] at hstep
    obtain ⟨⟨hk, -⟩, hstep⟩ := hstep
    obtain rfl := Option.some.inj hstep
    have hstarted := h.started_of_keepalive (by simp [hk])
    split_ifs with hclosed
    · refine Inv.notify ?_ 2 _ (fun he _ => absurd he (h.closed hclosed)) fun he ha => ?_
      · exact h.of_same rfl rfl rfl rfl rfl rfl id id (.inr ⟨by simp [hk], hstarted⟩)
      · simp [(h.failure he ha).1] at hk
    · exact h.of_same rfl rfl rfl rfl rfl rfl id id (.inr ⟨by simp [hk], hstarted⟩)
  | pingFulfills =>
    simp only [WebSocket.step, Option.ite_none_right_eq_some] at hstep
    obtain ⟨hk, hstep⟩ := hstep
    obtain rfl := Option.some.inj hstep
    exact h.of_same rfl rfl rfl rfl rfl rfl id id
      (.inr ⟨by simp [hk], h.started_of_keepalive (by simp [hk])⟩)
  | pingRejects error =>
    simp only [WebSocket.step, Option.ite_none_right_eq_some] at hstep
    obtain ⟨hk, hstep⟩ := hstep
    obtain rfl := Option.some.inj hstep
    exact h.pingRejects hk hdrop
  | pongResult =>
    simp only [WebSocket.step, Option.ite_none_right_eq_some] at hstep
    obtain ⟨hk, hstep⟩ := hstep
    obtain rfl := Option.some.inj hstep
    exact h.of_same rfl rfl rfl rfl rfl rfl id id
      (.inr ⟨by simp [hk], h.started_of_keepalive (by simp [hk])⟩)
  | keepaliveTimesOut =>
    simp only [WebSocket.step, Option.ite_none_right_eq_some] at hstep
    obtain ⟨hk, hstep⟩ := hstep
    obtain rfl := Option.some.inj hstep
    refine Inv.notify ?_ 1 _ (fun _ _ => rfl) fun _ _ => .inl rfl
    exact h.of_same rfl rfl rfl rfl rfl rfl id id
      (.inr ⟨by simp [hk], h.started_of_keepalive (by simp [hk])⟩)

/-- In every run that drops no failure on its way, the terminal state fits the end of the connection. -/
theorem classified_of_not_dropsFailure (config : Supervise.Config) (capacity : Nat) (h : 0 < capacity)
    (schedule : List (Action μ)) (s : State μ)
    (hexec : (machine config capacity h).exec (initial capacity h) schedule = some s)
    (hterminal : s.session.terminal)
    (halong : (machine config capacity h).Along (fun s a => ¬ DropsFailure s a) (initial capacity h)
      schedule) : Classified s :=
  (Machine.Along.invariant (I := Inv) (fun _ _ _ hs hdrop hstep => hs.step hdrop hstep)
    (inv_initial capacity h) halong hexec).done hterminal

end Steps

/-- A given transport with keepalive. -/
def monitoredConfig : Supervise.Config where
  transport := some ⟨true, true, false⟩
  keepalive := true

/-- The session becomes active, with its reader waiting for a message. -/
def activation : List (Action String) :=
  [.session .run, .session .connect, .session (.start none), .readControl, .session .beginFulfills,
    .session .began]

/-- The teardown of a stopped session. -/
def teardown : List (Action String) :=
  [.session .wake, .session (.audioCloses none), .session (.transportCloses none),
    .session (.workersJoin none)]

/-- A ping is rejected, and the keepalive worker reports it before the reader reports the closed
queue. -/
def pingRun : List (Action String) :=
  activation ++ [.keepaliveWakes, .pingRejects (.other "write EPIPE"), .turn, .turn, .turn, .turn, .turn,
    .turn] ++ teardown

/-- The state at the end of `pingRun`. -/
def pingEnd : State String :=
  ((machine monitoredConfig 1 (by decide)).exec (initial 1 (by decide)) pingRun).get (by decide)

theorem pingRun_classified :
    (machine monitoredConfig 1 (by decide)).exec (initial 1 (by decide)) pingRun = some pingEnd ∧
      pingEnd.ended = some .failure ∧ pingEnd.session.life.state = .failed ∧ Classified pingEnd :=
  ⟨(Option.some_get _).symm, by decide, by decide,
    classified_of_not_dropsFailure monitoredConfig 1 (by decide) pingRun pingEnd
      (Option.some_get _).symm (show pingEnd.session.pc = .done by decide) (by decide)⟩

/-- The socket reports its close with an error, and the reader reports the closed queue. -/
def resetRun : List (Action String) :=
  activation ++ [.closes (some (.other "read ECONNRESET")), .turn, .turn, .turn, .turn, .turn, .turn] ++
    teardown

/-- The session ends as `closed` although the connection failed. -/
theorem resetRun_not_classified :
    ∃ s, (machine monitoredConfig 1 (by decide)).exec (initial 1 (by decide)) resetRun = some s ∧
      s.session.terminal ∧ s.ended = some .failure ∧ s.session.life.state = .closed ∧ ¬ Classified s :=
  ⟨_, rfl, rfl, rfl, rfl, fun h => absurd (h.1 rfl) (by decide)⟩

end Rtvbp.TypeScript.WebSocket
