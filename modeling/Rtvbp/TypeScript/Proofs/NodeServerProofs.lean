import Rtvbp.TypeScript.NodeServer
import Rtvbp.TypeScript.Proofs.WebSocketProofs

/-!
# Early events of the Node server

The listeners of a socket come with the session, after the promise of `createHandler`. What the socket has
emitted before is lost; nothing is lost afterwards, as long as the queues have room.
-/

namespace Rtvbp.TypeScript.NodeServer

open Rtvbp.Lib

variable {μ : Type}

/-! ## What a step of the session over its transport can do -/

section Session

variable {config : Supervise.Config} {s t : WebSocket.State μ} {a : WebSocket.Action μ}

theorem attached_endBy (reason : WebSocket.End) : (s.endBy reason).attached = s.attached := by
  unfold WebSocket.State.endBy
  split <;> rfl

theorem attached_finishQueues : s.finishQueues.attached = false := by
  unfold WebSocket.State.finishQueues
  split
  · rfl
  · next h => simpa using h

theorem attached_finish (error : WebSocket.Thrown) (h : s.attached = false) : (s.finish error).attached = false := by
  unfold WebSocket.State.finish
  split
  · exact h
  · exact attached_finishQueues

theorem attached_leaveAborted : s.leaveAborted.attached = s.attached := by
  unfold WebSocket.State.leaveAborted
  split <;> rfl

theorem attached_tearDown : s.tearDown.attached = s.attached := by
  unfold WebSocket.State.tearDown
  split
  · rfl
  · exact attached_endBy _
  · rfl

theorem attached_follow (b : Supervise.Action WebSocket.Thrown) (session : Supervise.State WebSocket.Thrown)
    (h : s.attached = false) : (s.follow config b session).attached = false := by
  cases b with
  | start error =>
    show (((WebSocket.State.startWorkers _ config).leaveAborted).tearDown).attached = false
    rw [attached_tearDown, attached_leaveAborted]
    exact h
  | transportCloses error =>
    cases error with
    | none => exact attached_finishQueues
    | some error =>
      show ((WebSocket.State.leaveAborted _).tearDown).attached = false
      rw [attached_tearDown, attached_leaveAborted]
      exact h
  | _ =>
    show ((WebSocket.State.leaveAborted _).tearDown).attached = false
    rw [attached_tearDown, attached_leaveAborted]
    exact h

/-- A transport that has ended is not opened again. -/
theorem attached_step (ht : WebSocket.step config s a = some t) (h : s.attached = false) :
    t.attached = false := by
  cases a with
  | session b =>
    obtain ⟨session, -, rfl⟩ := Option.map_eq_some_iff.mp ht
    exact attached_follow b session h
  | turn =>
    simp only [WebSocket.step, Option.ite_none_right_eq_some] at ht
    obtain ⟨-, ht⟩ := ht
    cases ht
    rw [attached_leaveAborted]
    exact h
  | text m | binary m | closes error =>
    simp only [WebSocket.step, h, Bool.false_eq_true, if_false] at ht
    cases ht
  | closeTransport =>
    cases ht
    show (s.endBy .stopped).attached = false
    rw [attached_endBy]
    exact h
  | socketCloses =>
    simp only [WebSocket.step, Option.ite_none_right_eq_some] at ht
    obtain ⟨-, ht⟩ := ht
    cases ht
    exact attached_finishQueues
  | sendTextRejects error responding =>
    cases ht
    split <;> exact attached_finish error h
  | sendBinaryRejects error =>
    cases ht
    exact attached_finish error h
  | pingRejects error =>
    simp only [WebSocket.step, Option.ite_none_right_eq_some] at ht
    obtain ⟨-, ht⟩ := ht
    cases ht
    exact attached_finish error h
  | responseRefused | bindAudio | frameRejected | pingFulfills | pongResult | keepaliveTimesOut =>
    simp only [WebSocket.step, Option.ite_none_right_eq_some] at ht
    obtain ⟨-, ht⟩ := ht
    cases ht
    exact h
  | readControl | readFrame | keepaliveWakes =>
    simp only [WebSocket.step, Option.ite_none_right_eq_some] at ht
    obtain ⟨-, ht⟩ := ht
    cases ht
    split <;> exact h

theorem session_leaveAborted : s.leaveAborted.session = s.session := by
  unfold WebSocket.State.leaveAborted
  split <;> rfl

theorem session_endBy (reason : WebSocket.End) : (s.endBy reason).session = s.session := by
  unfold WebSocket.State.endBy
  split <;> rfl

theorem session_tearDown : s.tearDown.session = s.session := by
  unfold WebSocket.State.tearDown
  split
  · rfl
  · exact session_endBy _
  · rfl

theorem session_follow (b : Supervise.Action WebSocket.Thrown)
    (session : Supervise.State WebSocket.Thrown) : (s.follow config b session).session = session := by
  cases b with
  | start error =>
    show (((WebSocket.State.startWorkers _ config).leaveAborted).tearDown).session = session
    rw [session_tearDown, session_leaveAborted]
    rfl
  | transportCloses error =>
    cases error with
    | none =>
      show ((WebSocket.State.endBy _ .stopped).finishQueues).session = session
      rw [WebSocket.finishQueues_session, session_endBy]
    | some error =>
      show ((WebSocket.State.leaveAborted _).tearDown).session = session
      rw [session_tearDown, session_leaveAborted]
  | _ =>
    show ((WebSocket.State.leaveAborted _).tearDown).session = session
    rw [session_tearDown, session_leaveAborted]

/-- A step of the session is a step of its supervisor, delivers reports, or leaves it alone. -/
theorem session_step (ht : WebSocket.step config s a = some t) :
    (∃ b, Supervise.step config WebSocket.stoppedWhileStarting WebSocket.missingMonitor s.session b =
      some t.session) ∨
    (∃ due : List WebSocket.Notice, t.session = { s.session with
      life := due.foldl (fun life n => n.report.deliver life) s.session.life }) ∨
    t.session = s.session := by
  cases a with
  | session b =>
    obtain ⟨session, hsession, rfl⟩ := Option.map_eq_some_iff.mp ht
    left
    refine ⟨b, ?_⟩
    rw [session_follow]
    exact hsession
  | turn =>
    simp only [WebSocket.step, Option.ite_none_right_eq_some] at ht
    obtain ⟨-, ht⟩ := ht
    cases ht
    right
    left
    refine ⟨s.notices.filter (·.turns = 0), ?_⟩
    rw [session_leaveAborted]
    rfl
  | text m =>
    simp only [WebSocket.step, Option.ite_none_right_eq_some] at ht
    obtain ⟨-, ht⟩ := ht
    cases ht
    right
    right
    cases s.controls.arrive m with
    | none => exact WebSocket.finish_session (.session "inbound_overflow" "WebSocket inbound queue is full")
    | some b => rfl
  | binary m =>
    simp only [WebSocket.step, Option.ite_none_right_eq_some] at ht
    obtain ⟨-, ht⟩ := ht
    cases ht
    right
    right
    cases s.binary.arrive m with
    | none => exact WebSocket.finish_session (.session "inbound_overflow" "WebSocket inbound queue is full")
    | some b => rfl
  | closes error =>
    simp only [WebSocket.step, Option.ite_none_right_eq_some] at ht
    obtain ⟨-, ht⟩ := ht
    cases ht
    right
    right
    rw [WebSocket.finishQueues_session, session_endBy]
  | closeTransport =>
    cases ht
    exact .inr (.inr (session_endBy _))
  | socketCloses =>
    simp only [WebSocket.step, Option.ite_none_right_eq_some] at ht
    obtain ⟨-, ht⟩ := ht
    cases ht
    exact .inr (.inr WebSocket.finishQueues_session)
  | sendTextRejects error responding =>
    cases ht
    right
    right
    split <;> exact WebSocket.finish_session error
  | sendBinaryRejects error =>
    cases ht
    exact .inr (.inr (WebSocket.finish_session error))
  | pingRejects error =>
    simp only [WebSocket.step, Option.ite_none_right_eq_some] at ht
    obtain ⟨-, ht⟩ := ht
    cases ht
    exact .inr (.inr (WebSocket.finish_session error))
  | responseRefused | bindAudio | frameRejected | pingFulfills | pongResult | keepaliveTimesOut =>
    simp only [WebSocket.step, Option.ite_none_right_eq_some] at ht
    obtain ⟨-, ht⟩ := ht
    cases ht
    exact .inr (.inr rfl)
  | readControl | readFrame | keepaliveWakes =>
    simp only [WebSocket.step, Option.ite_none_right_eq_some] at ht
    obtain ⟨-, ht⟩ := ht
    cases ht
    right
    right
    split <;> rfl

/-- The invariant of the supervisor is kept, and a stop that was requested stays so. -/
theorem supervised_step (h : Supervise.Inv s.session) (ht : WebSocket.step config s a = some t) :
    Supervise.Inv t.session ∧ (s.aborted = true → t.aborted = true) := by
  rcases session_step ht with ⟨b, hb⟩ | ⟨due, hdue⟩ | hsame
  · refine ⟨(Supervise.step_spec h hb).1, fun haborted => ?_⟩
    rcases Supervise.step_advances hb with ⟨heq, -⟩ | ⟨-, hstopped, -⟩
    · exact heq.trans haborted
    · exact hstopped
  · rw [hdue]
    refine ⟨WebSocket.inv_deliverAll h due, fun haborted => ?_⟩
    show t.session.life.aborted = true
    rw [hdue]
    exact (WebSocket.deliverAll_aborted haborted due).1
  · rw [hsame]
    refine ⟨h, fun haborted => ?_⟩
    show t.session.life.aborted = true
    rw [hsame]
    exact haborted

end Session

/-! ## Early events -/

section Events

variable {c : Connection μ}

/-- The history of a connection: nothing is delivered before there is a session. -/
structure Connection.Recorded (c : Connection μ) : Prop where
  kept : c.Kept
  idle : c.accept.hasSession = false → c.delivered = []

theorem after_eq {s : WebSocket.State μ} {a : WebSocket.Action μ} :
    WebSocket.step sessionConfig s a = some (after s a) ∨ after s a = s := by
  unfold after
  cases h : WebSocket.step sessionConfig s a with
  | none => exact .inr rfl
  | some t => exact .inl rfl

theorem attached_after {s : WebSocket.State μ} {a : WebSocket.Action μ} (h : s.attached = false) :
    (after s a).attached = false := by
  rcases after_eq (s := s) (a := a) with ha | ha
  · exact attached_step ha h
  · rw [ha]
    exact h

theorem Accept.not_early_of_hasSession {a : Accept} (h : a.hasSession = true) : a.early = false := by
  cases a with
  | running | unrun => rfl
  | _ => cases h

theorem Connection.Recorded.receive {m : Message μ} (h : c.Recorded)
    (hroom : c.listens = true → c.admits m = true) : (c.receive m).Recorded := by
  unfold Connection.receive
  split
  · next hearly =>
    have hnone : ¬ c.accept.hasSession = true := by
      intro hsession
      rw [Accept.not_early_of_hasSession hsession] at hearly
      cases hearly
    refine ⟨⟨fun hc => absurd hc hnone, fun hc => absurd hc hnone, h.kept.errors⟩, h.idle⟩
  · split
    · next hlistens =>
      have hlistens' : c.accept.hasSession = true ∧ c.session.attached = true := by
        simpa [Connection.listens] using hlistens
      rw [if_pos (hroom hlistens)]
      refine ⟨⟨fun hc => ?_, fun hc hclosed => ?_, h.kept.errors⟩, fun hc => ?_⟩
      · show c.delivered ++ [m] = c.emitted ++ [m]
        rw [h.kept.messages hc]
      · have hended := h.kept.closed hc hclosed
        rw [hlistens'.2] at hended
        cases hended
      · have hnone : c.accept.hasSession = false := hc
        rw [hlistens'.1] at hnone
        cases hnone
    · exact h

theorem Connection.ends_accept (error : Option WebSocket.Thrown) : (c.ends error).accept = c.accept := by
  unfold Connection.ends
  split <;> rfl

/-- When the socket reports its end, the transport ends. -/
theorem Connection.Recorded.ends (h : c.Recorded) (error : Option WebSocket.Thrown) :
    (c.ends error).Recorded ∧ (c.accept.hasSession = true → (c.ends error).session.attached = false) := by
  unfold Connection.ends
  split
  · next hlistens =>
    have hattached : c.session.attached = true := by
      simp only [Connection.listens, Bool.and_eq_true] at hlistens
      exact hlistens.2
    have hended : (after c.session (.closes error)).attached = false := by
      unfold after
      simp only [WebSocket.step, hattached, if_true, Option.getD_some]
      exact attached_finishQueues
    refine ⟨⟨⟨h.kept.messages, fun _ _ => hended, h.kept.errors⟩, h.idle⟩, fun _ => hended⟩
  · next hlistens =>
    refine ⟨h, fun hsession => ?_⟩
    simpa [Connection.listens, hsession] using hlistens

theorem Connection.Recorded.emit {event : Event μ} (h : c.Recorded)
    (herror : ∀ error, event = .error error → c.accept.early = false)
    (hroom : ∀ m, event = .message m → c.listens = true → c.admits m = true) : (c.emit event).Recorded := by
  cases event with
  | message m => exact h.receive (hroom m rfl)
  | pong => exact h
  | error error =>
    obtain ⟨hends, -⟩ := h.ends (some error)
    refine ⟨⟨hends.kept.messages, hends.kept.closed, ?_⟩, hends.idle⟩
    show (c.unhandled || c.accept.early) = false
    rw [h.kept.errors, herror error rfl]
    rfl
  | close =>
    obtain ⟨hends, hended⟩ := h.ends none
    refine ⟨⟨hends.kept.messages, fun hc _ => hended ?_, hends.kept.errors⟩, hends.idle⟩
    rw [← Connection.ends_accept (c := c) none]
    exact hc

/-- A new session has missed nothing if the socket has emitted nothing. -/
theorem Connection.Recorded.start (h : c.Recorded) (hnone : c.accept.hasSession = false) (throws : Bool)
    (hemitted : c.emitted = []) (hopen : c.socketClosed = false) : (c.start throws).Recorded := by
  refine ⟨⟨fun _ => ?_, fun _ hclosed => ?_, h.kept.errors⟩, fun _ => h.idle hnone⟩
  · show c.delivered = c.emitted
    rw [h.idle hnone, hemitted]
  · have hclosed' : c.socketClosed = true := hclosed
    rw [hopen] at hclosed'
    cases hclosed'

theorem Connection.Recorded.session {s : WebSocket.State μ} (h : c.Recorded)
    (hs : c.session.attached = false → s.attached = false) :
    ({ c with session := s } : Connection μ).Recorded :=
  ⟨⟨h.kept.messages, fun hc hclosed => hs (h.kept.closed hc hclosed), h.kept.errors⟩, h.idle⟩

/-- Without a session, `#accept` goes on. -/
theorem Connection.Recorded.accepts {a : Accept} (h : c.Recorded) (hnone : c.accept.hasSession = false)
    (ha : a.hasSession = false) : ({ c with accept := a } : Connection μ).Recorded := by
  refine ⟨⟨fun hc => ?_, fun hc => ?_, h.kept.errors⟩, fun _ => h.idle hnone⟩
  · have hc' : a.hasSession = true := hc
    rw [ha] at hc'
    cases hc'
  · have hc' : a.hasSession = true := hc
    rw [ha] at hc'
    cases hc'

end Events

section Steps

variable {ι κ : Type} [DecidableEq ι] [DecidableEq κ] {config : Config} {s t : State ι κ μ}
  {a : Action ι κ μ}

/-- Every connection is recorded. -/
def State.Recorded (s : State ι κ μ) : Prop := ∀ k, (s.connection k).Recorded

omit [DecidableEq ι] in
theorem State.Recorded.set {k : κ} {c : Connection μ} (h : s.Recorded) (hc : c.Recorded) :
    (s.set k c).Recorded := by
  intro j
  show (Function.update s.connection k c j).Recorded
  by_cases hj : j = k
  · subst hj
    rw [Function.update_self]
    exact hc
  · rw [Function.update_of_ne hj]
    exact h j

theorem State.Recorded.step (h : s.Recorded) (hG : InTime config s a) (ht : step config s a = some t) :
    t.Recorded := by
  cases a with
  | connect k headerless =>
    simp only [NodeServer.step, Option.ite_none_right_eq_some] at ht
    obtain ⟨⟨-, hpc⟩, ht⟩ := ht
    cases ht
    refine h.set ((h k).accepts (by rw [hpc]; rfl) ?_)
    split <;> rfl
  | resolve k | reject k | fail k =>
    simp only [NodeServer.step] at ht
    split at ht
    · next hpc =>
      cases ht
      exact h.set ((h k).accepts (by rw [hpc]; rfl) rfl)
    · cases ht
  | accept k throws =>
    simp only [NodeServer.step] at ht
    split at ht
    · next hpc =>
      cases ht
      have hnone : (s.connection k).accept.hasSession = false := by rw [hpc]; rfl
      split
      · next hvalid =>
        obtain ⟨hemitted, hopen⟩ := hG hvalid
        exact State.Recorded.set (s := { s with sessions := s.sessions ++ [k] }) h
          ((h k).start hnone throws hemitted hopen)
      · exact h.set ((h k).accepts hnone rfl)
    · cases ht
  | emit k event =>
    simp only [NodeServer.step, Option.ite_none_right_eq_some] at ht
    obtain ⟨-, ht⟩ := ht
    cases ht
    refine h.set ((h k).emit (fun error hevent => ?_) fun m hevent => ?_)
    · subst hevent
      exact hG
    · subst hevent
      exact hG
  | session k a =>
    simp only [NodeServer.step, Option.ite_none_right_eq_some, Option.map_eq_some_iff] at ht
    obtain ⟨-, session, hsession, rfl⟩ := ht
    exact h.set ((h k).session (attached_step hsession))
  | forget k =>
    simp only [NodeServer.step, Option.ite_none_right_eq_some] at ht
    obtain ⟨-, ht⟩ := ht
    cases ht
    exact h
  | close i =>
    simp only [NodeServer.step] at ht
    split at ht
    · cases ht
      intro k
      show (if k ∈ s.sessions then (s.connection k).close else s.connection k).Recorded
      split
      · unfold Connection.close
        split
        · exact (h k).session attached_after
        · exact h k
      · exact h k
    · cases ht
  | settled i =>
    simp only [NodeServer.step] at ht
    split at ht
    · split at ht <;> cases ht
      exact h
    · cases ht
  | serverClosed i =>
    simp only [NodeServer.step] at ht
    split at ht <;> cases ht
    exact h

/-- A step that does not come in time loses something at once. -/
theorem not_kept_of_not_inTime (h : s.Recorded) (hG : ¬ InTime config s a) (ht : step config s a = some t) :
    ¬ ∀ k, (t.connection k).Kept := by
  intro hkept
  cases a with
  | accept k throws =>
    simp only [InTime, Classical.not_imp] at hG
    obtain ⟨hvalid, hmissed⟩ := hG
    simp only [NodeServer.step] at ht
    split at ht
    · next hpc =>
      rw [if_pos hvalid] at ht
      cases ht
      have hk : ((s.connection k).start throws).Kept := by
        have hself := hkept k
        simpa [State.set] using hself
      have hsession : ((s.connection k).start throws).accept.hasSession = true := by
        cases throws <;> rfl
      refine hmissed ⟨?_, ?_⟩
      · have hmessages : (s.connection k).delivered = (s.connection k).emitted := hk.messages hsession
        rw [← hmessages]
        exact (h k).idle (by rw [hpc]; rfl)
      · rw [Bool.eq_false_iff]
        intro hclosed
        have hended := hk.closed hsession hclosed
        cases throws <;> cases hended
    · cases ht
  | emit k event =>
    simp only [NodeServer.step, Option.ite_none_right_eq_some] at ht
    obtain ⟨-, ht⟩ := ht
    cases ht
    have hk : ((s.connection k).emit event).Kept := by
      have hself := hkept k
      simpa [State.set] using hself
    cases event with
    | error error =>
      have hearly : (s.connection k).accept.early = true := by simpa [InTime] using hG
      have herrors : ((s.connection k).unhandled || (s.connection k).accept.early) = false := hk.errors
      rw [hearly, Bool.or_true] at herrors
      cases herrors
    | message m =>
      simp only [InTime, Classical.not_imp] at hG
      obtain ⟨hlistens, hfull⟩ := hG
      have hsession : (s.connection k).accept.hasSession = true := by
        simp only [Connection.listens, Bool.and_eq_true] at hlistens
        exact hlistens.1
      have hreceive : (s.connection k).receive m = { s.connection k with
          emitted := (s.connection k).emitted ++ [m]
          delivered := (s.connection k).delivered
          session := after (s.connection k).session m.action } := by
        unfold Connection.receive
        rw [if_neg (by rw [Accept.not_early_of_hasSession hsession]; simp), if_pos hlistens, if_neg hfull]
      have hk' : ((s.connection k).receive m).Kept := hk
      rw [hreceive] at hk'
      have hmessages : (s.connection k).delivered = (s.connection k).emitted ++ [m] := hk'.messages hsession
      rw [(h k).kept.messages hsession] at hmessages
      have hlength := congrArg List.length hmessages
      simp at hlength
    | pong | close => exact hG trivial
  | _ => exact hG trivial

omit [DecidableEq ι] [DecidableEq κ] in
theorem recorded_listening : (listening : State ι κ μ).Recorded := by
  intro k
  exact ⟨⟨fun hc => (by cases hc), fun hc => (by cases hc), rfl⟩, fun _ => rfl⟩

/-- Along a schedule no early event of a socket is lost exactly if every step is in time. -/
theorem kept_iff_inTime (config : Config) (s : State ι κ μ) (schedule : List (Action ι κ μ))
    (hexec : (machine ι κ μ config).exec listening schedule = some s) :
    (machine ι κ μ config).Throughout (fun s => ∀ k, (s.connection k).Kept) listening schedule ↔
      (machine ι κ μ config).Along (InTime config) listening schedule :=
  Machine.throughout_iff_along (fun _ h k => (h k).kept) (fun _ _ _ h hG ht => h.step hG ht)
    (fun _ _ _ h hG ht => not_kept_of_not_inTime h hG ht) recorded_listening hexec

end Steps

/-- A client that sends a message and disconnects after its session has begun. -/
def promptRun : List (Action Unit Unit Nat) :=
  [.connect () false, .resolve (), .accept () false, .emit () (.message (.text 7)),
    .emit () (.message (.binary 8)), .emit () .pong, .emit () .close]

theorem promptRun_kept : (machine Unit Unit Nat ⟨true, true⟩).Throughout
    (fun s => ∀ k, (s.connection k).Kept) listening promptRun := by
  have hexec : (machine Unit Unit Nat ⟨true, true⟩).exec listening promptRun = some _ := rfl
  exact (kept_iff_inTime ⟨true, true⟩ _ promptRun hexec).mpr (by decide)

/-- One client sends a message and disconnects while its handler is created, and the socket of another one
reports an error. -/
def earlyRun : List (Action Unit Nat Nat) :=
  [.connect 0 false, .emit 0 (.message (.text 7)), .emit 0 .close, .connect 1 false,
    .emit 1 (.error (.other "reset")), .resolve 0, .accept 0 false]

/-- The message is lost, the session runs on the closed socket, and nobody has heard of the error. -/
theorem earlyRun_not_kept :
    ∃ s, (machine Unit Nat Nat ⟨true, true⟩).exec listening earlyRun = some s ∧
      ((s.connection 0).accept = .running ∧ (s.connection 0).delivered = [] ∧
        (s.connection 0).socketClosed = true ∧ (s.connection 0).session.attached = true) ∧
      (s.connection 1).unhandled = true ∧ ¬ ∀ k, (s.connection k).Kept := by
  refine ⟨_, rfl, ⟨rfl, rfl, rfl, rfl⟩, rfl, fun hkept => ?_⟩
  have herrors := (hkept 1).errors
  cases herrors

end Rtvbp.TypeScript.NodeServer
