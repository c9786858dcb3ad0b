import Rtvbp.TypeScript.Proofs.NodeServerProofs

/-!
# The close of the Node server

`close` stops the sessions that it finds in `#sessions`. A session that begins to run afterwards, because
its handler was being created or its client has only just connected, is not asked to stop.
-/

namespace Rtvbp.TypeScript.NodeServer

open Rtvbp.Lib

variable {ι κ μ : Type}

/-! ## Stop requests are kept -/

section Stops

variable {c : Connection μ}

/-- A later state of a connection: `#accept` has not gone on, the supervisor keeps its invariant, and a stop
that was requested stays so. -/
structure Connection.Later (c c' : Connection μ) : Prop where
  accept : c'.accept = c.accept
  supervisor : Supervise.Inv c.session.session → Supervise.Inv c'.session.session
  stopped : Supervise.Inv c.session.session → c.session.aborted = true → c'.session.aborted = true

theorem Connection.Later.rfl : c.Later c := ⟨Eq.refl _, id, fun _ => id⟩

theorem Connection.later_after (a : WebSocket.Action μ) :
    c.Later { c with session := after c.session a } := by
  rcases after_eq (s := c.session) (a := a) with ha | ha
  · exact ⟨Eq.refl _, fun h => (supervised_step h ha).1, fun h => (supervised_step h ha).2⟩
  · rw [ha]
    exact .rfl

theorem Connection.later_ends (error : Option WebSocket.Thrown) : c.Later (c.ends error) := by
  unfold Connection.ends
  split
  · exact c.later_after _
  · exact .rfl

theorem Connection.later_emit (event : Event μ) : c.Later (c.emit event) := by
  cases event with
  | message m =>
    show c.Later (c.receive m)
    unfold Connection.receive
    split
    · exact ⟨Eq.refl _, id, fun _ => id⟩
    · split
      · have hafter := c.later_after m.action
        exact ⟨Eq.refl _, hafter.supervisor, hafter.stopped⟩
      · exact .rfl
  | pong => exact .rfl
  | error error =>
    have hends := c.later_ends (some error)
    exact ⟨hends.accept, hends.supervisor, hends.stopped⟩
  | close =>
    have hends := c.later_ends none
    exact ⟨hends.accept, hends.supervisor, hends.stopped⟩

theorem Connection.later_close : c.Later c.close := by
  unfold Connection.close
  split
  · exact c.later_after _
  · exact .rfl

/-- The snapshot asks a session that runs to stop. -/
theorem Connection.close_stopped (hrunning : c.accept = .running) : c.close.session.aborted = true := by
  unfold Connection.close
  rw [if_pos hrunning]
  show (after c.session (.session (.stop none false))).session.life.aborted = true
  unfold after
  simp only [WebSocket.step, Supervise.step, Option.map_some, Option.getD_some]
  rw [session_follow]
  exact Lifecycle.requestStop_aborted

end Stops

/-! ## The snapshot -/

section Steps

variable {config : Config} {s t : State ι κ μ} {a : Action ι κ μ}

/-- A session that runs is in `#sessions`, or has been asked to stop. -/
structure State.Known (s : State ι κ μ) : Prop where
  supervisor : ∀ k, Supervise.Inv (s.connection k).session.session
  registered : ∀ k, (s.connection k).accept = .running →
    k ∈ s.sessions ∨ (s.connection k).session.aborted = true

/-- After a snapshot every session that runs has been asked to stop. -/
def State.Complete (s : State ι κ μ) : Prop :=
  s.closing = true → ∀ k, (s.connection k).accept = .running → (s.connection k).session.aborted = true

theorem State.Complete.not_left (h : s.Complete) : ¬ s.Left := by
  rintro ⟨hclosing, k, hrunning, -, hopen⟩
  rw [h hclosing k hrunning] at hopen
  cases hopen

/-- Steps after which every connection is later. -/
theorem State.Known.later (h : s.Known) (hsessions : t.sessions = s.sessions)
    (hlater : ∀ k, (s.connection k).Later (t.connection k)) : t.Known := by
  refine ⟨fun k => (hlater k).supervisor (h.supervisor k), fun k hrunning => ?_⟩
  rw [(hlater k).accept] at hrunning
  rcases h.registered k hrunning with hmem | hstopped
  · left
    rw [hsessions]
    exact hmem
  · exact .inr ((hlater k).stopped (h.supervisor k) hstopped)

theorem State.Complete.later (h : s.Known) (hs : s.Complete) (hclosing : t.closing = s.closing)
    (hlater : ∀ k, (s.connection k).Later (t.connection k)) : t.Complete := by
  intro hc k hrunning
  rw [hclosing] at hc
  rw [(hlater k).accept] at hrunning
  exact (hlater k).stopped (h.supervisor k) (hs hc k hrunning)

theorem inv_newSession : Supervise.Inv (newSession : WebSocket.State μ).session := Supervise.inv_initial

theorem known_listening : (listening : State ι κ μ).Known :=
  ⟨fun _ => inv_newSession, fun _ hrunning => by cases hrunning⟩

variable [DecidableEq κ]

theorem later_set {k : κ} {c : Connection μ} (hc : (s.connection k).Later c) (j : κ) :
    (s.connection j).Later ((s.set k c).connection j) := by
  show (s.connection j).Later (Function.update s.connection k c j)
  by_cases hj : j = k
  · subst hj
    rw [Function.update_self]
    exact hc
  · rw [Function.update_of_ne hj]
    exact .rfl

/-- `#accept` goes on without a session. -/
theorem known_setAccept {k : κ} (accept : Accept) (hne : accept ≠ .running) (h : s.Known) :
    (s.setAccept k accept).Known ∧ (s.Complete → (s.setAccept k accept).Complete) := by
  have hcases : ∀ j, (s.setAccept k accept).connection j = s.connection j ∨
      ((s.setAccept k accept).connection j).accept = accept ∧
        ((s.setAccept k accept).connection j).session = (s.connection j).session := by
    intro j
    by_cases hj : j = k
    · subst hj
      right
      simp [State.setAccept, State.set]
    · left
      exact Function.update_of_ne hj _ _
  refine ⟨⟨fun j => ?_, fun j hrunning => ?_⟩, fun hs hclosing j hrunning => ?_⟩
  · rcases hcases j with heq | ⟨-, hsession⟩
    · rw [heq]
      exact h.supervisor j
    · rw [hsession]
      exact h.supervisor j
  · rcases hcases j with heq | ⟨haccept, -⟩
    · rw [heq] at hrunning ⊢
      exact h.registered j hrunning
    · exact absurd (haccept.symm.trans hrunning) hne
  · rcases hcases j with heq | ⟨haccept, -⟩
    · rw [heq] at hrunning ⊢
      exact hs hclosing j hrunning
    · exact absurd (haccept.symm.trans hrunning) hne

/-- The session that `#accept` makes. -/
theorem known_start {k : κ} (throws : Bool) (h : s.Known) :
    (State.set { s with sessions := s.sessions ++ [k] } k ((s.connection k).start throws)).Known ∧
      (s.Complete → (throws = false → s.closing = false) →
        (State.set { s with sessions := s.sessions ++ [k] } k ((s.connection k).start throws)).Complete) := by
  have hself : (State.set { s with sessions := s.sessions ++ [k] } k
      ((s.connection k).start throws)).connection k = (s.connection k).start throws :=
    Function.update_self _ _ _
  have hothers : ∀ j, j ≠ k → (State.set { s with sessions := s.sessions ++ [k] } k
      ((s.connection k).start throws)).connection j = s.connection j :=
    fun j hj => Function.update_of_ne hj _ _
  refine ⟨⟨fun j => ?_, fun j hrunning => ?_⟩, fun hs hbefore hclosing j hrunning => ?_⟩
  · by_cases hj : j = k
    · subst hj
      rw [hself]
      cases throws with
      | true => exact inv_newSession
      | false => exact (Connection.later_after (c := ⟨.created, newSession, false, [], [], false⟩)
          (.session .run)).supervisor inv_newSession
    · rw [hothers j hj]
      exact h.supervisor j
  · by_cases hj : j = k
    · exact .inl (by simp [State.set, hj])
    · rw [hothers j hj] at hrunning ⊢
      rcases h.registered j hrunning with hmem | hstopped
      · exact .inl (List.mem_append_left _ hmem)
      · exact .inr hstopped
  · by_cases hj : j = k
    · subst hj
      rw [hself] at hrunning
      cases throws with
      | true => cases hrunning
      | false =>
        have hclosing' : s.closing = true := hclosing
        rw [hbefore rfl] at hclosing'
        cases hclosing'
    · rw [hothers j hj] at hrunning ⊢
      exact hs hclosing j hrunning

variable [DecidableEq ι]

/-- The step lemma: every step keeps the sessions known, and every step before the close keeps the snapshot
complete. -/
theorem State.Known.step (h : s.Known) (ht : step config s a = some t) :
    t.Known ∧ (s.Complete → BeforeClose config s a → t.Complete) := by
  cases a with
  | connect k headerless =>
    simp only [NodeServer.step, Option.ite_none_right_eq_some] at ht
    obtain ⟨-, ht⟩ := ht
    cases ht
    obtain ⟨hknown, hcomplete⟩ := known_setAccept (k := k)
      (if headerless ∧ ¬ config.allowHeaderless then .refused else .creating) (by split <;> simp) h
    exact ⟨hknown, fun hs _ => hcomplete hs⟩
  | resolve k =>
    simp only [NodeServer.step] at ht
    split at ht <;> cases ht
    obtain ⟨hknown, hcomplete⟩ := known_setAccept (k := k) .created (by simp) h
    exact ⟨hknown, fun hs _ => hcomplete hs⟩
  | reject k =>
    simp only [NodeServer.step] at ht
    split at ht <;> cases ht
    obtain ⟨hknown, hcomplete⟩ := known_setAccept (k := k) .rejected (by simp) h
    exact ⟨hknown, fun hs _ => hcomplete hs⟩
  | fail k =>
    simp only [NodeServer.step] at ht
    split at ht <;> cases ht
    obtain ⟨hknown, hcomplete⟩ := known_setAccept (k := k) .failed (by simp) h
    exact ⟨hknown, fun hs _ => hcomplete hs⟩
  | accept k throws =>
    simp only [NodeServer.step] at ht
    split at ht
    · cases ht
      split
      · next hvalid =>
        obtain ⟨hknown, hcomplete⟩ := known_start (k := k) throws h
        refine ⟨hknown, fun hs hG => hcomplete hs fun hthrows => ?_⟩
        subst hthrows
        exact hG hvalid
      · obtain ⟨hknown, hcomplete⟩ := known_setAccept (k := k) .failed (by simp) h
        exact ⟨hknown, fun hs _ => hcomplete hs⟩
    · cases ht
  | emit k event =>
    simp only [NodeServer.step, Option.ite_none_right_eq_some] at ht
    obtain ⟨-, ht⟩ := ht
    cases ht
    have hlater := later_set ((s.connection k).later_emit event)
    exact ⟨h.later rfl hlater, fun hs _ => hs.later h rfl hlater⟩
  | session k a =>
    simp only [NodeServer.step, Option.ite_none_right_eq_some, Option.map_eq_some_iff] at ht
    obtain ⟨-, session, hsession, rfl⟩ := ht
    have hlater : ∀ j, (s.connection j).Later ((s.set k { s.connection k with session }).connection j) := by
      refine later_set ⟨rfl, fun hinv => (supervised_step hinv hsession).1, fun hinv => ?_⟩
      exact (supervised_step hinv hsession).2
    exact ⟨h.later rfl hlater, fun hs _ => hs.later h rfl hlater⟩
  | forget k =>
    simp only [NodeServer.step, Option.ite_none_right_eq_some] at ht
    obtain ⟨⟨-, hdone⟩, ht⟩ := ht
    cases ht
    refine ⟨⟨h.supervisor, fun j hrunning => ?_⟩, fun hs _ => hs⟩
    by_cases hj : j = k
    · subst hj
      exact .inr ((h.supervisor j).stopping (by rw [hdone]; rfl)).1
    · rcases h.registered j hrunning with hmem | hstopped
      · exact .inl ((List.mem_erase_of_ne hj).mpr hmem)
      · exact .inr hstopped
  | close i =>
    simp only [NodeServer.step] at ht
    split at ht
    · cases ht
      have hlater : ∀ k, (s.connection k).Later
          (if k ∈ s.sessions then (s.connection k).close else s.connection k) := by
        intro k
        split
        · exact Connection.later_close
        · exact .rfl
      refine ⟨h.later rfl hlater, fun _ _ _ k hrunning => ?_⟩
      have hrunning' : (s.connection k).accept = .running := (hlater k).accept ▸ hrunning
      rcases h.registered k hrunning' with hmem | hstopped
      · show (if k ∈ s.sessions then (s.connection k).close else s.connection k).session.aborted = true
        rw [if_pos hmem]
        exact Connection.close_stopped hrunning'
      · exact (hlater k).stopped (h.supervisor k) hstopped
    · cases ht
  | settled i =>
    simp only [NodeServer.step] at ht
    split at ht
    · split at ht <;> cases ht
      exact ⟨h.later rfl fun _ => .rfl, fun hs _ => hs.later h rfl fun _ => .rfl⟩
    · cases ht
  | serverClosed i =>
    simp only [NodeServer.step] at ht
    split at ht <;> cases ht
    exact ⟨h.later rfl fun _ => .rfl, fun hs _ => hs.later h rfl fun _ => .rfl⟩

/-! ## A session that is left -/

/-- The steps by which a new session becomes active. -/
def activation : List (WebSocket.Action μ) :=
  [.session .connect, .session (.start none), .session .beginFulfills, .session .began]

/-- The session makes its steps as steps of the server. -/
theorem steps_of_session (config : Config) {k : κ} {schedule : List (WebSocket.Action μ)} {x : WebSocket.State μ}
    (hsession : (s.connection k).accept.hasSession = true) (hall : ∀ a ∈ schedule, ofSession a = true)
    (hexec : (WebSocket.machine sessionConfig inboundCapacity (by decide)).exec (s.connection k).session
      schedule = some x) :
    (machine ι κ μ config).Steps (fun _ _ => True) s (s.set k { s.connection k with session := x }) := by
  induction schedule generalizing s with
  | nil =>
    obtain rfl : (s.connection k).session = x := by simpa using hexec
    have hsame : s.set k { s.connection k with session := (s.connection k).session } = s := by
      simp [State.set]
    rw [hsame]
    exact .refl
  | cons a schedule ih =>
    obtain ⟨y, hy, hyx⟩ := Option.bind_eq_some_iff.mp hexec
    have hstep : (machine ι κ μ config).step s (.session k a) =
        some (s.set k { s.connection k with session := y }) := by
      show (if (s.connection k).accept.hasSession ∧ ofSession a then _ else none) = _
      have hy' : WebSocket.step sessionConfig (s.connection k).session a = some y := hy
      rw [if_pos ⟨hsession, hall a List.mem_cons_self⟩, hy']
      rfl
    have hself : (s.set k { s.connection k with session := y }).connection k =
        { s.connection k with session := y } := Function.update_self _ _ _
    have hrest := ih (s := s.set k { s.connection k with session := y }) (by rw [hself]; exact hsession)
      (fun b hb => hall b (List.mem_cons_of_mem a hb)) (by rw [hself]; exact hyx)
    rw [hself] at hrest
    have hset : (s.set k { s.connection k with session := y }).set k { s.connection k with session := x } =
        s.set k { s.connection k with session := x } := by simp [State.set]
    rw [← hset]
    exact .head ⟨.session k a, trivial, hstep⟩ hrest

/-- A session that begins to run after a snapshot can become active, and nobody has asked it to stop. -/
theorem exists_left {k : κ} {throws : Bool} (ht : step config s (.accept k throws) = some t)
    (hG : ¬ BeforeClose config s (.accept k throws)) :
    ∃ u, (machine ι κ μ config).Steps (fun _ _ => True) t u ∧ u.Left := by
  cases throws with
  | true => exact absurd trivial hG
  | false =>
    have hG' : config.validFormat = true ∧ s.closing = true := by
      simpa [BeforeClose] using hG
    obtain ⟨hvalid, hclosing⟩ := hG'
    simp only [NodeServer.step] at ht
    split at ht
    · rw [if_pos hvalid] at ht
      cases ht
      have hself : (State.set { s with sessions := s.sessions ++ [k] } k
          ((s.connection k).start false)).connection k = (s.connection k).start false :=
        Function.update_self _ _ _
      obtain ⟨x, hexec, hactive, hopen⟩ : ∃ x : WebSocket.State μ,
          (WebSocket.machine sessionConfig inboundCapacity (by decide)).exec
            (after newSession (.session .run)) activation = some x ∧
          x.session.life.state = .active ∧ x.aborted = false := ⟨_, rfl, rfl, rfl⟩
      have hall : ∀ a ∈ (activation : List (WebSocket.Action μ)), ofSession a = true := by
        intro a ha
        simp only [activation, List.mem_cons, List.not_mem_nil, or_false] at ha
        rcases ha with rfl | rfl | rfl | rfl <;> rfl
      have hsteps := steps_of_session config (ι := ι) (k := k)
        (s := State.set { s with sessions := s.sessions ++ [k] } k ((s.connection k).start false))
        (by rw [hself]; rfl) hall (by rw [hself]; exact hexec)
      refine ⟨_, hsteps, hclosing, k, ?_, ?_, ?_⟩
      · simp [State.set, Connection.start]
      · simpa [State.set] using hactive
      · simpa [State.set] using hopen
    · cases ht

/-! ## The result -/

/-- As long as no session begins to run after the snapshot of a call of `close`, no session is active without
having been asked to stop; and a session that begins to run afterwards can become one. -/
theorem left_only_if_late (config : Config) :
    (∀ s : State ι κ μ, (machine ι κ μ config).ReachableWhere (BeforeClose config) s → ¬ s.Left) ∧
      ∀ (s t : State ι κ μ) (k : κ) (throws : Bool),
        (machine ι κ μ config).step s (.accept k throws) = some t →
          ¬ BeforeClose config s (.accept k throws) →
            ∃ u, (machine ι κ μ config).Steps (fun _ _ => True) t u ∧ u.Left := by
  constructor
  · intro s hs
    have hcomplete : s.Known ∧ s.Complete := by
      refine hs.invariant (I := fun s => s.Known ∧ s.Complete) (fun s₀ h₀ => ?_) fun s l t h hG ht => ?_
      · obtain rfl : s₀ = listening := h₀
        exact ⟨known_listening, fun hclosing => by cases hclosing⟩
      · obtain ⟨hknown, hstep⟩ := h.1.step ht
        exact ⟨hknown, hstep h.2 hG⟩
    exact hcomplete.2.not_left
  · intro s t k throws ht hG
    exact exists_left ht hG

end Steps

/-- A session becomes active, and is stopped by `close`. -/
def stoppedRun : List (Action Unit Unit Nat) :=
  [.connect () false, .resolve (), .accept () false, .session () (.session .connect),
    .session () (.session (.start none)), .session () (.session .beginFulfills),
    .session () (.session .began), .close (), .session () (.session .wake),
    .session () (.session (.audioCloses none)), .session () (.session (.transportCloses none)),
    .session () (.session (.workersJoin none)), .forget (), .settled (), .serverClosed ()]

/-- The handler of a session is created while `close` runs. -/
def lateRun : List (Action Unit Unit Nat) :=
  [.connect () false, .close (), .settled (), .resolve (), .accept () false,
    .session () (.session .connect), .session () (.session (.start none)),
    .session () (.session .beginFulfills), .session () (.session .began)]

theorem stoppedRun_and_lateRun :
    (∃ s, (machine Unit Unit Nat ⟨true, true⟩).exec listening stoppedRun = some s ∧ ¬ s.Left) ∧
      ∃ t u, (machine Unit Unit Nat ⟨true, true⟩).exec listening (lateRun.take 5) = some t ∧
        (machine Unit Unit Nat ⟨true, true⟩).Steps (fun _ _ => True) t u ∧ u.Left := by
  constructor
  · have hexec : (machine Unit Unit Nat ⟨true, true⟩).exec listening stoppedRun = some _ := rfl
    exact ⟨_, hexec, (left_only_if_late ⟨true, true⟩).1 _ (.of_exec rfl (by decide) hexec)⟩
  · have haccept : (machine Unit Unit Nat ⟨true, true⟩).step
        (((machine Unit Unit Nat ⟨true, true⟩).exec listening (lateRun.take 4)).get rfl)
        (.accept () false) = some _ := rfl
    obtain ⟨u, htu, hu⟩ := (left_only_if_late ⟨true, true⟩).2 _ _ () false haccept (by decide)
    exact ⟨_, u, rfl, htu, hu⟩

/-- The session is active, and `close` will not stop it. -/
theorem lateRun_left :
    ∃ s, (machine Unit Unit Nat ⟨true, true⟩).exec listening lateRun = some s ∧ s.Left :=
  ⟨_, rfl, rfl, (), rfl, rfl, rfl⟩

end Rtvbp.TypeScript.NodeServer
