import Rtvbp.TypeScript.Session.Pending
import Rtvbp.TypeScript.Session.Proofs.PendingProofs

/-!
# Proofs: when a request settles promptly

A call whose send has settled runs to its end by its own continuations once the result is there. A call
whose entry is claimed while its send is pending has no continuation: its promise stays unsettled, and a
rejection of its result promise is not observed.
-/

namespace Rtvbp.TypeScript.Request

open Rtvbp.Lib Rtvbp.Pending Rtvbp.TypeScript.Pending

variable {ι ρ ε : Type} [DecidableEq ι] {remoteError : ρ → Bool} {closedError : ε}
  {s t : State ι ρ ε} {a : Action ι ρ ε} {id : ι}

/-! ## The refinement -/

theorem session_step {b : Pending.Action ι ρ ε}
    (hstep : step remoteError closedError s (.session b) = some t) :
    Pending.step closedError s.session b = some t.session ∧ t.send = s.send ∧
      t.reported = s.reported ∧ ∀ id error, b ≠ .sendSettles id error := by
  cases b with
  | sendSettles id error => cases hstep
  | _ =>
    simp only [step, Option.map_eq_some_iff] at hstep
    obtain ⟨session, hsession, rfl⟩ := hstep
    exact ⟨hsession, rfl, rfl, fun _ _ hb => by cases hb⟩

theorem resume_step (hstep : step remoteError closedError s (.resume id) = some t) :
    ∃ settled, Pending.step closedError s.session (.sendSettles id settled) = some t.session ∧
      t.send = Function.update s.send id none ∧ t.reported = s.reported := by
  simp only [step] at hstep
  split at hstep
  · next settled _ =>
    obtain ⟨session, hsession, rfl⟩ := Option.map_eq_some_iff.mp hstep
    exact ⟨settled, hsession, rfl, rfl⟩
  · cases hstep

theorem sendSettles_step {error : Option ε}
    (hstep : step remoteError closedError s (.sendSettles id error) = some t) :
    (s.session.calls id).pc = .sending ∧
      t = { s with send := Function.update s.send id (some error) } := by
  simp only [step] at hstep
  split at hstep <;> cases hstep
  next hpc _ => exact ⟨hpc, rfl⟩

theorem drain_step (hstep : step remoteError closedError s (.drain id) = some t) :
    s.queued id = false ∧
      t = { s with
        reported := Function.update s.reported id (s.reported id || s.unobserved remoteError id) } := by
  simp only [step, Option.ite_none_left_eq_some] at hstep
  obtain ⟨hqueued, hstep⟩ := hstep
  cases hstep
  exact ⟨by simpa using hqueued, rfl⟩

/-- The machine refines the one of the pending requests: every step is a step of that machine or leaves its
state alone. -/
theorem refines_pending (hstep : step remoteError closedError s a = some t) :
    t.session = s.session ∨ ∃ b, Pending.step closedError s.session b = some t.session := by
  cases a with
  | session b => exact .inr ⟨b, (session_step hstep).1⟩
  | sendSettles id error =>
    obtain ⟨-, rfl⟩ := sendSettles_step hstep
    exact .inl rfl
  | resume id =>
    obtain ⟨settled, hsession, -⟩ := resume_step hstep
    exact .inr ⟨_, hsession⟩
  | drain id =>
    obtain ⟨-, rfl⟩ := drain_step hstep
    exact .inl rfl

/-! ## What a step of the session does to a call -/

/-- The action may claim the entry of the call. -/
def Claims (id : ι) : Pending.Action ι ρ ε → Prop
  | .cancel id' _ | .response id' _ => id' = id
  | .failPending _ => True
  | _ => False

/-- How a step of the session changes a call: not at all, by starting it, by claiming its entry, or by a
continuation, which it has while it is sending only when the send has settled. -/
structure Continued (id : ι) (b : Pending.Action ι ρ ε) (c c' : Call ρ ε) : Prop where
  not_sending : c'.pc ≠ .sending
  of_sending : c.pc = .sending → ∃ error, b = .sendSettles id error

/-- The continuation after the send. -/
theorem calls_of_sendSettles {u v : Pending.State ι ρ ε} {error : Option ε}
    (hstep : Pending.step closedError u (.sendSettles id error) = some v) :
    ∃ pc, pc ≠ .sending ∧ v.calls = Function.update u.calls id { u.calls id with pc := pc } := by
  simp only [Pending.step] at hstep
  split at hstep <;> cases hstep
  · exact ⟨.awaiting, by simp, rfl⟩
  · exact ⟨.failed _, by simp, rfl⟩

theorem call_step {u v : Pending.State ι ρ ε} {b : Pending.Action ι ρ ε}
    (hstep : Pending.step closedError u b = some v) (id : ι) :
    v.calls id = u.calls id ∨
    ((u.calls id).pc = .idle ∧ (v.calls id).result = (u.calls id).result) ∨
    (Claims id b ∧ ∃ completion, v.calls id = (u.calls id).complete completion) ∨
    Continued id b (u.calls id) (v.calls id) := by
  have hset : ∀ {id' : ι} {c : Call ρ ε}, v = u.setCall id' c → id' ≠ id → v.calls id = u.calls id := by
    rintro id' c rfl hne
    exact Function.update_of_ne hne.symm _ _
  have hself : ∀ {c : Call ρ ε}, v = u.setCall id c → v.calls id = c := by
    rintro c rfl
    exact Function.update_self _ _ _
  cases b with
  | reject id' =>
    simp only [Pending.step] at hstep
    split at hstep <;> cases hstep
    next hpc =>
    by_cases hid : id' = id
    · subst hid
      exact .inr (.inl ⟨hpc, by rw [hself rfl]⟩)
    · exact .inl (hset rfl hid)
  | call id' encodeError =>
    simp only [Pending.step] at hstep
    split at hstep <;> cases hstep
    next hpc =>
    by_cases hid : id' = id
    · subst hid
      refine .inr (.inl ⟨hpc, ?_⟩)
      rw [hself rfl]
      unfold Call.request
      split_ifs <;> rfl
    · exact .inl (hset rfl hid)
  | sendSettles id' error =>
    by_cases hid : id' = id
    · subst hid
      refine .inr (.inr (.inr ⟨?_, fun _ => ⟨error, rfl⟩⟩))
      simp only [Pending.step] at hstep
      split at hstep <;> cases hstep <;> rw [hself rfl] <;> simp
    · simp only [Pending.step] at hstep
      split at hstep <;> cases hstep <;> exact .inl (hset rfl hid)
  | catch_ id' =>
    simp only [Pending.step] at hstep
    split at hstep <;> cases hstep
    next hpc =>
    by_cases hid : id' = id
    · subst hid
      refine .inr (.inr (.inr ⟨by rw [hself rfl]; simp, fun hsending => ?_⟩))
      rw [hpc] at hsending
      cases hsending
    · exact .inl (hset rfl hid)
  | cancel id' error =>
    cases hstep
    by_cases hid : id' = id
    · subst hid
      exact .inr (.inr (.inl ⟨rfl, _, hself rfl⟩))
    · exact .inl (hset rfl hid)
  | settle id' =>
    simp only [Pending.step] at hstep
    split at hstep <;> cases hstep
    next hpc _ =>
    by_cases hid : id' = id
    · subst hid
      refine .inr (.inr (.inr ⟨by rw [hself rfl]; simp, fun hsending => ?_⟩))
      rw [hpc] at hsending
      cases hsending
    · exact .inl (hset rfl hid)
  | response id' response =>
    cases hstep
    by_cases hid : id' = id
    · subst hid
      exact .inr (.inr (.inl ⟨rfl, _, hself rfl⟩))
    · exact .inl (hset rfl hid)
  | run | activate | finish =>
    simp only [Pending.step, Option.ite_none_right_eq_some] at hstep
    obtain ⟨-, hstep⟩ := hstep
    cases hstep
    exact .inl rfl
  | requestStop cause failed =>
    cases hstep
    exact .inl rfl
  | failPending cause =>
    simp only [Pending.step, Option.ite_none_right_eq_some] at hstep
    obtain ⟨-, hstep⟩ := hstep
    cases hstep
    exact .inr (.inr (.inl ⟨trivial, _, rfl⟩))

/-! ## The invariant -/

omit [DecidableEq ι] in
/-- A claim that meets the condition finds nothing to claim, or a call whose send has settled. -/
theorem not_stalled_of_claims {b : Pending.Action ι ρ ε} (hG : SendsFirst s (.session b))
    (hclaims : Claims id b) : ¬ s.stalled id := by
  cases b with
  | cancel id' error =>
    cases hclaims
    exact hG
  | response id' response =>
    cases hclaims
    exact hG
  | failPending cause => exact hG id
  | _ => cases hclaims

/-- The invariant of a call with its promises: a call that waits for its send has no result, a send that has
settled belongs to a call that has not seen it, and nothing was reported. -/
structure CallInv (c : Call ρ ε) (send : Option (Option ε)) (reported : Bool) : Prop where
  unclaimed : c.pc = .sending → send = none → c.result = none
  sending : send ≠ none → c.pc = .sending
  silent : reported = false

/-- The invariant of the session. -/
structure Inv (s : State ι ρ ε) : Prop where
  session : Pending.Inv s.session
  calls : ∀ id, CallInv (s.session.calls id) (s.send id) (s.reported id)

omit [DecidableEq ι] in
theorem inv_initial : Inv (initial : State ι ρ ε) :=
  ⟨Pending.inv_initial, fun _ => ⟨fun _ _ => rfl, fun h => absurd rfl h, rfl⟩⟩

theorem Inv.session_inv (h : Inv s) (hstep : step remoteError closedError s a = some t) :
    Pending.Inv t.session := by
  rcases refines_pending hstep with heq | ⟨b, hb⟩
  · rw [heq]
    exact h.session
  · exact h.session.step hb

/-- A step of the session keeps the invariant of a call, if it does not claim the entry of a stalled one. -/
theorem CallInv.session {u v : Pending.State ι ρ ε} {b : Pending.Action ι ρ ε} {send : Option (Option ε)}
    {reported : Bool} (h : CallInv (u.calls id) send reported) (hu : Pending.Inv u)
    (hstep : Pending.step closedError u b = some v) (hb : ∀ error, b ≠ .sendSettles id error)
    (hG : Claims id b → (u.calls id).pending = true → (u.calls id).pc = .sending → send ≠ none) :
    CallInv (v.calls id) send reported := by
  rcases call_step hstep id with heq | ⟨hidle, hresult⟩ | ⟨hclaims, completion, hc⟩ | hcont
  · rw [heq]
    exact h
  · refine ⟨fun _ _ => ?_, fun hsend => ?_, h.silent⟩
    · rw [hresult]
      exact ((hu.calls id).unregistered (by rw [hidle]; rfl)).2.2
    · have hsending := h.sending hsend
      rw [hidle] at hsending
      cases hsending
  · rw [hc]
    refine ⟨fun hpc hnone => ?_, fun hsend => ?_, h.silent⟩
    · rw [Call.complete_pc] at hpc
      have hnot : (u.calls id).pending ≠ true := fun hpending => hG hclaims hpending hpc hnone
      rw [Call.complete, if_neg hnot]
      exact h.unclaimed hpc hnone
    · rw [Call.complete_pc]
      exact h.sending hsend
  · refine ⟨fun hpc => absurd hpc hcont.not_sending, fun hsend => ?_, h.silent⟩
    obtain ⟨error, rfl⟩ := hcont.of_sending (h.sending hsend)
    exact absurd rfl (hb error)

theorem Inv.step (h : Inv s) (hG : SendsFirst s a)
    (hstep : step remoteError closedError s a = some t) : Inv t := by
  refine ⟨h.session_inv hstep, fun id => ?_⟩
  have hcall := h.calls id
  cases a with
  | session b =>
    obtain ⟨hsession, hsend, hreported, hb⟩ := session_step hstep
    rw [hsend, hreported]
    refine hcall.session h.session hsession (hb id) fun hclaims hpending hpc hnone => ?_
    exact not_stalled_of_claims hG hclaims ⟨hpending, hpc, hnone⟩
  | sendSettles id' error =>
    obtain ⟨hpc, rfl⟩ := sendSettles_step hstep
    dsimp only
    by_cases hid : id = id'
    · subst hid
      rw [Function.update_self]
      exact ⟨fun _ hnone => (by cases hnone), fun _ => hpc, hcall.silent⟩
    · rw [Function.update_of_ne hid]
      exact hcall
  | resume id' =>
    obtain ⟨settled, hsession, hsend, hreported⟩ := resume_step hstep
    obtain ⟨pc, hpc, hcalls⟩ := calls_of_sendSettles hsession
    rw [hsend, hreported, hcalls]
    by_cases hid : id = id'
    · subst hid
      rw [Function.update_self, Function.update_self]
      exact ⟨fun h => absurd h hpc, fun h => absurd rfl h, hcall.silent⟩
    · rw [Function.update_of_ne hid, Function.update_of_ne hid]
      exact hcall
  | drain id' =>
    obtain ⟨hqueued, rfl⟩ := drain_step hstep
    refine ⟨hcall.unclaimed, hcall.sending, ?_⟩
    dsimp only
    by_cases hid : id = id'
    · subst hid
      rw [Function.update_self, hcall.silent]
      -- With no continuation queued, a call whose result is not awaited is still sending.
      have hunobserved : s.unobserved remoteError id = false := by
        cases hpc : (s.session.calls id).pc with
        | sending =>
          have hsend : s.send id = none := by simpa [State.queued, hpc] using hqueued
          simp [State.unobserved, hpc, hcall.unclaimed hpc hsend]
        | failed error => simp [State.queued, hpc] at hqueued
        | _ => simp [State.unobserved, hpc]
      simpa using hunobserved
    · rw [Function.update_of_ne hid]
      exact hcall.silent

/-! ## Settling -/

/-- One call is replaced. -/
def State.setCall (s : State ι ρ ε) (id : ι) (c : Call ρ ε) : State ι ρ ε :=
  { s with session := s.session.setCall id c }

@[simp] theorem setCall_calls (c : Call ρ ε) : (s.setCall id c).session.calls id = c :=
  Function.update_self _ _ _

/-- A call that awaits a result that is there settles. -/
theorem settlesItself_of_awaiting (hpc : (s.session.calls id).pc = .awaiting)
    (hresult : (s.session.calls id).result ≠ none) : s.settlesItself remoteError closedError id := by
  obtain ⟨completion, hcompletion⟩ := Option.ne_none_iff_exists'.mp hresult
  refine ⟨s.setCall id { s.session.calls id with pc := .returned completion },
    .single ⟨.session (.settle id), rfl, ?_⟩, completion, by simp⟩
  simp [machine, step, Pending.step, hpc, hcompletion, State.setCall]

/-- A continuation that brings the call closer to its end. -/
theorem settlesItself_of_step (ha : a.continues id)
    (hstep : step remoteError closedError s a = some t)
    (h : t.settlesItself remoteError closedError id) : s.settlesItself remoteError closedError id := by
  obtain ⟨u, hsteps, hreturned⟩ := h
  exact ⟨u, .head ⟨a, ha, hstep⟩ hsteps, hreturned⟩

/-- A call whose send has failed settles by its `catch` block. -/
theorem settlesItself_of_failed {error : ε} (hpc : (s.session.calls id).pc = .failed error)
    (hresult : (s.session.calls id).result ≠ none) : s.settlesItself remoteError closedError id := by
  refine settlesItself_of_step (a := .session (.catch_ id)) (t := s.setCall id
    { (s.session.calls id).complete (.sendError error) with pc := .awaiting }) rfl ?_ ?_
  · simp [step, Pending.step, hpc, State.setCall]
  · refine settlesItself_of_awaiting (by simp) ?_
    simp only [setCall_calls, Call.complete]
    split_ifs
    · simp
    · exact hresult

/-- A call whose send has settled continues with it. -/
theorem settlesItself_of_sent {settled : Option ε} (hpc : (s.session.calls id).pc = .sending)
    (hsend : s.send id = some settled) (hresult : (s.session.calls id).result ≠ none) :
    s.settlesItself remoteError closedError id := by
  cases settled with
  | none =>
    refine settlesItself_of_step (a := .resume id) (t := { s.setCall id
      { s.session.calls id with pc := .awaiting } with send := Function.update s.send id none }) rfl ?_ ?_
    · simp [step, Pending.step, hpc, hsend, State.setCall]
    · exact settlesItself_of_awaiting (by simp) (by simpa using hresult)
  | some error =>
    refine settlesItself_of_step (a := .resume id) (t := { s.setCall id
      { s.session.calls id with pc := .failed error } with send := Function.update s.send id none })
      rfl ?_ ?_
    · simp [step, Pending.step, hpc, hsend, State.setCall]
    · have hfailed : ((s.setCall id { s.session.calls id with pc := .failed error }).session.calls id).pc =
          .failed error := by simp
      exact settlesItself_of_failed hfailed (by simpa using hresult)

/-- The invariant makes every request settle promptly. -/
theorem Inv.prompt (h : Inv s) : s.Prompt remoteError closedError := by
  refine fun id => ⟨fun hresult => ?_, (h.calls id).silent⟩
  have hunregistered : (s.session.calls id).pc.hasRegistered = true := by
    by_contra hne
    exact hresult ((h.session.calls id).unregistered (by simpa using hne)).2.2
  cases hpc : (s.session.calls id).pc with
  | idle => simp [hpc, Pc.hasRegistered] at hunregistered
  | refused => simp [hpc, Pc.hasRegistered] at hunregistered
  | sending =>
    cases hsend : s.send id with
    | none => exact absurd ((h.calls id).unclaimed hpc hsend) hresult
    | some settled => exact settlesItself_of_sent hpc hsend hresult
  | failed error => exact settlesItself_of_failed hpc hresult
  | awaiting => exact settlesItself_of_awaiting hpc hresult
  | returned completion => exact ⟨s, .refl, completion, hpc⟩

/-- A call that waits for its send has no continuation. -/
theorem not_settlesItself (hpc : (s.session.calls id).pc = .sending) (hsend : s.send id = none) :
    ¬ s.settlesItself remoteError closedError id := by
  rintro ⟨t, hsteps, completion, hreturned⟩
  have hstuck : (t.session.calls id).pc = .sending ∧ t.send id = none := by
    refine hsteps.invariant (I := fun s => (s.session.calls id).pc = .sending ∧ s.send id = none) ?_
      ⟨hpc, hsend⟩
    rintro s a t ⟨hpc, hsend⟩ ha hstep
    cases a with
    | session b =>
      cases b with
      | catch_ id' =>
        cases ha
        simp [machine, step, Pending.step, hpc] at hstep
      | settle id' =>
        cases ha
        simp [machine, step, Pending.step, hpc] at hstep
      | _ => cases ha
    | resume id' =>
      cases ha
      simp [machine, step, hsend] at hstep
    | _ => cases ha
  rw [hreturned] at hstuck
  cases hstuck.1

/-- Claiming the entry of a stalled call leaves its promise unsettled. -/
theorem not_prompt_of_claim (hG : ¬ SendsFirst s a)
    (hstep : step remoteError closedError s a = some t) : ¬ t.Prompt remoteError closedError := by
  have hbreak : ∀ id, s.stalled id → t.send = s.send →
      (∃ completion, t.session.calls id = (s.session.calls id).complete completion) →
      ¬ t.Prompt remoteError closedError := by
    rintro id ⟨hpending, hpc, hnone⟩ hsend ⟨completion, hc⟩ hprompt
    have hpc' : (t.session.calls id).pc = .sending := by
      rw [hc, Call.complete_pc]
      exact hpc
    have hresult : (t.session.calls id).result ≠ none := by
      rw [hc, Call.complete, if_pos hpending]
      simp
    exact not_settlesItself hpc' (by rw [hsend]; exact hnone) ((hprompt id).1 hresult)
  cases a with
  | session b =>
    obtain ⟨hsession, hsend, -⟩ := session_step hstep
    cases b with
    | cancel id error =>
      have hcalls := Option.some.inj hsession
      exact hbreak id (not_not.mp hG) hsend ⟨_, by rw [← hcalls]; exact Function.update_self _ _ _⟩
    | response id response =>
      have hcalls := Option.some.inj hsession
      exact hbreak id (not_not.mp hG) hsend ⟨_, by rw [← hcalls]; exact Function.update_self _ _ _⟩
    | failPending cause =>
      obtain ⟨id, hid⟩ := not_forall.mp hG
      simp only [Pending.step, Option.ite_none_right_eq_some, Option.some.injEq] at hsession
      exact hbreak id (not_not.mp hid) hsend ⟨_, by rw [← hsession.2]⟩
    | _ => exact absurd trivial hG
  | _ => exact absurd trivial hG

/-- Every request settles promptly and no rejection is unhandled, throughout a run, exactly if no step of
the run claims the entry of a request whose send is pending. -/
theorem prompt_iff_sendsFirst (remoteError : ρ → Bool) (closedError : ε)
    (run : List (Action ι ρ ε)) (t : State ι ρ ε)
    (hrun : (machine remoteError closedError).exec initial run = some t) :
    (machine remoteError closedError).Throughout (State.Prompt remoteError closedError) initial run ↔
      (machine remoteError closedError).Along SendsFirst initial run :=
  Machine.throughout_iff_along (fun _ hs => Inv.prompt hs) (fun _ _ _ hs hG hstep => hs.step hG hstep)
    (fun _ _ _ _ hG hstep => not_prompt_of_claim hG hstep) inv_initial hrun

/-- The send settles, and then a response comes; a response only says whether the request succeeded. -/
def answeredRun : List (Action Unit Bool String) :=
  [.session .run, .session .activate, .session (.call () none), .sendSettles () none,
    .resume (), .drain (), .session (.response () false), .session (.settle ()), .drain ()]

theorem answeredRun_prompt :
    ∃ t : State Unit Bool String,
      (machine not "session is closed").exec initial answeredRun = some t ∧
      (machine not "session is closed").Throughout
        (State.Prompt not "session is closed") initial answeredRun := by
  refine ⟨_, rfl, (prompt_iff_sendsFirst not "session is closed" answeredRun _ rfl).mpr ?_⟩
  decide

/-- The transport does not take the frame, and the request times out. -/
def stalledRun : List (Action Unit Bool String) :=
  [.session .run, .session .activate, .session (.call () none),
    .session (.cancel () "request timed out"), .drain ()]

/-- The promise of the request stays unsettled, and the rejection is unhandled. -/
theorem stalledRun_not_prompt :
    ∃ t : State Unit Bool String,
      (machine not "session is closed").exec initial stalledRun = some t ∧
      (t.session.calls ()).pc = .sending ∧ t.reported () = true ∧
      ¬ t.Prompt not "session is closed" :=
  ⟨_, rfl, rfl, rfl, fun hprompt => by cases (hprompt ()).2⟩

end Rtvbp.TypeScript.Request
