import Rtvbp.Go.Pending

/-!
# The Go session completes every request once

The invariant of a call relates its program counter to its entry in the table: whoever takes the entry
out completes the request, and the result is in the channel until the call has read it. A request that
is registered after `failPending` has run belongs to a call that still has to look at `closing`, which
is set by then.
-/

namespace Rtvbp.Go.Pending

open Rtvbp.Lib Rtvbp.Pending

variable {ι ρ ε : Type} {closedError : ε}

/-- The invariant of a call. -/
structure Call.Inv (swept : Bool) (c : Call ρ ε) : Prop where
  unregistered : c.pc.hasRegistered = false →
    c.pending = false ∧ c.completions = [] ∧ c.result = none
  pending : c.pending = true → c.completions = [] ∧ c.result = none
  completed : c.pc.hasRegistered = true → c.pending = false → ∃ r, c.completions = [r] ∧
    (c.pc = .returned r ∨ c.pc.outcome = .running ∧ c.result = some r)
  draining : c.pc = .draining → c.pending = false
  returned : ∀ r, c.pc = .returned r → c.pending = false
  swept : swept = true → c.pending = true → c.pc = .registered ∨ ∃ error, c.pc = .sendFailed error

theorem Call.Inv.complete {swept : Bool} {c : Call ρ ε} (h : c.Inv swept)
    (completion : Completion ρ ε) : (c.complete completion).Inv swept := by
  unfold Call.complete
  split_ifs with hp
  · obtain ⟨hunreg, hpending, hcompleted, hdraining, hreturned, hswept⟩ := h
    have hreg : c.pc.hasRegistered = true := by
      by_contra hne
      simp [(hunreg (by simpa using hne)).1] at hp
    have hrunning : c.pc.outcome = .running := by
      cases hpc : c.pc <;> simp_all [Pc.outcome, Pc.hasRegistered]
    refine ⟨?_, by simp, ?_, by simp, by simp, by simp⟩
    · intro hne
      simp [hreg] at hne
    · intro _ _
      exact ⟨completion, by simp [(hpending hp).1], Or.inr ⟨hrunning, rfl⟩⟩
  · exact h

theorem Call.Inv.cancelPending {swept : Bool} {c : Call ρ ε} (h : c.Inv swept)
    (hreg : c.pc.hasRegistered = true) (hrunning : c.pc.outcome = .running)
    (completion : Completion ρ ε) : (c.cancelPending completion).Inv swept := by
  obtain ⟨hunreg, hpending, hcompleted, hdraining, hreturned, hswept⟩ := h
  unfold Call.cancelPending
  split_ifs with hp
  · refine ⟨by simp [Pc.hasRegistered], by simp, ?_, by simp, by simp, by simp⟩
    intro _ _
    exact ⟨completion, by simp [(hpending hp).1], Or.inl rfl⟩
  · have hp' : c.pending = false := by simpa using hp
    refine ⟨by simp [Pc.hasRegistered], by simp [hp'], ?_, by simp [hp'], by simp, by simp [hp']⟩
    intro _ _
    obtain ⟨r, hr, hpc | ⟨-, hresult⟩⟩ := hcompleted hreg hp'
    · simp [hpc, Pc.outcome] at hrunning
    · exact ⟨r, hr, Or.inr ⟨rfl, hresult⟩⟩

/-- A call that moves on without touching its entry. -/
theorem Call.Inv.move {swept : Bool} {c : Call ρ ε} (h : c.Inv swept) {pc : Pc ρ ε}
    (hreg : pc.hasRegistered = c.pc.hasRegistered)
    (hrunning : c.pc.outcome = .running ∧ pc.outcome = .running ∨ pc.hasRegistered = false)
    (hdraining : pc ≠ .draining)
    (hswept : swept = true → c.pending = true → ∃ error, pc = .sendFailed error) :
    ({ c with pc := pc } : Call ρ ε).Inv swept := by
  obtain ⟨hunreg, hpending, hcompleted, -, -, -⟩ := h
  refine ⟨?_, hpending, ?_, ?_, ?_, ?_⟩
  · intro hne
    exact hunreg (by rw [← hreg]; exact hne)
  · intro hr hp
    obtain ⟨r, hcompletions, hpc | ⟨hrun, hresult⟩⟩ := hcompleted (by rw [← hreg]; exact hr) hp
    · rcases hrunning with ⟨hrun, -⟩ | hne
      · simp [hpc, Pc.outcome] at hrun
      · simp [hne] at hr
    · rcases hrunning with ⟨-, hrun'⟩ | hne
      · exact ⟨r, hcompletions, Or.inr ⟨hrun', hresult⟩⟩
      · simp [hne] at hr
  · exact fun hd => absurd hd hdraining
  · intro r hr
    rcases hrunning with ⟨-, hrun⟩ | hne
    · simp only at hr
      simp [hr, Pc.outcome] at hrun
    · simp only at hr
      simp [hr, Pc.hasRegistered] at hne
  · intro hs hp
    exact Or.inr (hswept hs hp)

/-- The call reads its result and returns. -/
theorem Call.Inv.receive {swept : Bool} {c : Call ρ ε} (h : c.Inv swept)
    (hreg : c.pc.hasRegistered = true) (hrunning : c.pc.outcome = .running) {r : Completion ρ ε} (hresult : c.result = some r) :
    ({ c with pc := .returned r, result := none } : Call ρ ε).Inv swept := by
  have hp : c.pending = false := by
    by_contra hp
    simp [(h.pending (by simpa using hp)).2] at hresult
  obtain ⟨r', hcompletions, hpc | ⟨-, hr⟩⟩ := h.completed hreg hp
  · simp [hpc, Pc.outcome] at hrunning
  · rw [hresult] at hr
    cases hr
    exact ⟨by simp [Pc.hasRegistered], by simp [hp], fun _ _ => ⟨r, hcompletions, Or.inl rfl⟩,
      by simp, fun _ _ => hp, by simp [hp]⟩

/-- `failPending` on one call: afterwards the request is not in the table. -/
theorem Call.Inv.sweep {swept : Bool} {c : Call ρ ε} (h : c.Inv swept) (cause : ε) :
    (c.complete (.shutdown cause)).Inv true := by
  have hp : (c.complete (.shutdown cause)).pending = false := by
    unfold Call.complete
    split_ifs with hp
    · rfl
    · simpa using hp
  obtain ⟨hunreg, hpending, hcompleted, hdraining, hreturned, -⟩ := h.complete (.shutdown cause)
  exact ⟨hunreg, hpending, hcompleted, hdraining, hreturned, by simp [hp]⟩

/-- Every step of a call keeps its invariant, if `closing` is set once the requests have been failed. -/
theorem Call.Inv.step {swept closing connected : Bool} {c t : Call ρ ε} {action : CallAction ε}
    (h : c.Inv swept) (hclosing : swept = true → closing = true)
    (hstep : c.step closedError closing connected action = some t) : t.Inv swept := by
  cases action with
  | reject =>
    cases hpc : c.pc <;> simp only [Call.step, hpc, Bool.false_eq_true, if_false, if_true,
      reduceCtorEq, Option.some.injEq] at hstep
    subst hstep
    exact h.move (by simp [hpc, Pc.hasRegistered]) (Or.inr rfl) (by simp)
      (by simp [(h.unregistered (by simp [hpc, Pc.hasRegistered])).1])
  | check =>
    cases hpc : c.pc <;> simp only [Call.step, hpc, Bool.false_eq_true, if_false, if_true,
      reduceCtorEq, Option.some.injEq] at hstep
    subst hstep
    have hp := (h.unregistered (by simp [hpc, Pc.hasRegistered])).1
    cases closing <;>
      exact h.move (by simp [hpc, Pc.hasRegistered]) (Or.inr rfl) (by simp) (by simp [hp])
  | register =>
    cases hpc : c.pc <;> simp only [Call.step, hpc, Bool.false_eq_true, if_false, if_true,
      reduceCtorEq, Option.some.injEq] at hstep
    subst hstep
    obtain ⟨-, hcompletions, hresult⟩ := h.unregistered (by simp [hpc, Pc.hasRegistered])
    exact ⟨by simp [Pc.hasRegistered], fun _ => ⟨hcompletions, hresult⟩, by simp, by simp, by simp,
      fun _ _ => Or.inl rfl⟩
  | beginSend encodeError =>
    cases hpc : c.pc <;> simp only [Call.step, hpc, Bool.false_eq_true, if_false, if_true,
      reduceCtorEq, Option.some.injEq] at hstep
    subst hstep
    cases hopen : closing || !connected with
    | true =>
      exact h.move (by simp [hpc, Pc.hasRegistered]) (Or.inl ⟨by rw [hpc]; rfl, rfl⟩) (by simp)
        (fun _ _ => ⟨_, rfl⟩)
    | false =>
      have hswept : swept ≠ true := fun hs => by simp [hclosing hs] at hopen
      cases encodeError <;>
        exact h.move (by simp [hpc, Pc.hasRegistered]) (Or.inl ⟨by rw [hpc]; rfl, rfl⟩) (by simp)
          (fun hs _ => absurd hs hswept)
  | sendReturns error =>
    cases hpc : c.pc <;> simp only [Call.step, hpc, Bool.false_eq_true, if_false, if_true,
      reduceCtorEq, Option.some.injEq] at hstep
    subst hstep
    have hlive : swept = true → c.pending = false := by
      intro hs
      by_contra hp
      rcases h.swept hs (by simpa using hp) with h1 | ⟨e, h1⟩ <;> simp [hpc] at h1
    cases error <;>
      exact h.move (by simp [hpc, Pc.hasRegistered]) (Or.inl ⟨by rw [hpc]; rfl, rfl⟩) (by simp)
        (by simp +contextual [hlive])
  | receive =>
    cases hpc : c.pc <;> cases hresult : c.result <;>
      simp only [Call.step, hpc, hresult, reduceCtorEq, Option.some.injEq] at hstep
    subst hstep
    exact h.receive (by rw [hpc]; rfl) (by rw [hpc]; rfl) hresult
  | contextDone error =>
    cases hpc : c.pc <;> simp only [Call.step, hpc, Bool.false_eq_true, if_false, if_true,
      reduceCtorEq, Option.some.injEq] at hstep
    subst hstep
    have hlive : swept = true → c.pending = false := by
      intro hs
      by_contra hp
      rcases h.swept hs (by simpa using hp) with h1 | ⟨e, h1⟩ <;> simp [hpc] at h1
    exact h.move (by simp [hpc, Pc.hasRegistered]) (Or.inl ⟨by rw [hpc]; rfl, rfl⟩) (by simp)
      (by simp +contextual [hlive])
  | cancel =>
    cases hpc : c.pc <;> simp only [Call.step, hpc, reduceCtorEq, Option.some.injEq] at hstep
    all_goals
      subst hstep
      exact h.cancelPending (by rw [hpc]; rfl) (by rw [hpc]; rfl) _
  | drain =>
    cases hpc : c.pc <;> cases hresult : c.result <;>
      simp only [Call.step, hpc, hresult, reduceCtorEq, Option.some.injEq] at hstep
    subst hstep
    exact h.receive (by rw [hpc]; rfl) (by rw [hpc]; rfl) hresult

/-! ## What later steps leave of a request -/

/-- The request was registered and is not in the table any more. -/
def Call.Settled (c : Call ρ ε) : Prop := c.pc.hasRegistered = true ∧ c.pending = false

/-- The shutdown has failed the request. -/
def Call.FailedByShutdown (c : Call ρ ε) : Prop := ∃ cause, .shutdown cause ∈ c.completions

/-- A later state of a call: it stays registered, and a settled request keeps its completion. -/
structure Call.Later (c d : Call ρ ε) : Prop where
  registered : c.pc.hasRegistered = true → d.pc.hasRegistered = true
  settled : c.Settled → d.Settled ∧ d.completions = c.completions

theorem Call.Later.refl (c : Call ρ ε) : c.Later c := ⟨id, fun h => ⟨h, rfl⟩⟩

theorem Call.later_complete (c : Call ρ ε) (completion : Completion ρ ε) :
    c.Later (c.complete completion) := by
  unfold Call.complete
  split_ifs with hp
  · refine ⟨id, fun hs => ?_⟩
    simp [hs.2] at hp
  · exact .refl c

/-- A call that moves on without touching its entry. -/
theorem Call.later_move {c d : Call ρ ε} (hreg : c.pc.hasRegistered = true → d.pc.hasRegistered = true)
    (hpending : d.pending = c.pending) (hcompletions : d.completions = c.completions) : c.Later d :=
  ⟨hreg, fun hs => ⟨⟨hreg hs.1, hpending.trans hs.2⟩, hcompletions⟩⟩

theorem Call.later_of_unregistered {c d : Call ρ ε} (hreg : c.pc.hasRegistered = false) : c.Later d := by
  refine ⟨fun h => ?_, fun h => ?_⟩
  · simp [hreg] at h
  · exact absurd h.1 (by simp [hreg])

theorem Call.later_cancelPending (c : Call ρ ε) (completion : Completion ρ ε) :
    c.Later (c.cancelPending completion) := by
  unfold Call.cancelPending
  split_ifs with hp
  · refine ⟨fun _ => rfl, fun hs => ?_⟩
    simp [hs.2] at hp
  · exact Call.later_move (fun _ => rfl) rfl rfl

/-- What a step of a call itself does to it; it never fails its request by a shutdown. -/
theorem Call.later_step {closing connected : Bool} {c d : Call ρ ε} {action : CallAction ε}
    (hstep : c.step closedError closing connected action = some d) :
    c.Later d ∧ (d.FailedByShutdown → c.FailedByShutdown) := by
  have hcancel : ∀ completion : Completion ρ ε, (∀ cause, completion ≠ .shutdown cause) →
      (c.cancelPending completion).FailedByShutdown → c.FailedByShutdown := by
    rintro completion hne ⟨cause, hcause⟩
    unfold Call.cancelPending at hcause
    split_ifs at hcause
    · rcases List.mem_append.mp hcause with hcause | hcause
      · exact ⟨cause, hcause⟩
      · exact absurd (List.mem_singleton.mp hcause).symm (hne cause)
    · exact ⟨cause, hcause⟩
  cases action with
  | reject | check | register =>
    cases hpc : c.pc <;> simp only [Call.step, hpc, Bool.false_eq_true, if_false, if_true,
      reduceCtorEq, Option.some.injEq] at hstep
    subst hstep
    exact ⟨Call.later_of_unregistered (by rw [hpc]; rfl), id⟩
  | contextDone error =>
    cases hpc : c.pc <;> simp only [Call.step, hpc, Bool.false_eq_true, if_false, if_true,
      reduceCtorEq, Option.some.injEq] at hstep
    subst hstep
    exact ⟨Call.later_move (fun _ => rfl) rfl rfl, id⟩
  | beginSend encodeError =>
    cases hpc : c.pc <;> simp only [Call.step, hpc, Bool.false_eq_true, if_false, if_true,
      reduceCtorEq, Option.some.injEq] at hstep
    subst hstep
    refine ⟨Call.later_move (fun _ => ?_) rfl rfl, id⟩
    cases closing || !connected <;> cases encodeError <;> rfl
  | sendReturns error =>
    cases hpc : c.pc <;> simp only [Call.step, hpc, Bool.false_eq_true, if_false, if_true,
      reduceCtorEq, Option.some.injEq] at hstep
    subst hstep
    refine ⟨Call.later_move (fun _ => ?_) rfl rfl, id⟩
    cases error <;> rfl
  | receive | drain =>
    cases hpc : c.pc <;> cases hresult : c.result <;>
      simp only [Call.step, hpc, hresult, reduceCtorEq, Option.some.injEq] at hstep
    subst hstep
    exact ⟨Call.later_move (fun _ => rfl) rfl rfl, id⟩
  | cancel =>
    cases hpc : c.pc <;> simp only [Call.step, hpc, reduceCtorEq, Option.some.injEq] at hstep
    all_goals
      subst hstep
      exact ⟨c.later_cancelPending _, hcancel _ (by simp)⟩

/-! ## Where a response comes from -/

theorem Call.response_mem_of_complete {c : Call ρ ε} {completion : Completion ρ ε} {response : ρ}
    (hne : completion ≠ .response response) (h : .response response ∈ (c.complete completion).completions) :
    .response response ∈ c.completions := by
  unfold Call.complete at h
  split_ifs at h
  · rcases List.mem_append.mp h with h | h
    · exact h
    · exact absurd (List.mem_singleton.mp h).symm hne
  · exact h

/-- No call completes its own request with a response. -/
theorem Call.response_mem_of_step {closing connected : Bool} {c d : Call ρ ε} {action : CallAction ε} {response : ρ}
    (hstep : c.step closedError closing connected action = some d) (h : .response response ∈ d.completions) :
    .response response ∈ c.completions := by
  have hcancel : ∀ completion : Completion ρ ε, completion ≠ .response response →
      .response response ∈ (c.cancelPending completion).completions → .response response ∈ c.completions := by
    intro completion hne hmem
    unfold Call.cancelPending at hmem
    split_ifs at hmem
    · rcases List.mem_append.mp hmem with hmem | hmem
      · exact hmem
      · exact absurd (List.mem_singleton.mp hmem).symm hne
    · exact hmem
  cases action with
  | reject | check | register | contextDone error | beginSend error | sendReturns error =>
    cases hpc : c.pc <;> simp only [Call.step, hpc, Bool.false_eq_true, if_false, if_true,
      reduceCtorEq, Option.some.injEq] at hstep
    subst hstep
    exact h
  | receive | drain =>
    cases hpc : c.pc <;> cases hresult : c.result <;>
      simp only [Call.step, hpc, hresult, reduceCtorEq, Option.some.injEq] at hstep
    subst hstep
    exact h
  | cancel =>
    cases hpc : c.pc <;> simp only [Call.step, hpc, reduceCtorEq, Option.some.injEq] at hstep
    all_goals
      subst hstep
      exact hcancel _ (by simp) h

/-! ## The session -/

/-- The invariant of the session. -/
structure Inv (s : State ι ρ ε) : Prop where
  closing : s.shutdown = true → s.closing = true
  swept : s.swept = true → s.shutdown = true
  calls : ∀ id, (s.calls id).Inv s.swept

theorem inv_initial : Inv (initial : State ι ρ ε) := by
  refine ⟨by simp [initial], by simp [initial], fun id => ?_⟩
  constructor <;> simp [initial, Call.new, Pc.hasRegistered]

variable [DecidableEq ι]

theorem Inv.response {s : State ι ρ ε} (h : Inv s) (id : ι) (response : ρ) :
    Inv (s.setCall id ((s.calls id).complete (.response response))) := by
  refine ⟨h.closing, h.swept, fun other => ?_⟩
  by_cases hid : other = id
  · subst hid
    simpa [State.setCall] using (h.calls other).complete _
  · simpa [State.setCall, Function.update_of_ne hid] using h.calls other

theorem Inv.step {s t : State ι ρ ε} {a : Action ι ρ ε} (h : Inv s)
    (hstep : step closedError s a = some t) : Inv t := by
  obtain ⟨hclosing, hswept, hcalls⟩ := h
  cases a with
  | call id action =>
    obtain ⟨c, hc, rfl⟩ := Option.map_eq_some_iff.mp hstep
    refine ⟨hclosing, hswept, fun other => ?_⟩
    by_cases hid : other = id
    · subst hid
      simpa [State.setCall] using (hcalls other).step (fun hs => hclosing (hswept hs)) hc
    · simpa [State.setCall, Function.update_of_ne hid] using hcalls other
  | response id response =>
    obtain rfl := Option.some.inj hstep
    exact Inv.response ⟨hclosing, hswept, hcalls⟩ id response
  | connect =>
    obtain rfl := Option.some.inj hstep
    exact ⟨hclosing, hswept, hcalls⟩
  | requestStop =>
    obtain rfl := Option.some.inj hstep
    exact ⟨fun _ => rfl, hswept, hcalls⟩
  | beginShutdown =>
    obtain rfl := Option.some.inj hstep
    exact ⟨fun _ => rfl, fun _ => rfl, hcalls⟩
  | failPending cause =>
    simp only [Pending.step, Option.ite_none_right_eq_some] at hstep
    obtain ⟨⟨hshutdown, -⟩, hstep⟩ := hstep
    obtain rfl := Option.some.inj hstep
    exact ⟨hclosing, fun _ => hshutdown, fun id => (hcalls id).sweep cause⟩

theorem Inv.of_reachable {s : State ι ρ ε} (h : (machine closedError).Reachable s) : Inv s :=
  Machine.Reachable.invariant (fun _ hs => hs ▸ inv_initial) (fun _ _ _ hinv hl => hinv.step hl) h

/-- A call whose frame could not be sent cancels its request. -/
theorem selfCompletes_of_sendFailed {s : State ι ρ ε} {id : ι} {error : ε}
    (hpc : (s.calls id).pc = .sendFailed error) (hpending : (s.calls id).pending = true) :
    s.selfCompletes closedError id := by
  refine ⟨s.setCall id ((s.calls id).cancelPending (.sendError error)),
    .single ⟨.call id .cancel, ⟨.cancel, rfl, trivial⟩, ?_⟩, ?_⟩
  · simp [machine, Pending.step, Call.step, hpc]
  · simp [State.setCall, Call.cancelPending, hpending]

/-- A request that is still registered after the shutdown is cancelled by its own call. -/
theorem Inv.selfCompletes {s : State ι ρ ε} (h : Inv s) (hswept : s.swept = true) {id : ι}
    (hpending : (s.calls id).pending = true) : s.selfCompletes closedError id := by
  have hclosing := h.closing (h.swept hswept)
  rcases (h.calls id).swept hswept hpending with hpc | ⟨error, hpc⟩
  · -- the call has not looked at `closing` yet, and will find it set
    have hstep : Pending.step closedError s (.call id (.beginSend none)) =
        some (s.setCall id { s.calls id with pc := .sendFailed closedError }) := by
      simp [Pending.step, Call.step, hpc, hclosing]
    obtain ⟨t, hsteps, ht⟩ := @selfCompletes_of_sendFailed ι ρ ε closedError _
      (s.setCall id { s.calls id with pc := .sendFailed closedError }) id closedError
      (by simp [State.setCall]) (by simp [State.setCall, hpending])
    exact ⟨t, .head ⟨_, ⟨.beginSend none, rfl, trivial⟩, hstep⟩ hsteps, ht⟩
  · exact selfCompletes_of_sendFailed hpc hpending

/-- The contract holds in every reachable state. -/
theorem Inv.sound {s : State ι ρ ε} (h : Inv s) : (s.view closedError).Sound := by
  refine ⟨?_, ?_, ?_, ?_, ?_, ?_⟩
  · intro id hreg
    have := (h.calls id).unregistered (by simpa [State.view] using hreg)
    exact ⟨this.1, this.2.1⟩
  · exact fun id hp => ((h.calls id).pending hp).1
  · intro id hreg hp
    obtain ⟨r, hr, -⟩ := (h.calls id).completed hreg hp
    exact ⟨r, hr⟩
  · intro id hout hreg
    simp only [State.view] at hout hreg
    cases hpc : (s.calls id).pc <;> simp [hpc, Pc.outcome, Pc.hasRegistered] at hout hreg
  · intro id c hout
    simp only [State.view] at hout
    have hpc : (s.calls id).pc = .returned c := by
      cases hpc : (s.calls id).pc <;> simp_all [Pc.outcome]
    have hreg : (s.calls id).pc.hasRegistered = true := by rw [hpc]; rfl
    have hp := (h.calls id).returned c hpc
    obtain ⟨r, hr, hret | ⟨hrun, -⟩⟩ := (h.calls id).completed hreg hp
    · rw [hpc] at hret
      cases hret
      exact ⟨hreg, hp, hr⟩
    · simp [hpc, Pc.outcome] at hrun
  · exact fun hswept id hp => h.selfCompletes hswept hp

/-- What any step does to a call. -/
theorem later_step {s t : State ι ρ ε} {a : Action ι ρ ε} (hstep : step closedError s a = some t)
    (id : ι) : (s.calls id).Later (t.calls id) := by
  cases a with
  | call other action =>
    obtain ⟨c, hc, rfl⟩ := Option.map_eq_some_iff.mp hstep
    by_cases hid : id = other
    · subst hid
      simpa [State.setCall] using (Call.later_step hc).1
    · simpa [State.setCall, Function.update_of_ne hid] using Call.Later.refl _
  | response other response =>
    obtain rfl := Option.some.inj hstep
    by_cases hid : id = other
    · subst hid
      simpa [State.setCall] using Call.later_complete _ _
    · simpa [State.setCall, Function.update_of_ne hid] using Call.Later.refl _
  | connect | requestStop | beginShutdown =>
    obtain rfl := Option.some.inj hstep
    exact .refl _
  | failPending cause =>
    simp only [Pending.step, Option.ite_none_right_eq_some] at hstep
    obtain rfl := Option.some.inj hstep.2
    exact Call.later_complete _ _

/-- Only `failPending` fails a request by the shutdown. -/
theorem failedByShutdown_step {s t : State ι ρ ε} {a : Action ι ρ ε}
    (hstep : step closedError s a = some t) (ha : ∀ cause, a ≠ .failPending cause) (id : ι)
    (h : (t.calls id).FailedByShutdown) : (s.calls id).FailedByShutdown := by
  cases a with
  | call other action =>
    obtain ⟨c, hc, rfl⟩ := Option.map_eq_some_iff.mp hstep
    by_cases hid : id = other
    · subst hid
      exact (Call.later_step hc).2 (by simpa [State.setCall] using h)
    · simpa [State.setCall, Function.update_of_ne hid] using h
  | response other response =>
    obtain rfl := Option.some.inj hstep
    by_cases hid : id = other
    · subst hid
      simp only [State.setCall, Function.update_self] at h
      unfold Call.complete at h
      split_ifs at h
      · obtain ⟨cause, hcause⟩ := h
        exact ⟨cause, by simpa using hcause⟩
      · exact h
    · simpa [State.setCall, Function.update_of_ne hid] using h
  | connect | requestStop | beginShutdown =>
    obtain rfl := Option.some.inj hstep
    exact h
  | failPending cause => exact absurd rfl (ha cause)

/-- A response frame completes at most the request that carries its id. -/
theorem respondsTo {s t : State ι ρ ε} {id : ι} {response : ρ}
    (hstep : step closedError s (.response id response) = some t) :
    View.RespondsTo (s.view closedError) (t.view closedError) id response := by
  obtain rfl := Option.some.inj hstep
  refine ⟨fun other hother => ?_, ?_⟩
  · simp [State.view, State.setCall, Function.update_of_ne hother]
  · cases hp : (s.calls id).pending <;> simp [State.view, State.setCall, Call.complete, hp]

end Rtvbp.Go.Pending
