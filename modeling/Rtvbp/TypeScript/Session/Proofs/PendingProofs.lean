import Rtvbp.TypeScript.Session.Pending

/-!
# The TypeScript session completes every request once

Whoever takes the entry of a request out of the map settles its result. `#failPending` runs after the
abort, so that a request registered later is refused by `#sendFrame`, and the `catch` block of its call
takes it out again.
-/

namespace Rtvbp.TypeScript.Pending

open Rtvbp.Lib Rtvbp.Pending

variable {ι ρ ε : Type} {closedError : ε}

/-- The invariant of a call. -/
structure Call.Inv (swept : Bool) (c : Call ρ ε) : Prop where
  unregistered : c.pc.hasRegistered = false →
    c.pending = false ∧ c.completions = [] ∧ c.result = none
  pending : c.pending = true → c.completions = [] ∧ c.result = none
  completed : c.pc.hasRegistered = true → c.pending = false →
    ∃ r, c.completions = [r] ∧ c.result = some r
  awaited : ∀ r, c.pc = .returned r → c.result = some r
  swept : swept = true → c.pending = true → ∃ error, c.pc = .failed error

@[simp] theorem Call.complete_pending (c : Call ρ ε) (completion : Completion ρ ε) :
    (c.complete completion).pending = false := by
  unfold Call.complete
  split_ifs with hp
  · rfl
  · simpa using hp

@[simp] theorem Call.complete_pc (c : Call ρ ε) (completion : Completion ρ ε) :
    (c.complete completion).pc = c.pc := by
  unfold Call.complete
  split_ifs <;> rfl

theorem Call.Inv.complete {swept : Bool} {c : Call ρ ε} (h : c.Inv swept)
    (completion : Completion ρ ε) : (c.complete completion).Inv swept := by
  unfold Call.complete
  split_ifs with hp
  · obtain ⟨hunreg, hpending, hcompleted, hawaited, hswept⟩ := h
    have hreg : c.pc.hasRegistered = true := by
      by_contra hne
      simp [(hunreg (by simpa using hne)).1] at hp
    refine ⟨?_, by simp, ?_, ?_, by simp⟩
    · intro hne
      simp [hreg] at hne
    · exact fun _ _ => ⟨completion, by simp [(hpending hp).1], rfl⟩
    · intro r hr
      simp [hawaited r hr] at hpending
      simp [hp] at hpending
  · exact h

/-- `#failPending` on one call: afterwards the request is not in the map. -/
theorem Call.Inv.sweep {swept : Bool} {c : Call ρ ε} (h : c.Inv swept) (cause : ε) :
    (c.complete (.shutdown cause)).Inv true := by
  obtain ⟨hunreg, hpending, hcompleted, hawaited, -⟩ := h.complete (.shutdown cause)
  exact ⟨hunreg, hpending, hcompleted, hawaited, by simp⟩

/-- A call that moves on without touching its entry. -/
theorem Call.Inv.move {swept : Bool} {c : Call ρ ε} (h : c.Inv swept) {pc : Pc ρ ε}
    (hreg : pc.hasRegistered = c.pc.hasRegistered) (hawaited : ∀ r, pc = .returned r → c.result = some r)
    (hswept : swept = true → c.pending = true → ∃ error, pc = .failed error) :
    ({ c with pc := pc } : Call ρ ε).Inv swept :=
  ⟨fun hne => h.unregistered (hreg ▸ hne), h.pending, fun hr hp => h.completed (hreg ▸ hr) hp,
    hawaited, hswept⟩

/-- `request` registers the request only if it can still be swept, or fails itself. -/
theorem Call.Inv.request {swept : Bool} {c : Call ρ ε} (h : c.Inv swept) (hpc : c.pc = .idle)
    {life : Lifecycle ε} (haborted : swept = true → life.aborted = true) (encodeError : Option ε) :
    (c.request closedError life encodeError).Inv swept := by
  obtain ⟨hp, hcompletions, hresult⟩ := h.unregistered (by rw [hpc]; rfl)
  unfold Call.request
  split_ifs with hstate ha
  · exact ⟨by simp [Pc.hasRegistered], fun _ => ⟨hcompletions, hresult⟩, by simp, by simp,
      fun _ _ => ⟨_, rfl⟩⟩
  · have hswept : swept ≠ true := fun hs => ha (haborted hs)
    cases encodeError <;>
      exact ⟨by simp [Pc.hasRegistered], fun _ => ⟨hcompletions, hresult⟩, by simp, by simp,
        fun hs => absurd hs hswept⟩
  · exact h.move (by simp [hpc, Pc.hasRegistered]) (by simp) (by simp [hp])

/-! ## What later steps leave of a request -/

/-- The request was registered and is not in the map any more. -/
def Call.Settled (c : Call ρ ε) : Prop := c.pc.hasRegistered = true ∧ c.pending = false

/-- The shutdown has failed the request. -/
def Call.FailedByShutdown (c : Call ρ ε) : Prop := ∃ cause, .shutdown cause ∈ c.completions

/-- A request that is not registered is not in the map, and one in the map is not completed. -/
structure Call.Tidy (c : Call ρ ε) : Prop where
  unregistered : c.pc.hasRegistered = false → c.pending = false ∧ c.completions = []
  pending : c.pending = true → c.completions = []

/-- A later state of a call: it stays registered, and a settled request keeps its completion. -/
structure Call.Later (c d : Call ρ ε) : Prop where
  tidy : c.Tidy → d.Tidy
  registered : c.pc.hasRegistered = true → d.pc.hasRegistered = true
  settled : c.Settled → d.Settled ∧ d.completions = c.completions

theorem Call.Later.refl (c : Call ρ ε) : c.Later c := ⟨fun h => h, fun h => h, fun h => ⟨h, rfl⟩⟩

theorem Call.Later.trans {c d e : Call ρ ε} (h : c.Later d) (h' : d.Later e) : c.Later e := by
  refine ⟨fun ht => h'.tidy (h.tidy ht), fun hr => h'.registered (h.registered hr), fun hs => ?_⟩
  obtain ⟨hd, hcompletions⟩ := h.settled hs
  obtain ⟨he, hcompletions'⟩ := h'.settled hd
  exact ⟨he, hcompletions'.trans hcompletions⟩

theorem Call.later_complete (c : Call ρ ε) (completion : Completion ρ ε) :
    c.Later (c.complete completion) := by
  unfold Call.complete
  split_ifs with hp
  · refine ⟨fun ht => ⟨fun hreg => ?_, by simp⟩, fun h => h, fun hs => ?_⟩
    · rw [(ht.unregistered hreg).1] at hp
      cases hp
    · rw [hs.2] at hp
      cases hp
  · exact .refl c

/-- A call that moves on without touching its entry. -/
theorem Call.later_move (c : Call ρ ε) {pc : Pc ρ ε} (hreg : pc.hasRegistered = c.pc.hasRegistered) :
    c.Later { c with pc := pc } := by
  refine ⟨fun ht => ⟨?_, ht.pending⟩, ?_, fun hs => ⟨⟨hreg.trans hs.1, hs.2⟩, rfl⟩⟩
  · intro hpc
    exact ht.unregistered (hreg.symm.trans hpc)
  · exact fun h => hreg.trans h

/-- A call that is made. -/
theorem Call.later_request {c : Call ρ ε} (hpc : c.pc = .idle) (life : Lifecycle ε)
    (encodeError : Option ε) : c.Later (c.request closedError life encodeError) := by
  have hreg : c.pc.hasRegistered = false := by rw [hpc]; rfl
  refine ⟨fun ht => ?_, fun h => ?_, fun h => ?_⟩
  · obtain ⟨hpending, hcompletions⟩ := ht.unregistered hreg
    unfold Call.request
    split_ifs
    · exact ⟨by simp [Pc.hasRegistered], fun _ => hcompletions⟩
    · cases encodeError <;> exact ⟨by simp [Pc.hasRegistered], fun _ => hcompletions⟩
    · exact ⟨fun _ => ⟨hpending, hcompletions⟩, fun _ => hcompletions⟩
  · rw [hreg] at h
    cases h
  · rw [Call.Settled, hreg] at h
    cases h.1

theorem Call.failed_of_complete {c : Call ρ ε} {completion : Completion ρ ε}
    (hne : ∀ cause, completion ≠ .shutdown cause) (h : (c.complete completion).FailedByShutdown) :
    c.FailedByShutdown := by
  obtain ⟨cause, hcause⟩ := h
  unfold Call.complete at hcause
  split_ifs at hcause
  · rcases List.mem_append.mp hcause with hcause | hcause
    · exact ⟨cause, hcause⟩
    · exact absurd (List.mem_singleton.mp hcause).symm (hne cause)
  · exact ⟨cause, hcause⟩

theorem Call.request_completions (c : Call ρ ε) (life : Lifecycle ε) (encodeError : Option ε) :
    (c.request closedError life encodeError).completions = c.completions := by
  unfold Call.request
  split_ifs <;> rfl

/-! ## The session -/

/-- The invariant of the session. -/
structure Inv (s : State ι ρ ε) : Prop where
  aborted : s.swept = true → s.life.aborted = true
  calls : ∀ id, (s.calls id).Inv s.swept

theorem inv_initial : Inv (initial : State ι ρ ε) := by
  refine ⟨by simp [initial], fun id => ?_⟩
  constructor <;> simp [initial, Call.new, Pc.hasRegistered]

variable [DecidableEq ι]

theorem Inv.setCall {s : State ι ρ ε} (h : Inv s) {id : ι} {c : Call ρ ε} (hc : c.Inv s.swept) :
    Inv (s.setCall id c) := by
  refine ⟨h.aborted, fun other => ?_⟩
  by_cases hid : other = id
  · subst hid
    simpa [State.setCall] using hc
  · simpa [State.setCall, Function.update_of_ne hid] using h.calls other

theorem Inv.step {s t : State ι ρ ε} {a : Action ι ρ ε} (h : Inv s)
    (hstep : step closedError s a = some t) : Inv t := by
  cases a with
  | reject id =>
    have hc := h.calls id
    cases hpc : (s.calls id).pc <;> simp only [Pending.step, hpc, reduceCtorEq, Option.some.injEq] at hstep
    subst hstep
    refine h.setCall (hc.move (by simp [hpc, Pc.hasRegistered]) (by simp) ?_)
    simp [(hc.unregistered (by rw [hpc]; rfl)).1]
  | call id encodeError =>
    cases hpc : (s.calls id).pc <;> simp only [Pending.step, hpc, reduceCtorEq, Option.some.injEq] at hstep
    subst hstep
    exact h.setCall ((h.calls id).request hpc h.aborted encodeError)
  | sendSettles id error =>
    have hc := h.calls id
    cases hpc : (s.calls id).pc <;> cases error <;>
      simp only [Pending.step, hpc, reduceCtorEq, Option.some.injEq] at hstep
    all_goals
      subst hstep
      refine h.setCall (hc.move (by simp [hpc, Pc.hasRegistered]) (by simp) fun hs hp => ?_)
      obtain ⟨e, he⟩ := hc.swept hs hp
      simp [hpc] at he
  | catch_ id =>
    have hc := h.calls id
    cases hpc : (s.calls id).pc <;> simp only [Pending.step, hpc, reduceCtorEq, Option.some.injEq] at hstep
    next error =>
    subst hstep
    exact h.setCall ((hc.complete (.sendError error)).move (by simp [hpc, Pc.hasRegistered])
      (by simp) (by simp))
  | cancel id error =>
    obtain rfl := Option.some.inj hstep
    exact h.setCall ((h.calls id).complete _)
  | settle id =>
    have hc := h.calls id
    simp only [Pending.step] at hstep
    split at hstep
    · next completion hpc hresult =>
      obtain rfl := Option.some.inj hstep
      refine h.setCall (hc.move (by rw [hpc]; rfl) ?_ fun hs hp => ?_)
      · rintro r hr
        cases hr
        exact hresult
      · obtain ⟨e, he⟩ := hc.swept hs hp
        simp [hpc] at he
    · cases hstep
  | response id response =>
    obtain rfl := Option.some.inj hstep
    exact h.setCall ((h.calls id).complete _)
  | run =>
    simp only [Pending.step, Option.ite_none_right_eq_some] at hstep
    obtain rfl := Option.some.inj hstep.2
    exact ⟨h.aborted, h.calls⟩
  | activate =>
    simp only [Pending.step, Option.ite_none_right_eq_some] at hstep
    obtain rfl := Option.some.inj hstep.2
    exact ⟨h.aborted, h.calls⟩
  | finish =>
    simp only [Pending.step, Option.ite_none_right_eq_some] at hstep
    obtain rfl := Option.some.inj hstep.2
    exact ⟨h.aborted, h.calls⟩
  | requestStop cause failed =>
    obtain rfl := Option.some.inj hstep
    exact ⟨fun _ => by simp, h.calls⟩
  | failPending cause =>
    simp only [Pending.step, Option.ite_none_right_eq_some] at hstep
    obtain ⟨⟨haborted, -⟩, hstep⟩ := hstep
    obtain rfl := Option.some.inj hstep
    exact ⟨fun _ => haborted, fun id => (h.calls id).sweep cause⟩

theorem Inv.of_reachable {s : State ι ρ ε} (h : (machine closedError).Reachable s) : Inv s :=
  Machine.Reachable.invariant (fun _ hs => hs ▸ inv_initial) (fun _ _ _ hinv hl => hinv.step hl) h

/-- A request that is still registered after the shutdown is cancelled by its own call. -/
theorem Inv.selfCompletes {s : State ι ρ ε} (h : Inv s) (hswept : s.swept = true) {id : ι}
    (hpending : (s.calls id).pending = true) : s.selfCompletes closedError id := by
  obtain ⟨error, hpc⟩ := (h.calls id).swept hswept hpending
  refine ⟨s.setCall id { (s.calls id).complete (.sendError error) with pc := .awaiting }, ?_, ?_⟩
  · simp [Pending.step, hpc]
  · simp [State.setCall, Call.complete, hpending]

/-- The contract holds in every reachable state. -/
theorem Inv.sound {s : State ι ρ ε} (h : Inv s) : (s.view closedError).Sound := by
  refine ⟨?_, ?_, ?_, ?_, ?_, ?_⟩
  · intro id hreg
    have hun := (h.calls id).unregistered (by simpa [State.view] using hreg)
    exact ⟨hun.1, hun.2.1⟩
  · exact fun id hp => ((h.calls id).pending hp).1
  · intro id hreg hp
    obtain ⟨r, hr, -⟩ := (h.calls id).completed hreg hp
    exact ⟨r, hr⟩
  · intro id hout hreg
    simp only [State.view] at hout hreg
    cases hpc : (s.calls id).pc <;> simp [hpc, Pc.outcome, Pc.hasRegistered] at hout hreg
  · intro id c hout
    simp only [State.view] at hout
    have hpc : (s.calls id).pc = .returned c := by
      cases hpc : (s.calls id).pc <;> simp_all [Pc.outcome]
    have hreg : (s.calls id).pc.hasRegistered = true := by rw [hpc]; rfl
    have hresult := (h.calls id).awaited c hpc
    have hp : (s.calls id).pending = false := by
      by_contra hp
      simp [((h.calls id).pending (by simpa using hp)).2] at hresult
    obtain ⟨r, hr, hres⟩ := (h.calls id).completed hreg hp
    rw [hresult] at hres
    cases hres
    exact ⟨hreg, hp, hr⟩
  · exact fun hswept id hp => h.selfCompletes hswept hp

/-- A response frame completes at most the request that carries its id. -/
theorem respondsTo {s t : State ι ρ ε} {id : ι} {response : ρ}
    (hstep : step closedError s (.response id response) = some t) :
    View.RespondsTo (s.view closedError) (t.view closedError) id response := by
  obtain rfl := Option.some.inj hstep
  refine ⟨fun other hother => ?_, ?_⟩
  · simp [State.view, State.setCall, Function.update_of_ne hother]
  · cases hp : (s.calls id).pending <;> simp [State.view, State.setCall, Call.complete, hp]

/-- What a step does to a request: one that is none of the shutdown does not fail it by the shutdown. -/
theorem later_step {s t : State ι ρ ε} {a : Action ι ρ ε} (hstep : step closedError s a = some t) (id : ι) :
    (s.calls id).Later (t.calls id) ∧ ((∀ cause, a ≠ .failPending cause) →
      (t.calls id).FailedByShutdown → (s.calls id).FailedByShutdown) := by
  have hset : ∀ other {d : Call ρ ε}, (s.calls other).Later d →
      (d.FailedByShutdown → (s.calls other).FailedByShutdown) →
      (s.calls id).Later ((s.setCall other d).calls id) ∧ ((∀ cause, a ≠ .failPending cause) →
        ((s.setCall other d).calls id).FailedByShutdown → (s.calls id).FailedByShutdown) := by
    intro other d hlater hfailed
    by_cases hid : id = other
    · subst hid
      simp only [State.setCall, Function.update_self]
      exact ⟨hlater, fun _ => hfailed⟩
    · simp only [State.setCall, Function.update_of_ne hid]
      exact ⟨.refl _, fun _ h => h⟩
  cases a with
  | reject other =>
    cases hpc : (s.calls other).pc <;>
      simp only [Pending.step, hpc, reduceCtorEq, Option.some.injEq] at hstep
    subst hstep
    exact hset other (Call.later_move _ (by rw [hpc]; rfl)) fun h => h
  | call other encodeError =>
    cases hpc : (s.calls other).pc <;>
      simp only [Pending.step, hpc, reduceCtorEq, Option.some.injEq] at hstep
    subst hstep
    refine hset other (Call.later_request hpc _ _) fun h => ?_
    unfold Call.FailedByShutdown at h ⊢
    rwa [Call.request_completions] at h
  | sendSettles other error =>
    cases hpc : (s.calls other).pc <;> cases error <;>
      simp only [Pending.step, hpc, reduceCtorEq, Option.some.injEq] at hstep
    all_goals
      subst hstep
      exact hset other (Call.later_move _ (by rw [hpc]; rfl)) fun h => h
  | catch_ other =>
    cases hpc : (s.calls other).pc <;>
      simp only [Pending.step, hpc, reduceCtorEq, Option.some.injEq] at hstep
    rename_i error
    subst hstep
    refine hset other ((Call.later_complete _ _).trans (Call.later_move _ ?_)) fun h => ?_
    · rw [Call.complete_pc, hpc]
      rfl
    · exact Call.failed_of_complete (by simp) h
  | cancel other error =>
    obtain rfl := Option.some.inj hstep
    exact hset other (Call.later_complete _ _) (Call.failed_of_complete (by simp))
  | settle other =>
    simp only [Pending.step] at hstep
    split at hstep
    · rename_i completion hpc hresult
      obtain rfl := Option.some.inj hstep
      exact hset other (Call.later_move _ (by rw [hpc]; rfl)) fun h => h
    · cases hstep
  | response other response =>
    obtain rfl := Option.some.inj hstep
    exact hset other (Call.later_complete _ _) (Call.failed_of_complete (by simp))
  | run | activate | finish =>
    simp only [Pending.step, Option.ite_none_right_eq_some] at hstep
    obtain rfl := Option.some.inj hstep.2
    exact ⟨.refl _, fun _ h => h⟩
  | requestStop cause failed =>
    obtain rfl := Option.some.inj hstep
    exact ⟨.refl _, fun _ h => h⟩
  | failPending cause =>
    simp only [Pending.step, Option.ite_none_right_eq_some] at hstep
    obtain rfl := Option.some.inj hstep.2
    exact ⟨Call.later_complete _ _, fun hne => absurd rfl (hne cause)⟩

end Rtvbp.TypeScript.Pending
