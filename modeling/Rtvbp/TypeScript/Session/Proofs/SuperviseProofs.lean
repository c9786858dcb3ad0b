import Rtvbp.TypeScript.Session.Supervise

/-!
# When `ready` is settled

`requestStop` turns `connecting` into `closing` before the `catch` block of the supervisor asks whether
the state is still `connecting`. So `ready` is rejected only if the stop was requested before `run`, and
a stop that is requested while the session is connecting leaves it pending for ever. In all other runs
it is settled.
-/

namespace Rtvbp.TypeScript.Supervise

open Rtvbp.Lib

variable {ε : Type}

/-- The step requests the first stop of the session while its state is `connecting`. -/
def State.stopsWhileConnecting (config : Config) (s : State ε) (a : Action ε) : Prop :=
  s.life.aborted = false ∧ s.life.state = .connecting ∧
    match a with
    | .stop _ _ => True
    | .parentAbort _ => s.parent = none
    | .connect => s.parent.isSome
    | .factoryRejects _ => True
    | .start error => s.misconfigured config ∨ error.isSome
    | .began => ∃ error, s.beginning = .rejected error
    | _ => False

/-- How far the supervisor has come. -/
inductive Phase where
  | idle
  | starting
  | running
  | stopping

/-- The phase of a program counter. -/
def Pc.phase : Pc → Phase
  | .idle => .idle
  | .entered | .connecting | .connected | .beginning => .starting
  | .running => .running
  | .closingAudio | .closingTransport | .joining | .done => .stopping

/-- What holds in every reachable state. -/
structure Inv (s : State ε) : Prop where
  idle : s.pc.phase = .idle →
    s.life.state = .inactive ∧ s.ready = .pending ∧ s.enteredActive = false
  starting : s.pc.phase = .starting → s.ready = .pending ∧ s.enteredActive = false ∧
    (s.life.state = .connecting ∨ s.life.state = .closing ∧ s.life.aborted = true)
  running : s.pc.phase = .running → s.ready = .resolved ∧ s.enteredActive = true ∧
    s.life.state ≠ .connecting
  stopping : s.pc.phase = .stopping → s.life.aborted = true ∧
    (s.enteredActive = true ∧ s.ready = .resolved ∨ s.enteredActive = false ∧ s.ready = .rejected ∨
      s.enteredActive = false ∧ s.ready = .pending ∧ s.life.state ≠ .connecting ∧
        s.life.state ≠ .inactive)

/-- The session is stopping, was never active and will not reject `ready`. -/
def State.lost (s : State ε) : Prop :=
  s.life.aborted = true ∧ s.life.state ≠ .connecting ∧ s.life.state ≠ .inactive ∧
    s.enteredActive = false ∧ s.ready = .pending

/-- At the end, `ready` is settled unless the session is lost. -/
theorem Inv.readySettled_iff {s : State ε} (h : Inv s) (ht : s.terminal) :
    s.readySettled ↔ ¬ s.lost := by
  have hstop := h.stopping (by rw [ht]; rfl)
  obtain ⟨ha, ⟨he, hr⟩ | ⟨he, hr⟩ | ⟨he, hr, hs⟩⟩ := hstop
  · simp [State.readySettled, State.lost, he, hr]
  · simp [State.readySettled, State.lost, he, hr]
  · simp [State.readySettled, State.lost, he, hr, ha, hs]

variable {config : Config} {closedError configurationError : ε}

/-- The workers have been started. -/
def Pc.started : Pc → Bool
  | .idle | .entered | .connecting | .connected => false
  | _ => true

/-- The workers are started once. -/
theorem step_started {s t : State ε} {a : Action ε} (hstep : step config closedError configurationError s a = some t) :
    (s.pc.started = true → t.pc.started = true) ∧
      ((∃ error, a = .start error) → s.pc.started = false ∧ t.pc.started = true) := by
  constructor
  · intro hs
    cases a <;> simp only [step] at hstep <;> grind [State.caught, State.finalize, Pc.started]
  · rintro ⟨error, rfl⟩
    simp only [step] at hstep
    grind [State.caught, State.finalize, Pc.started]

section Phases

variable {s : State ε}

/-- In each phase one field of the invariant says everything. -/
theorem Inv.of_starting (hphase : s.pc.phase = .starting) (hready : s.ready = .pending)
    (hactive : s.enteredActive = false)
    (hstate : s.life.state = .connecting ∨ s.life.state = .closing ∧ s.life.aborted = true) : Inv s where
  idle h := by rw [hphase] at h; cases h
  starting _ := ⟨hready, hactive, hstate⟩
  running h := by rw [hphase] at h; cases h
  stopping h := by rw [hphase] at h; cases h

theorem Inv.of_running (hphase : s.pc.phase = .running) (hready : s.ready = .resolved)
    (hactive : s.enteredActive = true) (hstate : s.life.state ≠ .connecting) : Inv s where
  idle h := by rw [hphase] at h; cases h
  starting h := by rw [hphase] at h; cases h
  running _ := ⟨hready, hactive, hstate⟩
  stopping h := by rw [hphase] at h; cases h

theorem Inv.of_stopping (hphase : s.pc.phase = .stopping) (haborted : s.life.aborted = true)
    (hsettled : s.enteredActive = true ∧ s.ready = .resolved ∨
      s.enteredActive = false ∧ s.ready = .rejected ∨
      s.enteredActive = false ∧ s.ready = .pending ∧ s.life.state ≠ .connecting ∧
        s.life.state ≠ .inactive) : Inv s where
  idle h := by rw [hphase] at h; cases h
  starting h := by rw [hphase] at h; cases h
  running h := by rw [hphase] at h; cases h
  stopping _ := ⟨haborted, hsettled⟩

theorem inv_initial : Inv (initial : State ε) where
  idle _ := ⟨rfl, rfl, rfl⟩
  starting h := by cases h
  running h := by cases h
  stopping h := by cases h

/-- A session that is not stopped is not lost. -/
theorem not_lost_of_not_aborted (ha : s.life.aborted = false) : ¬ s.lost := by
  rintro ⟨haborted, -⟩
  rw [ha] at haborted
  cases haborted

theorem not_lost_of_active (hactive : s.enteredActive = true) : ¬ s.lost := by
  rintro ⟨-, -, -, hnot, -⟩
  rw [hactive] at hnot
  cases hnot

/-- A session that starts and is not stopped is connecting. -/
theorem Inv.connecting_of_starting (h : Inv s) (hphase : s.pc.phase = .starting)
    (ha : s.life.aborted = false) : s.life.state = .connecting := by
  obtain ⟨-, -, hstate⟩ := h.starting hphase
  rcases hstate with hconnecting | ⟨-, haborted⟩
  · exact hconnecting
  · rw [ha] at haborted
    cases haborted

end Phases

/-- A step inside one phase that leaves the state, the abort signal and `ready` alone. -/
theorem Inv.same {s t : State ε} (h : Inv s) (hstate : t.life.state = s.life.state)
    (haborted : t.life.aborted = s.life.aborted) (hr : t.ready = s.ready)
    (he : t.enteredActive = s.enteredActive) (hphase : t.pc.phase = s.pc.phase) :
    Inv t ∧ (t.lost ↔ s.lost) := by
  constructor
  · constructor
    · rw [hphase, hstate, hr, he]
      exact h.idle
    · rw [hphase, hstate, haborted, hr, he]
      exact h.starting
    · rw [hphase, hstate, hr, he]
      exact h.running
    · rw [hphase, hstate, haborted, hr, he]
      exact h.stopping
  · rw [State.lost, State.lost, hstate, haborted, hr, he]

theorem Inv.move {s t : State ε} (h : Inv s) (hlife : t.life = s.life) (hr : t.ready = s.ready)
    (he : t.enteredActive = s.enteredActive) (hphase : t.pc.phase = s.pc.phase) :
    Inv t ∧ (t.lost ↔ s.lost) :=
  h.same (by rw [hlife]) (by rw [hlife]) hr he hphase

/-- A stop request keeps the invariant, and loses a session that is connecting. -/
theorem Inv.requestStop {s t : State ε} (h : Inv s) (cause : Option ε) (failed : Bool)
    (hlife : t.life = s.life.requestStop cause failed) (hpc : t.pc = s.pc) (hr : t.ready = s.ready)
    (he : t.enteredActive = s.enteredActive) :
    Inv t ∧ (t.lost ↔ s.lost ∨ s.life.aborted = false ∧ s.life.state = .connecting) := by
  have haborted : t.life.aborted = true := by rw [hlife]; simp
  cases ha : s.life.aborted with
  | true =>
    have hstate : t.life.state = s.life.state := by
      rw [hlife, Lifecycle.requestStop_state_of_aborted ha]
    obtain ⟨hinv, hlost⟩ := h.same hstate (by rw [haborted, ha]) hr he (by rw [hpc])
    exact ⟨hinv, by simp [hlost]⟩
  | false =>
    have hclosing : s.life.state ≠ .inactive → t.life.state = .closing := by
      intro hs
      rw [hlife, Lifecycle.requestStop_state ha hs]
    have hslost := not_lost_of_not_aborted ha
    cases hphase : s.pc.phase with
    | idle =>
      obtain ⟨hs, hready, hactive⟩ := h.idle hphase
      have hinactive : t.life.state = .inactive := by simp [hlife, Lifecycle.requestStop, ha, hs]
      have htlost : ¬ t.lost := fun hlost => hlost.2.2.1 hinactive
      constructor
      · exact
          { idle := fun _ => ⟨hinactive, hr.trans hready, he.trans hactive⟩
            starting := fun ht => by rw [hpc, hphase] at ht; cases ht
            running := fun ht => by rw [hpc, hphase] at ht; cases ht
            stopping := fun ht => by rw [hpc, hphase] at ht; cases ht }
      · simp [htlost, hslost, hs]
    | starting =>
      obtain ⟨hready, hactive, -⟩ := h.starting hphase
      have hs := h.connecting_of_starting hphase ha
      have htstate : t.life.state = .closing := hclosing (by rw [hs]; decide)
      have htlost : t.lost :=
        ⟨haborted, by rw [htstate]; decide, by rw [htstate]; decide, he.trans hactive, hr.trans hready⟩
      constructor
      · exact .of_starting (by rw [hpc, hphase]) (hr.trans hready) (he.trans hactive)
          (.inr ⟨htstate, haborted⟩)
      · simp [htlost, hs]
    | running =>
      obtain ⟨hready, hactive, hs⟩ := h.running hphase
      have htactive : t.enteredActive = true := he.trans hactive
      have htstate : t.life.state ≠ .connecting := by
        by_cases hinactive : s.life.state = .inactive
        · simp [hlife, Lifecycle.requestStop, ha, hinactive]
        · rw [hclosing hinactive]
          decide
      constructor
      · exact .of_running (by rw [hpc, hphase]) (hr.trans hready) htactive htstate
      · simp [not_lost_of_active htactive, hslost, hs]
    | stopping =>
      obtain ⟨hsaborted, -⟩ := h.stopping hphase
      rw [ha] at hsaborted
      cases hsaborted

/-- The `catch` block ends the start, and loses a session whose stop it requests itself. -/
theorem Inv.caught {s : State ε} (h : Inv s) (hs : s.pc.phase = .starting) (error : ε) :
    Inv (s.caught error) ∧
      ((s.caught error).lost ↔ s.lost ∨ s.life.aborted = false ∧ s.life.state = .connecting) := by
  obtain ⟨hready, hactive, hstate⟩ := h.starting hs
  have hpc : (s.caught error).pc.phase = .stopping := rfl
  have henteredActive : (s.caught error).enteredActive = false := hactive
  cases ha : s.life.aborted with
  | true =>
    have hlife : (s.caught error).life = s.life := by simp [State.caught, State.finalize, ha]
    have hr : (s.caught error).ready = if s.life.state = .connecting then .rejected else .pending := by
      simp [State.caught, State.finalize, ha, hready, Ready.reject]
    have haborted : (s.caught error).life.aborted = true := by rw [hlife, ha]
    rcases hstate with hconnecting | ⟨hclosing, -⟩
    · -- The stop was requested before `run`, so `ready` is rejected here.
      rw [if_pos hconnecting] at hr
      constructor
      · exact .of_stopping hpc haborted (.inr (.inl ⟨henteredActive, hr⟩))
      · simp [State.lost, hr, hconnecting]
    · have hne : s.life.state ≠ .connecting := by rw [hclosing]; decide
      have hne' : s.life.state ≠ .inactive := by rw [hclosing]; decide
      rw [if_neg hne] at hr
      constructor
      · refine .of_stopping hpc haborted (.inr (.inr ⟨henteredActive, hr, ?_, ?_⟩))
        · rwa [hlife]
        · rwa [hlife]
      · simp [State.lost, hr, hlife, ha, hclosing, henteredActive, hactive, hready]
  | false =>
    have hconnecting := h.connecting_of_starting hs ha
    have hclosing : (s.caught error).life.state = .closing := by
      simp [State.caught, State.finalize, ha, Lifecycle.requestStop, hconnecting]
    have haborted : (s.caught error).life.aborted = true := by
      simp [State.caught, State.finalize, ha]
    have hr : (s.caught error).ready = .pending := by
      simp [State.caught, State.finalize, ha, Lifecycle.requestStop, hconnecting, hready]
    constructor
    · refine .of_stopping hpc haborted (.inr (.inr ⟨henteredActive, hr, ?_, ?_⟩)) <;>
        rw [hclosing] <;> decide
    · simp [State.lost, hr, hclosing, haborted, henteredActive, hconnecting]

/-- A step of the teardown. -/
theorem Inv.teardown {s t : State ε} (h : Inv s) (hs : s.pc.phase = .stopping)
    (hphase : t.pc.phase = .stopping) (haborted : t.life.aborted = s.life.aborted)
    (hstate : t.life.state = s.life.state ∨ t.life.state = .failed ∨ t.life.state = .closed)
    (hr : t.ready = s.ready) (he : t.enteredActive = s.enteredActive) :
    Inv t ∧ (t.lost ↔ s.lost) := by
  obtain ⟨hsaborted, hsettled⟩ := h.stopping hs
  rcases hstate with hsame | hfinished
  · exact h.same hsame haborted hr he (by rw [hphase, hs])
  · have hconnecting : t.life.state ≠ .connecting := by
      rcases hfinished with hf | hf <;> rw [hf] <;> decide
    have hinactive : t.life.state ≠ .inactive := by
      rcases hfinished with hf | hf <;> rw [hf] <;> decide
    rw [← hr, ← he] at hsettled
    have htaborted : t.life.aborted = true := by rw [haborted, hsaborted]
    rcases hsettled with ⟨hactive, hready⟩ | ⟨hactive, hready⟩ | ⟨hactive, hready, hne, hne'⟩
    · refine ⟨.of_stopping hphase htaborted (.inl ⟨hactive, hready⟩), ?_⟩
      simp [not_lost_of_active hactive, not_lost_of_active (he.symm.trans hactive)]
    · refine ⟨.of_stopping hphase htaborted (.inr (.inl ⟨hactive, hready⟩)), ?_⟩
      simp [State.lost, hready, ← hr]
    · refine ⟨.of_stopping hphase htaborted (.inr (.inr ⟨hactive, hready, hconnecting, hinactive⟩)), ?_⟩
      simp [State.lost, htaborted, hsaborted, hconnecting, hinactive, hne, hne', hr, he]

/-- One step keeps the invariant, and a session is lost exactly by a stop while it is connecting. -/
theorem step_spec {s t : State ε} {a : Action ε} (h : Inv s)
    (hstep : step config closedError configurationError s a = some t) :
    Inv t ∧ (t.lost ↔ s.lost ∨ s.stopsWhileConnecting config a) := by
  cases a with
  | stop cause failed =>
    have ht := Option.some.inj hstep
    obtain ⟨hinv, hlost⟩ := @Inv.requestStop ε s t h cause failed (by rw [← ht]) (by rw [← ht])
      (by rw [← ht]) (by rw [← ht])
    exact ⟨hinv, by simpa [State.stopsWhileConnecting] using hlost⟩
  | parentAbort reason =>
    simp only [step] at hstep
    split_ifs at hstep with hparent hlisten
    · have ht := Option.some.inj hstep
      obtain ⟨hinv, hlost⟩ := @Inv.requestStop ε s t h (some reason) false (by rw [← ht])
        (by rw [← ht]) (by rw [← ht]) (by rw [← ht])
      refine ⟨hinv, ?_⟩
      rw [hlost]
      simp [State.stopsWhileConnecting, Option.not_isSome_iff_eq_none.mp hparent]
    · have ht := Option.some.inj hstep
      obtain ⟨hinv, hlost⟩ := @Inv.move ε s t h (by rw [← ht]) (by rw [← ht]) (by rw [← ht])
        (by rw [← ht])
      have hno : ¬ s.stopsWhileConnecting config (.parentAbort reason) := by
        rintro ⟨ha, hs, -⟩
        have hidle := h.idle
        have hstopping := h.stopping
        cases hpc : s.pc <;> simp_all [State.listening, Pc.phase]
      exact ⟨hinv, by rw [hlost]; tauto⟩
  | run =>
    simp only [step] at hstep
    split_ifs at hstep with hpc
    have ht := Option.some.inj hstep
    obtain ⟨hstate, hready, hactive⟩ := h.idle (by rw [hpc]; rfl)
    have hphase : t.pc.phase = .starting := by rw [← ht]; rfl
    have htstate : t.life.state = .connecting := by rw [← ht]
    have htready : t.ready = s.ready := by rw [← ht]
    have htactive : t.enteredActive = s.enteredActive := by rw [← ht]
    refine ⟨.of_starting hphase (htready.trans hready) (htactive.trans hactive) (.inl htstate), ?_⟩
    simp [State.lost, State.stopsWhileConnecting, htstate, hstate]
  | connect =>
    simp only [step] at hstep
    split_ifs at hstep with hpc
    cases hparent : s.parent with
    | some reason =>
      simp only [hparent, Option.some.injEq] at hstep
      obtain ⟨hinv, hlost⟩ := h.caught (by rw [hpc]; rfl) reason
      rw [← hstep]
      exact ⟨hinv, by rw [hlost]; simp [State.stopsWhileConnecting, hparent]⟩
    | none =>
      have hmove : t.life = s.life ∧ t.ready = s.ready ∧ t.enteredActive = s.enteredActive ∧
          t.pc.phase = s.pc.phase := by
        cases hconfig : config.transport <;>
          simp only [hparent, hconfig, Option.some.injEq] at hstep <;> rw [← hstep, hpc] <;>
          exact ⟨rfl, rfl, rfl, rfl⟩
      obtain ⟨hinv, hlost⟩ := h.move hmove.1 hmove.2.1 hmove.2.2.1 hmove.2.2.2
      exact ⟨hinv, by rw [hlost]; simp [State.stopsWhileConnecting, hparent]⟩
  | factoryResolves transport =>
    simp only [step] at hstep
    split_ifs at hstep with hpc
    have ht := Option.some.inj hstep
    obtain ⟨hinv, hlost⟩ := @Inv.move ε s t h (by rw [← ht]) (by rw [← ht]) (by rw [← ht])
      (by rw [← ht, hpc]; rfl)
    exact ⟨hinv, by rw [hlost]; simp [State.stopsWhileConnecting]⟩
  | factoryRejects error =>
    simp only [step] at hstep
    split_ifs at hstep with hpc
    obtain rfl := Option.some.inj hstep
    obtain ⟨hinv, hlost⟩ := h.caught (by rw [hpc]; rfl) error
    exact ⟨hinv, by simpa [State.stopsWhileConnecting] using hlost⟩
  | start error =>
    simp only [step] at hstep
    split_ifs at hstep with hpc hmis
    · obtain rfl := Option.some.inj hstep
      obtain ⟨hinv, hlost⟩ := h.caught (by rw [hpc]; rfl) configurationError
      exact ⟨hinv, by rw [hlost]; simp [State.stopsWhileConnecting, hmis]⟩
    · cases error with
      | some error =>
        obtain rfl := Option.some.inj hstep
        obtain ⟨hinv, hlost⟩ := h.caught (by rw [hpc]; rfl) error
        exact ⟨hinv, by rw [hlost]; simp [State.stopsWhileConnecting]⟩
      | none =>
        have ht := Option.some.inj hstep
        obtain ⟨hinv, hlost⟩ := @Inv.move ε s t h (by rw [← ht]) (by rw [← ht]) (by rw [← ht])
          (by rw [← ht, hpc]; rfl)
        exact ⟨hinv, by rw [hlost]; simp [State.stopsWhileConnecting, hmis]⟩
  | beginFulfills =>
    cases hb : s.beginning <;> simp only [step, hb, reduceCtorEq] at hstep
    have ht := Option.some.inj hstep
    obtain ⟨hinv, hlost⟩ := @Inv.move ε s t h (by rw [← ht]) (by rw [← ht]) (by rw [← ht])
      (by rw [← ht])
    exact ⟨hinv, by rw [hlost]; simp [State.stopsWhileConnecting]⟩
  | beginRejects error =>
    cases hb : s.beginning <;> simp only [step, hb, reduceCtorEq] at hstep
    have ht := Option.some.inj hstep
    obtain ⟨hinv, hlost⟩ := @Inv.move ε s t h (by rw [← ht]) (by rw [← ht]) (by rw [← ht])
      (by rw [← ht])
    exact ⟨hinv, by rw [hlost]; simp [State.stopsWhileConnecting]⟩
  | began =>
    simp only [step, Option.ite_none_right_eq_some] at hstep
    obtain ⟨hpc, hstep⟩ := hstep
    have hphase : s.pc.phase = .starting := by rw [hpc]; rfl
    cases hb : s.beginning with
    | uncalled => simp [hb] at hstep
    | pending => simp [hb] at hstep
    | rejected error =>
      simp only [hb, Option.some.injEq] at hstep
      obtain ⟨hinv, hlost⟩ := h.caught hphase error
      rw [← hstep]
      exact ⟨hinv, by rw [hlost]; simp [State.stopsWhileConnecting, hb]⟩
    | fulfilled =>
      simp only [hb] at hstep
      split_ifs at hstep with ha
      · obtain rfl := Option.some.inj hstep
        obtain ⟨hinv, hlost⟩ := h.caught hphase closedError
        exact ⟨hinv, by rw [hlost]; simp [State.stopsWhileConnecting, ha]⟩
      · have ht := Option.some.inj hstep
        have hready : t.ready = .resolved := by rw [← ht, (h.starting hphase).1]; rfl
        have hrunning : t.pc.phase = .running := by rw [← ht]; rfl
        have hactive : t.enteredActive = true := by rw [← ht]
        have hstate : t.life.state = .active := by rw [← ht]
        refine ⟨.of_running hrunning hready hactive (by rw [hstate]; decide), ?_⟩
        simp [State.lost, State.stopsWhileConnecting, hactive, ha, hb]
  | stopped =>
    simp only [step] at hstep
    split_ifs at hstep with hpc
    obtain rfl := Option.some.inj hstep
    obtain ⟨hinv, hlost⟩ := h.caught (by rw [hpc.1]; rfl) closedError
    exact ⟨hinv, by rw [hlost]; simp [State.stopsWhileConnecting, hpc.2]⟩
  | wake =>
    simp only [step] at hstep
    split_ifs at hstep with hpc
    have ht := Option.some.inj hstep
    obtain ⟨hready, hactive, -⟩ := h.running (by rw [hpc.1]; rfl)
    have htready : t.ready = .resolved := by rw [← ht, State.finalize, hready]
    have htactive : t.enteredActive = true := by rw [← ht, State.finalize, hactive]
    have hphase : t.pc.phase = .stopping := by rw [← ht]; rfl
    have haborted : t.life.aborted = true := by rw [← ht]; simp [State.finalize, hpc.2]
    refine ⟨.of_stopping hphase haborted (.inl ⟨htactive, htready⟩), ?_⟩
    simp [State.lost, State.stopsWhileConnecting, htactive, hactive]
  | audioCloses error =>
    simp only [step, Option.ite_none_right_eq_some] at hstep
    obtain ⟨hpc, hstep⟩ := hstep
    have ht := Option.some.inj hstep
    obtain ⟨hinv, hlost⟩ := @Inv.teardown ε s t h (by rw [hpc]; rfl)
      (by rw [← ht]; dsimp only; split_ifs <;> rfl) (by simp [← ht]) (by simp [← ht]) (by rw [← ht])
      (by rw [← ht])
    exact ⟨hinv, by rw [hlost]; simp [State.stopsWhileConnecting]⟩
  | transportCloses error =>
    simp only [step] at hstep
    split_ifs at hstep with hpc
    have ht := Option.some.inj hstep
    obtain ⟨hinv, hlost⟩ := @Inv.teardown ε s t h (by rw [hpc]; rfl) (by rw [← ht]; rfl)
      (by simp [← ht]) (by simp [← ht]) (by rw [← ht]) (by rw [← ht])
    exact ⟨hinv, by rw [hlost]; simp [State.stopsWhileConnecting]⟩
  | workersJoin error =>
    simp only [step] at hstep
    split_ifs at hstep with hpc
    have ht := Option.some.inj hstep
    obtain ⟨hinv, hlost⟩ := @Inv.teardown ε s t h (by rw [hpc]; rfl) (by rw [← ht]; rfl)
      (by simp [← ht, Lifecycle.finish]) (by rw [← ht]; simp only [Lifecycle.finish]; split_ifs <;> simp)
      (by rw [← ht]) (by rw [← ht])
    exact ⟨hinv, by rw [hlost]; simp [State.stopsWhileConnecting]⟩

/-! ## How a session stops -/

section Stop

variable {s t : State ε} {a : Action ε}

/-- The `catch` block is a failure if it is the first to stop. -/
theorem advances_caught (s : State ε) (error : ε) {p : Prop} :
    s.life.Advances (s.caught error).life p := by
  cases ha : s.life.aborted with
  | true => exact .of_eq (by simp [State.caught, State.finalize, ha]) (by simp [State.caught, State.finalize, ha])
  | false =>
    refine .inr ⟨ha, by simp [State.caught, State.finalize, ha], .inl ?_⟩
    simp [State.caught, State.finalize, ha, Lifecycle.requestStop_stopFailed_first]

/-- The first stop of a session is a failure unless it is requested locally. -/
theorem step_advances (hstep : step config closedError configurationError s a = some t) :
    s.life.Advances t.life (s.stopsLocally a = true) := by
  cases a with
  | stop cause failed =>
    obtain rfl := Option.some.inj hstep
    exact (s.life.advances_requestStop cause failed).mono fun hf => by simp [State.stopsLocally, hf]
  | parentAbort reason =>
    simp only [step] at hstep
    split_ifs at hstep with hparent hlistening <;> obtain rfl := Option.some.inj hstep
    · exact (s.life.advances_requestStop _ false).mono fun _ => hlistening
    · exact .of_eq rfl rfl
  | run =>
    simp only [step, Option.ite_none_right_eq_some] at hstep
    obtain rfl := Option.some.inj hstep.2
    exact .of_eq rfl rfl
  | connect =>
    simp only [step, Option.ite_none_right_eq_some] at hstep
    obtain ⟨-, hstep⟩ := hstep
    split at hstep
    · obtain rfl := Option.some.inj hstep
      exact advances_caught s _
    · split at hstep <;> obtain rfl := Option.some.inj hstep <;> exact .of_eq rfl rfl
  | factoryResolves transport =>
    simp only [step, Option.ite_none_right_eq_some] at hstep
    obtain rfl := Option.some.inj hstep.2
    exact .of_eq rfl rfl
  | factoryRejects error =>
    simp only [step, Option.ite_none_right_eq_some] at hstep
    obtain rfl := Option.some.inj hstep.2
    exact advances_caught s error
  | start error =>
    simp only [step, Option.ite_none_right_eq_some] at hstep
    obtain ⟨-, hstep⟩ := hstep
    split_ifs at hstep
    · obtain rfl := Option.some.inj hstep
      exact advances_caught s _
    · split at hstep <;> obtain rfl := Option.some.inj hstep
      · exact advances_caught s _
      · exact .of_eq rfl rfl
  | beginFulfills =>
    simp only [step] at hstep
    split at hstep <;> simp only [reduceCtorEq, Option.some.injEq] at hstep
    subst hstep
    exact .of_eq rfl rfl
  | beginRejects error =>
    simp only [step] at hstep
    split at hstep <;> simp only [reduceCtorEq, Option.some.injEq] at hstep
    subst hstep
    exact .of_eq rfl rfl
  | began =>
    simp only [step, Option.ite_none_right_eq_some] at hstep
    obtain ⟨-, hstep⟩ := hstep
    split at hstep
    · cases hstep
    · cases hstep
    · obtain rfl := Option.some.inj hstep
      exact advances_caught s _
    · split_ifs at hstep <;> obtain rfl := Option.some.inj hstep
      · exact advances_caught s _
      · exact .of_eq rfl rfl
  | stopped =>
    simp only [step, Option.ite_none_right_eq_some] at hstep
    obtain rfl := Option.some.inj hstep.2
    exact advances_caught s _
  | wake =>
    simp only [step, Option.ite_none_right_eq_some] at hstep
    obtain ⟨⟨-, ha⟩, hstep⟩ := hstep
    obtain rfl := Option.some.inj hstep
    exact .of_eq (by simp [State.finalize, ha]) (by simp [State.finalize, ha])
  | audioCloses error =>
    simp only [step, Option.ite_none_right_eq_some] at hstep
    obtain rfl := Option.some.inj hstep.2
    exact s.life.advances_recordFailure error
  | transportCloses error =>
    simp only [step, Option.ite_none_right_eq_some] at hstep
    obtain rfl := Option.some.inj hstep.2
    exact s.life.advances_recordFailure error
  | workersJoin error =>
    simp only [step, Option.ite_none_right_eq_some] at hstep
    obtain rfl := Option.some.inj hstep.2
    exact s.life.advances_recordFailure error

/-- How a session comes to its terminal state, and that it keeps it. -/
theorem step_done (h : Inv s) (hstep : step config closedError configurationError s a = some t)
    (hdone : t.pc = .done) :
    (s.pc = .done ∧ t.life.state = s.life.state) ∨
      t.life.state = if t.life.stopFailed then .failed else .closed := by
  have haborted : s.pc = .done → s.life.aborted = true := fun hpc => (h.stopping (by rw [hpc]; rfl)).1
  cases a with
  | stop cause failed =>
    obtain rfl := Option.some.inj hstep
    exact .inl ⟨hdone, Lifecycle.requestStop_state_of_aborted (haborted hdone)⟩
  | parentAbort reason =>
    simp only [step] at hstep
    split_ifs at hstep with hparent hlistening <;> obtain rfl := Option.some.inj hstep
    · exact .inl ⟨hdone, Lifecycle.requestStop_state_of_aborted (haborted hdone)⟩
    · exact .inl ⟨hdone, rfl⟩
  | beginFulfills =>
    simp only [step] at hstep
    split at hstep <;> simp only [reduceCtorEq, Option.some.injEq] at hstep
    subst hstep
    exact .inl ⟨hdone, rfl⟩
  | beginRejects error =>
    simp only [step] at hstep
    split at hstep <;> simp only [reduceCtorEq, Option.some.injEq] at hstep
    subst hstep
    exact .inl ⟨hdone, rfl⟩
  | workersJoin error =>
    simp only [step, Option.ite_none_right_eq_some] at hstep
    obtain rfl := Option.some.inj hstep.2
    exact .inr rfl
  | _ =>
    -- The other steps do not lead to the terminal state.
    exfalso
    simp only [step] at hstep
    grind [State.caught, State.finalize]

end Stop

/-! ## Runs -/

/-- Along a schedule, a session stays unlost exactly if no step stops it while it is connecting. -/
theorem exec_spec {s t : State ε} (h : Inv s) {schedule : List (Action ε)}
    (hexec : (machine config closedError configurationError).exec s schedule = some t) :
    Inv t ∧ (¬ t.lost ↔ ¬ s.lost ∧
      (machine config closedError configurationError).Along
        (fun s a => ¬ s.stopsWhileConnecting config a) s schedule) := by
  induction schedule generalizing s with
  | nil =>
    obtain rfl : s = t := by simpa using hexec
    exact ⟨h, by simp [Machine.Along]⟩
  | cons a schedule ih =>
    obtain ⟨u, hu, hut⟩ := Option.bind_eq_some_iff.mp hexec
    obtain ⟨hinv, hlost⟩ := step_spec h hu
    obtain ⟨hinvt, htlost⟩ := ih hinv hut
    refine ⟨hinvt, ?_⟩
    rw [htlost, hlost]
    simp only [Machine.Along, not_or]
    constructor
    · rintro ⟨⟨hs, hstop⟩, halong⟩
      refine ⟨hs, hstop, fun v hv => ?_⟩
      rwa [Option.some.inj (hv.symm.trans hu)]
    · rintro ⟨hs, hstop, halong⟩
      exact ⟨⟨hs, hstop⟩, halong u hu⟩

/-- In every run that has reached its terminal state, `ready` is settled as it should be exactly if no
step of the run requested the first stop while the session was connecting. -/
theorem readySettled_iff_not_stopped_while_connecting (config : Config)
    (closedError configurationError : ε) (schedule : List (Action ε)) (s : State ε)
    (hexec : (machine config closedError configurationError).exec initial schedule = some s)
    (hterminal : s.terminal) :
    s.readySettled ↔ (machine config closedError configurationError).Along
      (fun s a => ¬ s.stopsWhileConnecting config a) initial schedule := by
  obtain ⟨hinv, hlost⟩ := exec_spec inv_initial hexec
  rw [hinv.readySettled_iff hterminal, hlost]
  simp [State.lost, initial, Lifecycle.new]

/-- A transport factory, no keepalive. -/
def factoryConfig : Config := { transport := none, keepalive := false }

/-- A run that becomes active and is then closed. -/
def activeRun : List (Action String) :=
  [.run, .connect, .factoryResolves ⟨false, false, false⟩, .start none, .beginFulfills, .began,
    .stop none false, .wake, .audioCloses none, .transportCloses none, .workersJoin none]

theorem activeRun_readySettled :
    ∃ s, (machine factoryConfig "closed" "configuration").exec initial activeRun = some s ∧
      s.terminal ∧ s.readySettled ∧ (machine factoryConfig "closed" "configuration").Along
        (fun s a => ¬ s.stopsWhileConnecting factoryConfig a) initial activeRun :=
  ⟨_, rfl, rfl, rfl, (readySettled_iff_not_stopped_while_connecting factoryConfig "closed"
    "configuration" activeRun _ rfl rfl).mp rfl⟩

/-- A run whose transport factory fails. -/
def refusedRun : List (Action String) :=
  [.run, .connect, .factoryRejects "connection refused", .audioCloses none, .workersJoin none]

/-- The session ends as `failed` and its `ready` stays pending. -/
theorem refusedRun_not_readySettled :
    ∃ s, (machine factoryConfig "closed" "configuration").exec initial refusedRun = some s ∧
      s.terminal ∧ s.life.state = .failed ∧ ¬ s.readySettled :=
  ⟨_, rfl, rfl, rfl, fun h => by cases h⟩

end Rtvbp.TypeScript.Supervise
