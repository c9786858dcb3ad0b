import Rtvbp.Rust.Server
import Mathlib.Tactic

/-!
# Shutdown and the listener

`accept_loop` creates a new `Notified` for every `select!` and does not look at `stopping` before it parks.
A shutdown that notifies while the loop is between two `select!`s is missed, unless a pending connection
makes the loop look; in the other runs the listener notices every shutdown.
-/

namespace Rtvbp.Rust.Server

open Rtvbp.Lib

variable {ι κ : Type}

/-! ## Steps that do not concern the listener -/

/-- The loop and the calls that are about to notify it are the same, and no pending connection is gone. -/
structure Aside (s t : State ι κ) : Prop where
  loop : t.loop = s.loop
  backlog : s.backlog ≠ [] → t.backlog ≠ []
  stopping : t.stopping = s.stopping
  finished : t.listenerFinished = s.listenerFinished
  notifying : ∀ i, t.caller i = .notifying ↔ s.caller i = .notifying

theorem Caller.wake_eq_notifying {selects : Wait → Bool} {c : Caller κ} :
    c.wake selects = .notifying ↔ c = .notifying := by
  cases c <;> simp [Caller.wake]

theorem Aside.rfl {s : State ι κ} : Aside s s := ⟨Eq.refl _, id, Eq.refl _, Eq.refl _, fun _ => Iff.rfl⟩

theorem Aside.trans {s t u : State ι κ} (h : Aside s t) (h' : Aside t u) : Aside s u :=
  ⟨h'.loop.trans h.loop, fun hs => h'.backlog (h.backlog hs), h'.stopping.trans h.stopping,
    h'.finished.trans h.finished, fun i => (h'.notifying i).trans (h.notifying i)⟩

theorem aside_notifyAdmissionIdle (s : State ι κ) : Aside s s.notifyAdmissionIdle :=
  ⟨Eq.refl _, id, Eq.refl _, Eq.refl _, fun _ => Caller.wake_eq_notifying⟩

theorem aside_setCaller [DecidableEq ι] {s : State ι κ} {i : ι} {c : Caller κ} (h : s.caller i ≠ .notifying)
    (hc : c ≠ .notifying) : Aside s (s.setCaller i c) := by
  refine ⟨Eq.refl _, id, Eq.refl _, Eq.refl _, fun j => ?_⟩
  by_cases hj : j = i
  · subst hj
    simp [State.setCaller, h, hc]
  · simp [State.setCaller, Function.update_of_ne hj]

theorem aside_admissionStep [DecidableEq κ] {s t : State ι κ} {k : κ} {a : AdmissionAction}
    (ht : admissionStep s k a = some t) : Aside s t := by
  cases a with
  | announce =>
    simp only [admissionStep] at ht
    split at ht <;> cases ht
    exact Aside.trans (t := s.setAdmission k .over) ⟨Eq.refl _, id, Eq.refl _, Eq.refl _, fun _ => Iff.rfl⟩
      (aside_notifyAdmissionIdle _)
  | close a =>
    simp only [admissionStep] at ht
    split at ht
    · obtain ⟨r, -, rfl⟩ := Option.map_eq_some_iff.mp ht
      exact ⟨Eq.refl _, id, Eq.refl _, Eq.refl _, fun _ => Iff.rfl⟩
    · cases ht
  | send =>
    simp only [admissionStep] at ht
    split at ht <;> cases ht
    split <;> exact ⟨Eq.refl _, id, Eq.refl _, Eq.refl _, fun _ => Iff.rfl⟩
  | upgrade | upgradeFails | look | register | watch | unregister | leave =>
    simp only [admissionStep] at ht
    split at ht <;> cases ht
    exact ⟨Eq.refl _, id, Eq.refl _, Eq.refl _, fun _ => Iff.rfl⟩

theorem aside_watcherStep [DecidableEq κ] {s t : State ι κ} {k : κ} {a : WatcherAction}
    (ht : watcherStep s k a = some t) : Aside s t := by
  cases a with
  | announce =>
    simp only [watcherStep] at ht
    split at ht <;> cases ht
    exact Aside.trans (t := s.setWatcher k .over) ⟨Eq.refl _, id, Eq.refl _, Eq.refl _, fun _ => Iff.rfl⟩
      (aside_notifyAdmissionIdle _)
  | closed | remove =>
    simp only [watcherStep] at ht
    split at ht <;> cases ht
    exact ⟨Eq.refl _, id, Eq.refl _, Eq.refl _, fun _ => Iff.rfl⟩

theorem aside_envStep [DecidableEq κ] {s t : State ι κ} {a : EnvAction κ} (ht : envStep s a = some t) :
    Aside s t := by
  cases a with
  | connect k =>
    simp only [envStep] at ht
    split at ht <;> cases ht
    exact ⟨Eq.refl _, fun _ hnil => by simp [State.setAdmission] at hnil, Eq.refl _, Eq.refl _,
      fun _ => Iff.rfl⟩
  | receive | close k | answer k | finish k =>
    simp only [envStep] at ht
    split at ht <;> cases ht
    all_goals exact ⟨Eq.refl _, id, Eq.refl _, Eq.refl _, fun _ => Iff.rfl⟩

theorem Wait.next_ne_notifying (w : Wait) : (w.next : Caller κ) ≠ .notifying := by
  cases w <;> simp [Wait.next]

/-- Apart from the call itself and its `notify_waiters`, a shutdown leaves the listener alone. -/
theorem aside_callerStep [DecidableEq ι] [DecidableEq κ] {s t : State ι κ} {i : ι} {a : CallerAction κ}
    (ht : callerStep s i a = some t) (hcall : a ≠ .call) (hnotify : a ≠ .notify) : Aside s t := by
  cases a with
  | call => exact absurd rfl hcall
  | notify => exact absurd rfl hnotify
  | look | recheck =>
    simp only [callerStep] at ht
    split at ht
    · next hpc =>
      cases ht
      refine aside_setCaller (by simp [hpc]) ?_
      split
      · exact Wait.next_ne_notifying _
      · simp
    · cases ht
  | create | wake | closedAll | drop =>
    simp only [callerStep] at ht
    split at ht <;> cases ht
    all_goals
      next hpc => exact aside_setCaller (by simp [hpc]) (by simp)
  | take =>
    simp only [callerStep] at ht
    split at ht
    · next hpc =>
      cases ht
      have hcaller : ({ s with accepting := false } : State ι κ).caller i ≠ .notifying := by simp [hpc]
      exact Aside.trans (t := { s with accepting := false })
        ⟨Eq.refl _, id, Eq.refl _, Eq.refl _, fun _ => Iff.rfl⟩ (aside_setCaller hcaller (by simp))
    · cases ht
  | snapshot transports =>
    simp only [callerStep] at ht
    split at ht
    · next hpc =>
      split at ht <;> cases ht
      exact aside_setCaller (by simp [hpc]) (by simp)
    · cases ht
  | close a failure =>
    simp only [callerStep] at ht
    split at ht
    · next k transports call failed hpc =>
      obtain ⟨r, -, rfl⟩ := Option.map_eq_some_iff.mp ht
      have hcaller : (s.setLink k r.1).caller i ≠ .notifying := by simp [State.setLink, hpc]
      refine Aside.trans (t := s.setLink k r.1) ⟨Eq.refl _, id, Eq.refl _, Eq.refl _, fun _ => Iff.rfl⟩
        (aside_setCaller hcaller ?_)
      cases r.2 <;> simp
    · cases ht

/-! ## The runs in which every shutdown is noticed -/

/-- `accept_loop` is parked, or will park, without having been notified. -/
def Loop.deaf : Loop κ → Bool
  | .starting | .selecting false | .counting _ | .spawning _ => true
  | _ => false

theorem Loop.wake_deaf {l : Loop κ} (h : l.resumes = false) : l.wake.deaf = false := by
  cases l with
  | starting | counting k | spawning k => cases h
  | _ => rfl

/-- Once a shutdown has notified, the listener has heard it, or a pending connection will make it look. -/
def State.Hears (s : State ι κ) : Prop :=
  s.stopping = true → (∀ i, s.caller i ≠ .notifying) → s.loop.deaf = false ∨ s.backlog ≠ []

theorem State.Hears.not_stuck {s : State ι κ} (h : s.Hears) : ¬ s.Stuck := by
  intro hstuck
  rcases h hstuck.stopping hstuck.no_notify with hloop | hbacklog
  · rw [hstuck.parked] at hloop
    cases hloop
  · exact hbacklog hstuck.no_client

theorem State.Hears.aside {s t : State ι κ} (h : s.Hears) (hst : Aside s t) : t.Hears := by
  intro hstopping hnotifying
  have hs : ∀ i, s.caller i ≠ .notifying := fun i hi => hnotifying i ((hst.notifying i).mpr hi)
  rcases h (hst.stopping ▸ hstopping) hs with hloop | hbacklog
  · left
    rw [hst.loop]
    exact hloop
  · exact .inr (hst.backlog hbacklog)

theorem State.Hears.loopStep [DecidableEq κ] {s t : State ι κ} {a : LoopAction} (h : s.Hears)
    (ht : loopStep s a = some t) : t.Hears := by
  cases a with
  | create =>
    simp only [Server.loopStep] at ht
    split at ht
    · next hloop =>
      cases ht
      intro hstopping hnotifying
      rcases h hstopping hnotifying with hdeaf | hbacklog
      · rw [hloop] at hdeaf
        cases hdeaf
      · exact .inr hbacklog
    · cases ht
  | accept =>
    -- the connection that was taken makes the loop look at `stopping`
    simp only [Server.loopStep] at ht
    split at ht <;> cases ht
    exact fun _ _ => .inl rfl
  | stopped | acceptFails =>
    simp only [Server.loopStep] at ht
    split at ht <;> cases ht
    exact fun _ _ => .inl rfl
  | look =>
    simp only [Server.loopStep] at ht
    split at ht <;> cases ht
    intro hstopping hnotifying
    left
    show (if s.stopping then _ else _ : Loop κ).deaf = false
    rw [if_pos hstopping]
    rfl
  | count =>
    simp only [Server.loopStep] at ht
    split at ht
    · next k hloop =>
      cases ht
      intro hstopping hnotifying
      rcases h hstopping hnotifying with hdeaf | hbacklog
      · rw [hloop] at hdeaf
        cases hdeaf
      · exact .inr hbacklog
    · cases ht
  | spawn =>
    simp only [Server.loopStep] at ht
    split at ht
    · next k hloop =>
      cases ht
      intro hstopping hnotifying
      rcases h hstopping hnotifying with hdeaf | hbacklog
      · rw [hloop] at hdeaf
        cases hdeaf
      · exact .inr hbacklog
    · cases ht
  | finish | announce =>
    simp only [Server.loopStep] at ht
    split at ht <;> cases ht
    exact fun _ _ => .inl rfl

/-- The step lemma: a shutdown that calls is about to notify, or another one has stopped the server. -/
theorem State.Hears.step [DecidableEq ι] [DecidableEq κ] {s t : State ι κ} {a : Action ι κ}
    (h : s.Hears) (hG : Noticed s a) (ht : step s a = some t) : t.Hears := by
  cases a with
  | loop a => exact h.loopStep ht
  | admission k a => exact h.aside (aside_admissionStep ht)
  | watcher k a => exact h.aside (aside_watcherStep ht)
  | env a => exact h.aside (aside_envStep ht)
  | caller i a =>
    have hstep : callerStep s i a = some t := ht
    by_cases hcall : a = .call
    · subst hcall
      simp only [callerStep] at hstep
      split at hstep
      · next hpc =>
        cases hstep
        intro _ hnotifying
        by_cases hstopping : s.stopping = true
        · refine h hstopping fun j hj => hnotifying j ?_
          have hne : j ≠ i := by
            rintro rfl
            rw [hpc] at hj
            cases hj
          simpa [State.setCaller, Function.update_of_ne hne] using hj
        · exact absurd (by simp [State.setCaller, hstopping]) (hnotifying i)
      · cases hstep
    · by_cases hnotify : a = .notify
      · subst hnotify
        simp only [callerStep] at hstep
        split at hstep
        · cases hstep
          intro _ _
          rcases hG with hresumes | hbacklog
          · exact .inl (Loop.wake_deaf hresumes)
          · exact .inr hbacklog
        · cases hstep
      · exact h.aside (aside_callerStep hstep hcall hnotify)

theorem hears_bind : (bind : State ι κ).Hears := fun hstopping => by cases hstopping

/-! ## A shutdown that is missed -/

/-- Only one call notifies, and the listener is finished when its loop is. -/
structure State.Listening (s : State ι κ) : Prop where
  notifies : ∀ i, s.caller i = .notifying → s.stopping = true
  unique : ∀ i j, s.caller i = .notifying → s.caller j = .notifying → i = j
  finished : s.listenerFinished = true → s.loop = .announcing ∨ s.loop = .over

theorem State.Listening.aside {s t : State ι κ} (h : s.Listening) (hst : Aside s t) : t.Listening := by
  refine ⟨fun i hi => ?_, fun i j hi hj => ?_, fun hfinished => ?_⟩
  · rw [hst.stopping]
    exact h.notifies i ((hst.notifying i).mp hi)
  · exact h.unique i j ((hst.notifying i).mp hi) ((hst.notifying j).mp hj)
  · rw [hst.loop]
    exact h.finished (hst.finished ▸ hfinished)

theorem State.Listening.loopStep [DecidableEq κ] {s t : State ι κ} {a : LoopAction} (h : s.Listening)
    (ht : loopStep s a = some t) : t.Listening := by
  have hnot : ∀ l, s.loop = l → l ≠ .announcing → l ≠ .over → ¬ s.listenerFinished = true := by
    intro l hl hannouncing hover hfinished
    rcases h.finished hfinished with hloop | hloop
    · exact hannouncing (hl ▸ hloop)
    · exact hover (hl ▸ hloop)
  cases a with
  | finish =>
    simp only [Server.loopStep] at ht
    split at ht <;> cases ht
    exact ⟨h.notifies, h.unique, fun _ => .inl rfl⟩
  | announce =>
    simp only [Server.loopStep] at ht
    split at ht <;> cases ht
    refine ⟨fun i hi => ?_, fun i j hi hj => ?_, fun _ => .inr rfl⟩
    · exact h.notifies i (Caller.wake_eq_notifying.1 hi)
    · exact h.unique i j (Caller.wake_eq_notifying.1 hi) (Caller.wake_eq_notifying.1 hj)
  | create | stopped | accept | acceptFails | look | count | spawn =>
    simp only [Server.loopStep] at ht
    split at ht <;> cases ht
    all_goals
      refine ⟨h.notifies, h.unique, fun hfinished => ?_⟩
      refine absurd hfinished (hnot _ ‹_› ?_ ?_) <;> simp

theorem State.Listening.step [DecidableEq ι] [DecidableEq κ] {s t : State ι κ} {a : Action ι κ}
    (h : s.Listening) (ht : step s a = some t) : t.Listening := by
  cases a with
  | loop a => exact h.loopStep ht
  | admission k a => exact h.aside (aside_admissionStep ht)
  | watcher k a => exact h.aside (aside_watcherStep ht)
  | env a => exact h.aside (aside_envStep ht)
  | caller i a =>
    have hstep : callerStep s i a = some t := ht
    by_cases hcall : a = .call
    · subst hcall
      simp only [callerStep] at hstep
      split at hstep
      · next hpc =>
        cases hstep
        -- if the server has not been stopped, no other call is about to notify
        have hold : ∀ j, j ≠ i → (State.setCaller { s with stopping := true } i
            (if s.stopping then .looking .listener else .notifying)).caller j = .notifying →
            s.caller j = .notifying := by
          intro j hne hj
          simpa [State.setCaller, Function.update_of_ne hne] using hj
        refine ⟨fun _ _ => rfl, fun j l hj hl => ?_, h.finished⟩
        by_cases hstopping : s.stopping = true
        · have hne : ∀ m, (State.setCaller { s with stopping := true } i
              (if s.stopping then .looking .listener else .notifying)).caller m = .notifying → m ≠ i := by
            rintro m hm rfl
            simp [State.setCaller, hstopping] at hm
          exact h.unique j l (hold j (hne j hj) hj) (hold l (hne l hl) hl)
        · have heq : ∀ m, (State.setCaller { s with stopping := true } i
              (if s.stopping then .looking .listener else .notifying)).caller m = .notifying → m = i := by
            intro m hm
            by_contra hne
            exact hstopping (h.notifies m (hold m hne hm))
          rw [heq j hj, heq l hl]
      · cases hstep
    · by_cases hnotify : a = .notify
      · subst hnotify
        simp only [callerStep] at hstep
        split at hstep
        · cases hstep
          have hold : ∀ j, (State.setCaller { s with loop := s.loop.wake } i
              (.looking .listener)).caller j = .notifying → s.caller j = .notifying := by
            intro j hj
            have hne : j ≠ i := by
              rintro rfl
              simp [State.setCaller] at hj
            simpa [State.setCaller, Function.update_of_ne hne] using hj
          refine ⟨fun j hj => h.notifies j (hold j hj), fun j l hj hl => ?_, fun hfinished => ?_⟩
          · exact h.unique j l (hold j hj) (hold l hl)
          show s.loop.wake = .announcing ∨ s.loop.wake = .over
          rcases h.finished hfinished with hloop | hloop
          · left
            rw [hloop]
            rfl
          · right
            rw [hloop]
            rfl
        · cases hstep
      · exact h.aside (aside_callerStep hstep hcall hnotify)

theorem listening_bind : (bind : State ι κ).Listening := by
  refine ⟨fun i hi => ?_, fun i j hi _ => ?_, fun hfinished => ?_⟩
  · cases hi
  · cases hi
  · cases hfinished

theorem listening_of_reachable [DecidableEq ι] [DecidableEq κ] {s : State ι κ}
    (hs : (machine ι κ).Reachable s) : s.Listening := by
  refine hs.invariant (fun s₀ h₀ => ?_) fun s l t h ht => h.step ht
  obtain rfl : s₀ = bind := h₀
  exact listening_bind

/-- The loop comes to its next `select!` and parks; nothing else changes but the connection it spawns. -/
theorem exists_parked [DecidableEq ι] [DecidableEq κ] {s : State ι κ} (h : s.loop.resumes = true)
    (hbacklog : s.backlog = []) :
    ∃ t, (machine ι κ).Steps (fun _ _ => True) s t ∧ t.loop = .selecting false ∧ t.backlog = [] ∧
      t.stopping = s.stopping ∧ t.listenerFinished = s.listenerFinished ∧ t.caller = s.caller := by
  have hcreate : ∀ u : State ι κ, u.loop = .starting →
      (machine ι κ).step u (.loop .create) = some { u with loop := .selecting false } := by
    intro u hu
    show loopStep u .create = _
    simp [loopStep, hu]
  have hspawn : ∀ (u : State ι κ) k, u.loop = .spawning k →
      (machine ι κ).step u (.loop .spawn) =
        some ({ u with loop := .starting }.setAdmission k .accepting) := by
    intro u k hu
    show loopStep u .spawn = _
    simp [loopStep, hu]
  cases hloop : s.loop with
  | starting =>
    refine ⟨{ s with loop := .selecting false }, .single ⟨.loop .create, trivial, hcreate s hloop⟩, rfl,
      hbacklog, rfl, rfl, rfl⟩
  | spawning k =>
    refine ⟨{ { s with loop := .starting }.setAdmission k .accepting with loop := .selecting false }, ?_,
      rfl, hbacklog, rfl, rfl, rfl⟩
    exact .tail (.single ⟨.loop .spawn, trivial, hspawn s k hloop⟩) ⟨.loop .create, trivial, hcreate _ rfl⟩
  | counting k =>
    have hcount : (machine ι κ).step s (.loop .count) = some { s with
        loop := .spawning k, admissions := s.admissions + 1, inFlight := k :: s.inFlight } := by
      show loopStep s .count = _
      simp [loopStep, hloop]
    let u : State ι κ :=
      { s with loop := .spawning k, admissions := s.admissions + 1, inFlight := k :: s.inFlight }
    refine ⟨{ { u with loop := .starting }.setAdmission k .accepting with loop := .selecting false }, ?_,
      rfl, hbacklog, rfl, rfl, rfl⟩
    refine .tail (.tail (.single ⟨.loop .count, trivial, hcount⟩)
      ⟨.loop .spawn, trivial, hspawn u k rfl⟩) ?_
    exact ⟨.loop .create, trivial, hcreate _ rfl⟩
  | _ =>
    rw [hloop] at h
    cases h

/-- A call that looks for the listener before it is finished comes to wait for it. -/
theorem exists_waiting [DecidableEq ι] [DecidableEq κ] {s : State ι κ} {i : ι}
    (hcaller : s.caller i = .looking .listener) (hfinished : s.listenerFinished = false) :
    ∃ c, (machine ι κ).Steps (fun _ _ => True) s { s with caller := c } ∧ c i = .waiting .listener false ∧
      ∀ j, j ≠ i → c j = s.caller j := by
  have hlook : (machine ι κ).step s (.caller i .look) = some (s.setCaller i (.creating .listener)) := by
    show callerStep s i .look = _
    simp [callerStep, hcaller, State.done, hfinished]
  have hcreate : ∀ u : State ι κ, u.caller i = .creating .listener →
      (machine ι κ).step u (.caller i .create) = some (u.setCaller i (.created .listener false)) := by
    intro u hu
    show callerStep u i .create = _
    simp [callerStep, hu]
  have hrecheck : ∀ u : State ι κ, u.caller i = .created .listener false → u.listenerFinished = false →
      (machine ι κ).step u (.caller i .recheck) = some (u.setCaller i (.waiting .listener false)) := by
    intro u hu hopen
    show callerStep u i .recheck = _
    simp [callerStep, hu, State.done, hopen]
  let t₁ := s.setCaller i (.creating .listener)
  let t₂ := t₁.setCaller i (.created .listener false)
  refine ⟨(t₂.setCaller i (.waiting .listener false)).caller, ?_, by simp [State.setCaller], fun j hj => ?_⟩
  · refine .tail (.tail (.single ⟨.caller i .look, trivial, hlook⟩)
      ⟨.caller i .create, trivial, hcreate t₁ (by simp [t₁, State.setCaller])⟩) ?_
    exact ⟨.caller i .recheck, trivial, hrecheck t₂ (by simp [t₂, State.setCaller]) hfinished⟩
  · simp [t₁, t₂, State.setCaller, Function.update_of_ne hj]

/-- After a notification between two `select!`s with no connection pending, the shutdown can wait for a
listener that is parked. -/
theorem exists_stuck [DecidableEq ι] [DecidableEq κ] {s t : State ι κ} {i : ι} (h : s.Listening)
    (ht : callerStep s i .notify = some t) (hmissed : ¬ Noticed s (.caller i .notify)) :
    ∃ u, (machine ι κ).Steps (fun _ _ => True) t u ∧ u.Stuck := by
  obtain ⟨hresumes, hbacklog⟩ : s.loop.resumes = true ∧ s.backlog = [] := by
    simpa [Noticed, not_or] using hmissed
  simp only [callerStep] at ht
  split at ht
  · next hpc =>
    cases ht
    have hwake : s.loop.wake = s.loop := by
      cases hloop : s.loop with
      | selecting notified =>
        rw [hloop] at hresumes
        cases hresumes
      | _ => rfl
    have hopen : s.listenerFinished = false := by
      rw [Bool.eq_false_iff]
      intro hfinished
      rcases h.finished hfinished with hloop | hloop <;> rw [hloop] at hresumes <;> cases hresumes
    let t := State.setCaller { s with loop := s.loop.wake } i (.looking .listener)
    obtain ⟨u, htu, hparked, hu, hstopping, hfinished, hcaller⟩ :=
      exists_parked (s := t) (by simpa [t, State.setCaller, hwake] using hresumes) hbacklog
    have hlooking : u.caller i = .looking .listener := by
      rw [hcaller]
      simp [t, State.setCaller]
    obtain ⟨c, hsteps, hwaiting, hothers⟩ := exists_waiting hlooking (hfinished.trans hopen)
    refine ⟨{ u with caller := c }, htu.trans hsteps, hstopping.trans (h.notifies i hpc), ⟨i, hwaiting⟩,
      hparked, hu, fun j hj => ?_⟩
    -- no other call notifies, and this one has
    have hne : j ≠ i := by
      rintro rfl
      have hj' : c j = .notifying := hj
      rw [hwaiting] at hj'
      cases hj'
    have hj' : s.caller j = .notifying := by
      have hcj : c j = .notifying := hj
      rw [hothers j hne, hcaller] at hcj
      simpa [t, State.setCaller, Function.update_of_ne hne] using hcj
    exact hne (h.unique j i hj' hpc)
  · cases ht

/-! ## The result -/

/-- As long as every shutdown notifies `accept_loop` in its `select!`, before its look at `stopping` or when
a connection is pending, no shutdown waits for a listener that nothing wakes; and any other notification can
be followed by steps to such a state. -/
theorem stuck_only_if_missed [DecidableEq ι] [DecidableEq κ] :
    (∀ s : State ι κ, (machine ι κ).ReachableWhere Noticed s → ¬ s.Stuck) ∧
      ∀ (s t : State ι κ) (i : ι), (machine ι κ).Reachable s →
        (machine ι κ).step s (.caller i .notify) = some t → ¬ Noticed s (.caller i .notify) →
          ∃ u, (machine ι κ).Steps (fun _ _ => True) t u ∧ u.Stuck := by
  constructor
  · intro s hs
    have hhears : s.Hears := by
      refine hs.invariant (fun s₀ h₀ => ?_) fun s l t h hG ht => h.step hG ht
      obtain rfl : s₀ = bind := h₀
      exact hears_bind
    exact hhears.not_stuck
  · intro s t i hs ht hmissed
    exact exists_stuck (listening_of_reachable hs) ht hmissed

/-- A client is admitted, and the shutdown finds the loop in its `select!`. -/
def noticedRun : List (Action Unit Nat) :=
  [.loop .create, .env (.connect 0), .loop .accept, .loop .look, .loop .count, .loop .spawn, .loop .create,
    .caller () .call, .caller () .notify, .caller () .look, .caller () .create, .caller () .recheck]

/-- The shutdown comes before the task of `accept_loop` has run. -/
def missedRun : List (Action Unit Nat) :=
  [.caller () .call, .caller () .notify, .caller () .look, .caller () .create, .caller () .recheck,
    .loop .create]

theorem noticedRun_and_missedRun :
    (∃ s, (machine Unit Nat).exec bind noticedRun = some s ∧ ¬ s.Stuck) ∧
      ∃ t u, (machine Unit Nat).exec bind (missedRun.take 2) = some t ∧
        (machine Unit Nat).Steps (fun _ _ => True) t u ∧ u.Stuck := by
  constructor
  · have hexec : (machine Unit Nat).exec bind noticedRun = some _ := rfl
    exact ⟨_, hexec, stuck_only_if_missed.1 _ (.of_exec rfl (by decide) hexec)⟩
  · have hexec : (machine Unit Nat).exec bind (missedRun.take 1) = some _ := rfl
    have hnotify : (machine Unit Nat).exec bind (missedRun.take 2) = some _ := rfl
    obtain ⟨u, htu, hu⟩ :=
      stuck_only_if_missed.2 _ _ () (.of_exec rfl hexec) hnotify (by decide)
    exact ⟨_, u, hnotify, htu, hu⟩

/-- The shutdown waits for a listener that nothing but a further client wakes. -/
theorem missedRun_stuck : ∃ s, (machine Unit Nat).exec bind missedRun = some s ∧ s.Stuck := by
  refine ⟨_, rfl, rfl, ⟨(), rfl⟩, rfl, rfl, fun i hi => ?_⟩
  cases hi

end Rtvbp.Rust.Server
