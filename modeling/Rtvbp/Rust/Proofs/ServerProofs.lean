import Rtvbp.Rust.Proofs.AdmissionProofs

/-!
# Shutdown of the server

A shutdown sees, in this order, that no connection can come, that none is in flight, and that the registry
is empty. What it has seen stays so: only the listener counts connections, and the registry grows only
while a connection is in flight.
-/

namespace Rtvbp.Rust.Server

open Rtvbp.Lib

variable {ι κ : Type}

/-! ## What a shutdown knows -/

/-- The call has seen that the listener is finished. -/
def Caller.pastListener : Caller κ → Bool
  | .looking wait | .creating wait | .created wait _ | .waiting wait _ => !wait.isListener
  | .taking | .snapshotting | .closing _ _ _ | .returned _ => true
  | _ => false

def Wait.isActive : Wait → Bool
  | .active _ => true
  | _ => false

/-- The call has seen that no connection is in flight. -/
def Caller.pastAdmissions : Caller κ → Bool
  | .looking wait | .creating wait | .created wait _ | .waiting wait _ => wait.isActive
  | .taking | .snapshotting | .closing _ _ _ | .returned _ => true
  | _ => false

def Caller.hasReturned : Caller κ → Bool
  | .returned _ => true
  | _ => false

/-- What a call of `shutdown` has seen is so. -/
structure State.Seen (s : State ι κ) (c : Caller κ) : Prop where
  listener : c.pastListener = true → s.listenerFinished = true
  admissions : c.pastAdmissions = true → s.admissions = 0
  active : c.hasReturned = true → s.active = []

theorem Caller.pastListener_of_pastAdmissions {c : Caller κ} (h : c.pastAdmissions = true) :
    c.pastListener = true := by
  cases c with
  | looking wait | creating wait | created wait notified | waiting wait notified =>
    cases wait with
    | listener | admissions => cases h
    | active failed => rfl
  | _ => first | rfl | cases h

theorem Caller.pastAdmissions_of_hasReturned {c : Caller κ} (h : c.hasReturned = true) :
    c.pastAdmissions = true := by
  cases c with
  | returned failed => rfl
  | _ => cases h

theorem State.Seen.of_early {s : State ι κ} {c : Caller κ} (hc : c.pastListener = false) : s.Seen c := by
  have hlistener : ¬ c.pastListener = true := by simp [hc]
  have hadmissions : ¬ c.pastAdmissions = true :=
    fun h => hlistener (Caller.pastListener_of_pastAdmissions h)
  refine ⟨fun h => absurd h hlistener, fun h => absurd h hadmissions, fun h => ?_⟩
  exact absurd (Caller.pastAdmissions_of_hasReturned h) hadmissions

/-- What was seen stays so. -/
structure Lasts (s t : State ι κ) : Prop where
  listener : s.listenerFinished = true → t.listenerFinished = true
  admissions : s.listenerFinished = true → s.admissions = 0 → t.admissions = 0
  active : s.admissions = 0 → s.active = [] → t.active = []

theorem State.Seen.lasts {s t : State ι κ} {c : Caller κ} (h : s.Seen c) (hst : Lasts s t) : t.Seen c := by
  refine ⟨fun hc => hst.listener (h.listener hc), fun hc => ?_, fun hc => ?_⟩
  · have hlistener := h.listener (Caller.pastListener_of_pastAdmissions hc)
    exact hst.admissions hlistener (h.admissions hc)
  · exact hst.active (h.admissions (Caller.pastAdmissions_of_hasReturned hc)) (h.active hc)

theorem State.Seen.wake {s : State ι κ} {c : Caller κ} (h : s.Seen c) (selects : Wait → Bool) :
    s.Seen (c.wake selects) := by
  have hlistener : (c.wake selects).pastListener = c.pastListener := by cases c <;> rfl
  have hadmissions : (c.wake selects).pastAdmissions = c.pastAdmissions := by cases c <;> rfl
  have hreturned : (c.wake selects).hasReturned = c.hasReturned := by cases c <;> rfl
  refine ⟨fun hc => h.listener (hlistener ▸ hc), fun hc => h.admissions (hadmissions ▸ hc), fun hc => ?_⟩
  exact h.active (hreturned ▸ hc)

/-- A call goes on after a wait knowing what it has waited for. -/
theorem State.Seen.next {s : State ι κ} {w : Wait} (h : s.Seen (.looking w)) (hdone : s.done w = true) :
    s.Seen w.next := by
  cases w with
  | listener => exact ⟨fun _ => hdone, fun hc => (by cases hc), fun hc => by cases hc⟩
  | admissions =>
    refine ⟨fun _ => h.listener rfl, fun _ => ?_, fun hc => by cases hc⟩
    simpa [State.done] using hdone
  | active failed =>
    refine ⟨fun _ => h.listener rfl, fun _ => h.admissions rfl, fun _ => ?_⟩
    simpa [State.done] using hdone

theorem Lasts.rfl {s : State ι κ} : Lasts s s := ⟨id, fun _ => id, fun _ => id⟩

/-! ## What was seen stays so -/

section Steps

variable [DecidableEq κ]

theorem lasts_admissionStep {s t : State ι κ} {k : κ} {a : AdmissionAction} (h : s.Admits)
    (ht : Server.admissionStep s k a = some t) : Lasts s t := by
  cases a with
  | register =>
    simp only [Server.admissionStep] at ht
    split at ht
    · next hpc =>
      cases ht
      refine ⟨id, fun _ => id, fun hnone _ => ?_⟩
      -- the connection is in flight
      have hmem : k ∈ s.inFlight := (h.placed k).counted (by rw [hpc]; rfl)
      rw [h.counted, List.length_eq_zero_iff] at hnone
      rw [hnone] at hmem
      cases hmem
    · cases ht
  | unregister =>
    simp only [Server.admissionStep] at ht
    split at ht <;> cases ht
    refine ⟨id, fun _ => id, fun _ hactive => ?_⟩
    show s.active.erase k = []
    rw [hactive]
    rfl
  | leave =>
    simp only [Server.admissionStep] at ht
    split at ht <;> cases ht
    refine ⟨id, fun _ hnone => ?_, fun _ => id⟩
    show s.admissions - 1 = 0
    rw [hnone]
  | send =>
    simp only [Server.admissionStep] at ht
    split at ht <;> cases ht
    split <;> exact ⟨id, fun _ => id, fun _ => id⟩
  | close a =>
    simp only [Server.admissionStep] at ht
    split at ht
    · obtain ⟨r, -, rfl⟩ := Option.map_eq_some_iff.mp ht
      exact ⟨id, fun _ => id, fun _ => id⟩
    · cases ht
  | upgrade | upgradeFails | look | watch | announce =>
    simp only [Server.admissionStep] at ht
    split at ht <;> cases ht
    exact ⟨id, fun _ => id, fun _ => id⟩

theorem lasts_watcherStep {s t : State ι κ} {k : κ} {a : WatcherAction}
    (ht : Server.watcherStep s k a = some t) : Lasts s t := by
  cases a with
  | remove =>
    simp only [Server.watcherStep] at ht
    split at ht <;> cases ht
    refine ⟨id, fun _ => id, fun _ hactive => ?_⟩
    show s.active.erase k = []
    rw [hactive]
    rfl
  | closed | announce =>
    simp only [Server.watcherStep] at ht
    split at ht <;> cases ht
    exact ⟨id, fun _ => id, fun _ => id⟩

theorem lasts_envStep {s t : State ι κ} {a : EnvAction κ} (ht : Server.envStep s a = some t) :
    Lasts s t := by
  cases a with
  | connect k | receive | close k | answer k | finish k =>
    simp only [Server.envStep] at ht
    split at ht <;> cases ht
    all_goals exact ⟨id, fun _ => id, fun _ => id⟩

theorem lasts_loopStep {s t : State ι κ} {a : LoopAction} (h : s.Admits)
    (ht : Server.loopStep s a = some t) : Lasts s t := by
  cases a with
  | count =>
    simp only [Server.loopStep] at ht
    split at ht
    · next k hloop =>
      cases ht
      refine ⟨id, fun hfinished _ => ?_, fun _ => id⟩
      -- a finished listener counts no connection
      rcases h.finished hfinished with hover | hover <;> rw [hloop] at hover <;> cases hover
    · cases ht
  | finish =>
    simp only [Server.loopStep] at ht
    split at ht <;> cases ht
    exact ⟨fun _ => rfl, fun _ => id, fun _ => id⟩
  | create | stopped | accept | acceptFails | look | spawn | announce =>
    simp only [Server.loopStep] at ht
    split at ht <;> cases ht
    exact ⟨id, fun _ => id, fun _ => id⟩

/-! ## The calls -/

variable [DecidableEq ι]

theorem State.Admits.callerStep {s t : State ι κ} {i : ι} {a : CallerAction κ} (h : s.Admits)
    (ht : callerStep s i a = some t) : t.Admits := by
  cases a with
  | notify =>
    simp only [Server.callerStep] at ht
    split at ht <;> cases ht
    have hheld : s.loop.wake.held = s.loop.held := by cases s.loop <;> rfl
    have hspawning : ∀ k, s.loop.wake = .spawning k ↔ s.loop = .spawning k := by
      intro k
      cases s.loop <;> simp [Loop.wake]
    refine ⟨?_, h.counted, fun j => ?_, fun hf => ?_⟩
    · show (s.loop.wake.held ++ s.backlog).Nodup
      rw [hheld]
      exact h.nodup
    · show (s.connection j).Placed (j ∈ s.loop.wake.held ++ s.backlog) (s.loop.wake = .spawning j) _ _ _
      rw [hheld, propext (hspawning j)]
      exact h.placed j
    · rcases h.finished hf with hloop | hloop
      · left
        show s.loop.wake = _
        rw [hloop]
        rfl
      · right
        show s.loop.wake = _
        rw [hloop]
        rfl
  | close a failure =>
    simp only [Server.callerStep] at ht
    split at ht
    · next k transports call failed hpc =>
      obtain ⟨r, hr, rfl⟩ := Option.map_eq_some_iff.mp ht
      exact State.Admits.notify (h.setLink (closeStep_later hr).1) _
    · cases ht
  | snapshot transports =>
    simp only [Server.callerStep] at ht
    split at ht
    · split at ht <;> cases ht
      exact h.notify _
    · cases ht
  | call | look | create | recheck | wake | take | closedAll | drop =>
    simp only [Server.callerStep] at ht
    split at ht <;> cases ht
    all_goals exact ⟨h.nodup, h.counted, h.placed, h.finished⟩

/-- A step of a call lets the other calls be, takes nothing back, and the call knows what it has seen. -/
theorem seen_callerStep {s t : State ι κ} {i : ι} {a : CallerAction κ} (h : s.Seen (s.caller i))
    (ht : Server.callerStep s i a = some t) :
    Lasts s t ∧ t.Seen (t.caller i) ∧ ∀ j, j ≠ i → t.caller j = s.caller j := by
  have hothers : ∀ (u : State ι κ) c j, j ≠ i → (u.setCaller i c).caller j = u.caller j :=
    fun u c j hj => Function.update_of_ne hj _ _
  have hself : ∀ (u : State ι κ) c, (u.setCaller i c).caller i = c := fun u c => Function.update_self _ _ _
  cases a with
  | call =>
    simp only [Server.callerStep] at ht
    split at ht <;> cases ht
    refine ⟨⟨id, fun _ => id, fun _ => id⟩, ?_, hothers _ _⟩
    rw [hself]
    split
    · exact .of_early rfl
    · exact .of_early rfl
  | notify =>
    simp only [Server.callerStep] at ht
    split at ht <;> cases ht
    refine ⟨⟨id, fun _ => id, fun _ => id⟩, ?_, hothers _ _⟩
    rw [hself]
    exact .of_early rfl
  | look =>
    simp only [Server.callerStep] at ht
    split at ht
    · next wait hpc =>
      cases ht
      rw [hpc] at h
      refine ⟨⟨id, fun _ => id, fun _ => id⟩, ?_, hothers _ _⟩
      rw [hself]
      split
      · next hdone =>
        have hnext := h.next hdone
        exact ⟨hnext.listener, hnext.admissions, hnext.active⟩
      · exact ⟨h.listener, h.admissions, fun hc => by cases hc⟩
    · cases ht
  | recheck =>
    simp only [Server.callerStep] at ht
    split at ht
    · next wait notified hpc =>
      cases ht
      rw [hpc] at h
      have hlooking : s.Seen (.looking wait : Caller κ) :=
        ⟨h.listener, h.admissions, fun hc => by cases hc⟩
      refine ⟨⟨id, fun _ => id, fun _ => id⟩, ?_, hothers _ _⟩
      rw [hself]
      split
      · next hdone =>
        have hnext := hlooking.next hdone
        exact ⟨hnext.listener, hnext.admissions, hnext.active⟩
      · exact ⟨h.listener, h.admissions, fun hc => by cases hc⟩
    · cases ht
  | create | wake =>
    simp only [Server.callerStep] at ht
    split at ht
    · next hpc =>
      cases ht
      rw [hpc] at h
      refine ⟨⟨id, fun _ => id, fun _ => id⟩, ?_, hothers _ _⟩
      rw [hself]
      exact ⟨h.listener, h.admissions, fun hc => by cases hc⟩
    · cases ht
  | take | closedAll =>
    simp only [Server.callerStep] at ht
    split at ht
    · next hpc =>
      cases ht
      rw [hpc] at h
      refine ⟨⟨id, fun _ => id, fun _ => id⟩, ?_, hothers _ _⟩
      rw [hself]
      exact ⟨fun _ => h.listener rfl, fun _ => h.admissions rfl, fun hc => by cases hc⟩
    · cases ht
  | snapshot transports =>
    simp only [Server.callerStep] at ht
    split at ht
    · next hpc =>
      split at ht <;> cases ht
      rw [hpc] at h
      refine ⟨⟨id, fun _ => id, fun _ => id⟩, ?_, hothers _ _⟩
      rw [hself]
      exact ⟨fun _ => h.listener rfl, fun _ => h.admissions rfl, fun hc => by cases hc⟩
    · cases ht
  | close a failure =>
    simp only [Server.callerStep] at ht
    split at ht
    · next k transports call failed hpc =>
      obtain ⟨r, -, rfl⟩ := Option.map_eq_some_iff.mp ht
      rw [hpc] at h
      refine ⟨⟨id, fun _ => id, fun _ => id⟩, ?_, hothers _ _⟩
      rw [hself]
      cases r.2 with
      | none => exact ⟨fun _ => h.listener rfl, fun _ => h.admissions rfl, fun hc => by cases hc⟩
      | some call => exact ⟨fun _ => h.listener rfl, fun _ => h.admissions rfl, fun hc => by cases hc⟩
    · cases ht
  | drop =>
    simp only [Server.callerStep] at ht
    split at ht <;> cases ht
    all_goals
      refine ⟨⟨id, fun _ => id, fun _ => id⟩, ?_, hothers _ _⟩
      rw [hself]
      exact .of_early rfl

/-! ## The result -/

/-- The invariant of the server: the connections are in their places, and the calls know what they have
seen. -/
structure State.Orderly (s : State ι κ) : Prop where
  admits : s.Admits
  seen : ∀ i, s.Seen (s.caller i)

omit [DecidableEq κ] [DecidableEq ι] in
theorem orderly_bind : (bind : State ι κ).Orderly := by
  refine ⟨⟨List.nodup_nil, rfl, fun k => ?_, fun hf => by cases hf⟩, fun i => ?_⟩
  · refine ⟨fun hc => (by cases hc), fun hc => (by cases hc), fun hc => (by cases hc), fun _ => rfl,
      fun hc => (by cases hc), fun hc => (by cases hc), fun hc => absurd rfl hc, fun hc => (by cases hc),
      fun hc => absurd rfl hc, fun hc => by cases hc⟩
  · exact .of_early rfl

theorem State.Orderly.step {s t : State ι κ} {a : Action ι κ} (h : s.Orderly) (ht : step s a = some t) :
    t.Orderly := by
  cases a with
  | loop a =>
    have hlasts := lasts_loopStep h.admits ht
    refine ⟨h.admits.loopStep ht, fun i => ?_⟩
    have hcaller : t.caller i = s.caller i ∨ t.caller i = (s.caller i).wake Wait.isListener := by
      have hstep : Server.loopStep s a = some t := ht
      cases a <;> simp only [Server.loopStep] at hstep <;> split at hstep <;> cases hstep <;>
        first | exact .inl rfl | exact .inr rfl
    rcases hcaller with hcaller | hcaller <;> rw [hcaller]
    · exact (h.seen i).lasts hlasts
    · exact ((h.seen i).wake _).lasts hlasts
  | admission k a =>
    have hlasts := lasts_admissionStep h.admits ht
    refine ⟨h.admits.admissionStep ht, fun i => ?_⟩
    have hcaller : t.caller i = s.caller i ∨
        t.caller i = (s.caller i).wake fun wait => !wait.isListener := by
      have hstep : Server.admissionStep s k a = some t := ht
      cases a with
      | close a =>
        simp only [Server.admissionStep] at hstep
        split at hstep
        · obtain ⟨r, -, rfl⟩ := Option.map_eq_some_iff.mp hstep
          exact .inl rfl
        · cases hstep
      | send =>
        simp only [Server.admissionStep] at hstep
        split at hstep <;> cases hstep
        left
        split <;> rfl
      | _ =>
        simp only [Server.admissionStep] at hstep
        split at hstep <;> cases hstep
        first | exact .inl rfl | exact .inr rfl
    rcases hcaller with hcaller | hcaller <;> rw [hcaller]
    · exact (h.seen i).lasts hlasts
    · exact ((h.seen i).wake _).lasts hlasts
  | watcher k a =>
    have hlasts := lasts_watcherStep ht
    refine ⟨h.admits.watcherStep ht, fun i => ?_⟩
    have hcaller : t.caller i = s.caller i ∨
        t.caller i = (s.caller i).wake fun wait => !wait.isListener := by
      have hstep : Server.watcherStep s k a = some t := ht
      cases a <;> simp only [Server.watcherStep] at hstep <;> split at hstep <;> cases hstep <;>
        first | exact .inl rfl | exact .inr rfl
    rcases hcaller with hcaller | hcaller <;> rw [hcaller]
    · exact (h.seen i).lasts hlasts
    · exact ((h.seen i).wake _).lasts hlasts
  | env a =>
    have hlasts := lasts_envStep ht
    refine ⟨h.admits.envStep ht, fun i => ?_⟩
    have hcaller : t.caller = s.caller := by
      have hstep : Server.envStep s a = some t := ht
      cases a <;> simp only [Server.envStep] at hstep <;> split at hstep <;> cases hstep <;> rfl
    rw [hcaller]
    exact (h.seen i).lasts hlasts
  | caller i a =>
    obtain ⟨hlasts, hself, hothers⟩ := seen_callerStep (h.seen i) ht
    refine ⟨h.admits.callerStep ht, fun j => ?_⟩
    by_cases hj : j = i
    · subst hj
      exact hself
    · rw [hothers j hj]
      exact (h.seen j).lasts hlasts

theorem orderly_of_reachable {s : State ι κ} (hs : (machine ι κ).Reachable s) : s.Orderly := by
  refine hs.invariant (fun s₀ h₀ => ?_) fun s l t h ht => h.step ht
  obtain rfl : s₀ = bind := h₀
  exact orderly_bind

/-- When a call of `shutdown` has returned, the server is shut down. -/
theorem shutDown_of_returned {s : State ι κ} (hs : (machine ι κ).Reachable s) {i : ι} {failed : Bool}
    (hreturned : s.caller i = .returned failed) : s.ShutDown := by
  have h := orderly_of_reachable hs
  have hseen := h.seen i
  rw [hreturned] at hseen
  have hactive : s.active = [] := hseen.active rfl
  have hinFlight : s.inFlight = [] := by
    have hadmissions : s.admissions = 0 := hseen.admissions rfl
    rwa [h.admits.counted, List.length_eq_zero_iff] at hadmissions
  refine ⟨fun k hlink => ?_, hactive, fun k hk => ?_⟩
  · rcases (h.admits.placed k).placed hlink with hplace | hplace | hclosed
    · rw [hinFlight] at hplace
      cases hplace
    · rw [hactive] at hplace
      cases hplace
    · exact hclosed
  · rcases ((h.admits.placed k).accepted hk).2 with hplace | hterminal
    · rw [hactive] at hplace
      cases hplace
    · exact hterminal

end Steps

end Rtvbp.Rust.Server
