import Rtvbp.Go.Proofs.AdmissionProofs

/-!
# Shutdown of the server

A shutdown takes the registry in the same section in which it stops the admissions, so that the sessions
it does not find are in flight, and it waits for the channel that was current at that time, which is closed
when none is. What it has seen stays so.
-/

namespace Rtvbp.Go.Server

open Rtvbp.Lib

section Steps

variable {ε ι κ : Type} {s t : State ι κ ε} {k : κ} {i : ι} [DecidableEq κ]

/-! ## What a shutdown knows -/

/-- The sessions that the call has still to close. -/
def Caller.rest : Caller κ → List κ
  | .closing sessions _ _ | .waiting sessions _ _ => sessions
  | _ => []

/-- The channel that the call has captured. -/
def Caller.channel : Caller κ → Option (Option Nat)
  | .closing _ captured _ | .waiting _ captured _ => some captured
  | .http captured _ | .draining captured _ => some captured
  | _ => none

/-- The call has come this far without an error. -/
def Caller.succeeds : Caller κ → Bool
  | .closing _ _ failed | .waiting _ _ failed | .http _ failed | .draining _ failed => !failed
  | .returned failed => !failed
  | .idle => false

/-- What a call of `Shutdown` has seen is so: the server shuts down, the channel is the current one, the
sessions in the registry are finished but for those that it has still to close, and no admission is in
flight when it returns. -/
structure State.Seen (s : State ι κ ε) (c : Caller κ) : Prop where
  begun : c ≠ .idle → s.shuttingDown = true
  channel : ∀ idle, c.channel = some idle → idle = s.admissionIdle
  closed : c.succeeds = true →
    ∀ k ∈ s.sessions, k ∈ c.rest ∨ (s.session k).supervisor.pc = .finished
  drained : c = .returned false → s.admissions = 0

/-- What was seen stays so. -/
structure Lasts (s t : State ι κ ε) : Prop where
  begun : s.shuttingDown = true → t.shuttingDown = true
  channel : s.shuttingDown = true → t.admissionIdle = s.admissionIdle
  admissions : s.shuttingDown = true → s.admissions = 0 → t.admissions = 0
  sessions : s.shuttingDown = true → ∀ k ∈ t.sessions, k ∈ s.sessions
  finished : ∀ k, (s.session k).supervisor.pc = .finished → (t.session k).supervisor.pc = .finished
  admitted : s.shuttingDown = true →
    ∀ k, (t.handler k).wasAdmitted = true → (s.handler k).wasAdmitted = true

omit [DecidableEq κ] in
theorem State.Seen.lasts {c : Caller κ} (h : s.Seen c) (hst : Lasts s t) : t.Seen c := by
  have hbegun : ∀ {p : Prop}, (c ≠ .idle → p) → c.succeeds = true → p := by
    intro p hp hc
    refine hp ?_
    rintro rfl
    cases hc
  refine ⟨fun hc => hst.begun (h.begun hc), fun idle hc => ?_, fun hc k hk => ?_, fun hc => ?_⟩
  · have hne : c ≠ .idle := by
      rintro rfl
      cases hc
    rw [hst.channel (h.begun hne)]
    exact h.channel idle hc
  · rcases h.closed hc k (hst.sessions (hbegun h.begun hc) k hk) with hrest | hfinished
    · exact .inl hrest
    · exact .inr (hst.finished k hfinished)
  · have hne : c ≠ .idle := by
      rw [hc]
      simp
    exact hst.admissions (h.begun hne) (h.drained hc)

omit [DecidableEq κ] in
theorem Lasts.rfl : Lasts s s :=
  ⟨id, fun _ => Eq.refl _, fun _ => id, fun _ _ => id, fun _ => id, fun _ _ => id⟩

theorem lasts_requestStop : Lasts s (s.requestStop k) := by
  refine ⟨id, fun _ => Eq.refl _, fun _ => id, fun _ _ => id, fun j hj => ?_, fun _ _ => id⟩
  show (Function.update s.session k _ j).supervisor.pc = .finished
  by_cases hjk : j = k
  · subst hjk
    rw [Function.update_self]
    exact (requestStop_keeps _ _).1.trans hj
  · rw [Function.update_of_ne hjk]
    exact hj

theorem lasts_setHandler {h' : Handler}
    (hadmitted : s.shuttingDown = true → h'.wasAdmitted = true → (s.handler k).wasAdmitted = true) :
    Lasts s (s.setHandler k h') := by
  refine ⟨id, fun _ => Eq.refl _, fun _ => id, fun _ _ => id, fun _ => id, fun hdown j hj => ?_⟩
  have hj' : (Function.update s.handler k h' j).wasAdmitted = true := hj
  by_cases hjk : j = k
  · subst hjk
    rw [Function.update_self] at hj'
    exact hadmitted hdown hj'
  · rwa [Function.update_of_ne hjk] at hj'

omit [DecidableEq κ] in
theorem Lasts.trans {u : State ι κ ε} (h : Lasts s t) (h' : Lasts t u) : Lasts s u := by
  refine ⟨fun hs => h'.begun (h.begun hs), fun hs => ?_, fun hs hidle => ?_, fun hs k hk => ?_,
    fun k hk => h'.finished k (h.finished k hk), fun hs k hk => ?_⟩
  · exact (h'.channel (h.begun hs)).trans (h.channel hs)
  · exact h'.admissions (h.begun hs) (h.admissions hs hidle)
  · exact h.sessions hs k (h'.sessions (h.begun hs) k hk)
  · exact h.admitted hs k (h'.admitted (h.begun hs) k hk)

/-- A server that shuts down admits nobody. -/
theorem lasts_handlerStep {a : HandlerAction} (h : s.Admits) (ht : handlerStep s k a = some t) :
    Lasts s t := by
  cases a with
  | enter | fails | upgrade =>
    simp only [Server.handlerStep] at ht
    split at ht
    · next hpc =>
      cases ht
      exact lasts_setHandler fun _ _ => by simp_all [Handler.wasAdmitted]
    · cases ht
  | beginAdmission =>
    simp only [Server.handlerStep] at ht
    split at ht
    · next hpc =>
      cases ht
      split
      · exact lasts_setHandler fun _ hc => by cases hc
      · next hdown =>
        refine ⟨id, fun hc => absurd hc hdown, fun hc => absurd hc hdown, fun hc => absurd hc hdown,
          fun _ => id, fun hc => absurd hc hdown⟩
    · cases ht
  | run =>
    simp only [Server.handlerStep] at ht
    split at ht
    · next hpc =>
      cases ht
      have hidle := (h.placed k).ok.supervisor.idle.mp ((h.placed k).unrun (by rw [hpc]; rfl))
      refine Lasts.trans (t := s.setSession k _)
        ⟨id, fun _ => rfl, fun _ => id, fun _ _ => id, fun j hj => ?_, fun _ _ => id⟩
        (lasts_setHandler fun _ _ => ?_)
      · have hne : j ≠ k := by
          rintro rfl
          rw [hidle] at hj
          cases hj
        show (Function.update s.session k _ j).supervisor.pc = .finished
        rw [Function.update_of_ne hne]
        exact hj
      · show (s.handler k).wasAdmitted = true
        rw [hpc]
        rfl
    · cases ht
  | addSession =>
    simp only [Server.handlerStep] at ht
    split at ht
    · next hpc =>
      cases ht
      split
      · exact lasts_setHandler fun _ _ => by simp [hpc, Handler.wasAdmitted]
      · next hdown =>
        refine Lasts.trans (t := { s with sessions := s.sessions ++ [k] })
          ⟨id, fun _ => rfl, fun _ => id, fun hc => absurd hc hdown, fun _ => id, fun _ _ => id⟩
          (lasts_setHandler fun _ _ => ?_)
        show (s.handler k).wasAdmitted = true
        rw [hpc]
        rfl
    · cases ht
  | close =>
    simp only [Server.handlerStep] at ht
    split at ht
    · next hpc =>
      cases ht
      refine lasts_requestStop.trans (lasts_setHandler fun _ _ => ?_)
      show (s.handler k).wasAdmitted = true
      rw [hpc]
      rfl
    · cases ht
  | closed | done =>
    simp only [Server.handlerStep] at ht
    split at ht
    · next hpc =>
      split at ht <;> cases ht
      exact lasts_setHandler fun _ _ => by simp [hpc, Handler.wasAdmitted]
    · cases ht
  | endAdmission =>
    have hend : Lasts s (s.endAdmission k) := by
      refine ⟨id, fun _ => rfl, fun _ hnone => ?_, fun _ _ => id, fun _ => id, fun _ _ => id⟩
      show s.admissions - 1 = 0
      rw [hnone]
    simp only [Server.handlerStep] at ht
    split at ht
    · next hpc =>
      cases ht
      refine hend.trans (lasts_setHandler fun _ _ => ?_)
      show (s.handler k).wasAdmitted = true
      rw [hpc]
      rfl
    · next hpc =>
      cases ht
      refine hend.trans (lasts_setHandler fun _ _ => ?_)
      show (s.handler k).wasAdmitted = true
      rw [hpc]
      rfl
    · cases ht
  | removeSession =>
    simp only [Server.handlerStep] at ht
    split at ht
    · next hpc =>
      cases ht
      refine Lasts.trans (t := { s with sessions := s.sessions.erase k })
        ⟨id, fun _ => rfl, fun _ => id, fun _ _ hj => List.mem_of_mem_erase hj, fun _ => id,
          fun _ _ => id⟩
        (lasts_setHandler fun _ _ => ?_)
      show (s.handler k).wasAdmitted = true
      rw [hpc]
      rfl
    · cases ht

/-! ## The calls -/

variable [DecidableEq ι]

/-- A step of a call keeps the server, takes nothing back, lets the other calls be, and the call knows
what it has seen. -/
theorem callerStep_spec {a : CallerAction κ} (h : s.Admits) (hseen : s.Seen (s.caller i))
    (ht : callerStep s i a = some t) :
    t.Admits ∧ Lasts s t ∧ t.Seen (t.caller i) ∧ ∀ j, j ≠ i → t.caller j = s.caller j := by
  have hothers : ∀ (u : State ι κ ε) c j, j ≠ i → (u.setCaller i c).caller j = u.caller j :=
    fun u c j hj => Function.update_of_ne hj _ _
  have hself : ∀ (u : State ι κ ε) c, (u.setCaller i c).caller i = c :=
    fun u c => Function.update_self _ _ _
  have hsame : ∀ c, (s.setCaller i c).Admits ∧ Lasts s (s.setCaller i c) := by
    intro c
    exact ⟨⟨h.counted, h.placed, h.channels.current, h.channels.closed, h.channels.none_made⟩,
      id, fun _ => rfl, fun _ => id, fun _ _ => id, fun _ => id, fun _ _ => id⟩
  cases a with
  | shutdown sessions =>
    simp only [Server.callerStep] at ht
    split at ht
    · split at ht
      · next hperm =>
        cases ht
        refine ⟨⟨h.counted, h.placed, h.channels.current, h.channels.closed, h.channels.none_made⟩,
          ⟨fun _ => rfl, fun _ => rfl, fun _ => id, fun _ _ => id, fun _ => id, fun _ _ => id⟩, ?_,
          hothers _ _⟩
        rw [hself]
        refine ⟨fun _ => rfl, fun idle hc => (Option.some.inj hc).symm, fun _ k hk => ?_,
          fun hc => by cases hc⟩
        exact .inl (hperm.mem_iff.mpr hk)
      · cases ht
    · cases ht
  | close =>
    simp only [Server.callerStep] at ht
    split at ht
    · next k sessions idle failed hpc =>
      cases ht
      rw [hpc] at hseen
      split
      · refine ⟨?_, (lasts_requestStop (k := k)).trans ?_, ?_, hothers _ _⟩
        · have hstop := h.requestStop (k := k)
          exact ⟨hstop.counted, hstop.placed, hstop.channels.current, hstop.channels.closed,
            hstop.channels.none_made⟩
        · exact ⟨id, fun _ => rfl, fun _ => id, fun _ _ => id, fun _ => id, fun _ _ => id⟩
        · rw [hself]
          have hlasts : (s.requestStop k).Seen (.closing (k :: sessions) idle failed) :=
            hseen.lasts lasts_requestStop
          exact ⟨fun _ => hlasts.begun (by simp), hlasts.channel, hlasts.closed, fun hc => by cases hc⟩
      · refine ⟨(hsame _).1, (hsame _).2, ?_, hothers _ _⟩
        rw [hself]
        exact ⟨fun _ => hseen.begun (by simp), hseen.channel, fun hc => (by cases hc),
          fun hc => by cases hc⟩
    · cases ht
  | closed =>
    simp only [Server.callerStep] at ht
    split at ht
    · next k sessions idle failed hpc =>
      split at ht
      · next hfinalized =>
        cases ht
        rw [hpc] at hseen
        refine ⟨(hsame _).1, (hsame _).2, ?_, hothers _ _⟩
        rw [hself]
        refine ⟨fun _ => hseen.begun (by simp), hseen.channel, fun hc j hj => ?_, fun hc => by cases hc⟩
        rcases hseen.closed hc j hj with hrest | hfinished
        · rcases List.mem_cons.mp hrest with rfl | hrest
          · exact .inr ((h.placed j).ok.finished_of_finalized hfinalized)
          · exact .inl hrest
        · exact .inr hfinished
      · cases ht
    · cases ht
  | expired =>
    simp only [Server.callerStep] at ht
    split at ht
    · next k sessions idle failed hpc =>
      split at ht
      · cases ht
        rw [hpc] at hseen
        refine ⟨(hsame _).1, (hsame _).2, ?_, hothers _ _⟩
        rw [hself]
        exact ⟨fun _ => hseen.begun (by simp), hseen.channel, fun hc => (by cases hc),
          fun hc => by cases hc⟩
      · cases ht
    · cases ht
  | closedAll =>
    simp only [Server.callerStep] at ht
    split at ht
    · next idle failed hpc =>
      cases ht
      rw [hpc] at hseen
      refine ⟨(hsame _).1, (hsame _).2, ?_, hothers _ _⟩
      rw [hself]
      exact ⟨fun _ => hseen.begun (by simp), hseen.channel, hseen.closed, fun hc => by cases hc⟩
    · cases ht
  | http failure =>
    simp only [Server.callerStep] at ht
    split at ht
    · next idle failed hpc =>
      cases ht
      rw [hpc] at hseen
      refine ⟨(hsame _).1, (hsame _).2, ?_, hothers _ _⟩
      rw [hself]
      refine ⟨fun _ => hseen.begun (by simp), hseen.channel, fun hc => ?_, fun hc => by cases hc⟩
      refine hseen.closed ?_
      cases failed with
      | false => rfl
      | true => cases hc
    · cases ht
  | drained =>
    simp only [Server.callerStep] at ht
    split at ht
    · next idle failed hpc =>
      split at ht
      · next hdrained =>
        cases ht
        rw [hpc] at hseen
        refine ⟨(hsame _).1, (hsame _).2, ?_, hothers _ _⟩
        rw [hself]
        refine ⟨fun _ => hseen.begun (by simp), fun idle hc => (by cases hc), hseen.closed, fun _ => ?_⟩
        have hcurrent : idle = s.admissionIdle := hseen.channel idle rfl
        rw [hcurrent] at hdrained
        exact h.channels.idle hdrained
      · cases ht
    · cases ht
  | drainExpired =>
    simp only [Server.callerStep] at ht
    split at ht
    · next hpc =>
      split at ht
      · cases ht
        rw [hpc] at hseen
        refine ⟨(hsame _).1, (hsame _).2, ?_, hothers _ _⟩
        rw [hself]
        exact ⟨fun _ => hseen.begun (by simp), fun idle hc => (by cases hc), fun hc => (by cases hc),
          fun hc => by cases hc⟩
      · cases ht
    · cases ht

/-! ## The result -/

/-- The invariant of the server: the sessions are in their places, and the calls know what they have
seen. -/
structure State.Orderly (s : State ι κ ε) : Prop where
  admits : s.Admits
  seen : ∀ i, s.Seen (s.caller i)

variable [DecidableEq ε] {config : Supervise.Config} {is : ε → ε → Bool} {canceled : ε}

omit [DecidableEq κ] [DecidableEq ι] [DecidableEq ε] in
theorem orderly_newServer : (newServer : State ι κ ε).Orderly := by
  refine ⟨⟨rfl, fun k => ?_, fun c hc => (by cases hc), fun c hc => (by cases hc), fun _ => rfl⟩,
    fun i => ?_⟩
  · refine {
      ok := ⟨Supervise.inv_initial, fun hopen => by cases hopen⟩
      counted := fun hc => by cases hc
      unrun := fun _ => rfl
      held := fun hc => by cases hc
      ran := fun hc => by cases hc
      placed := fun hc => by cases hc
      removing := fun hc => by cases hc }
  · exact ⟨fun hc => absurd rfl hc, fun idle hc => (by cases hc), fun hc => (by cases hc),
      fun hc => by cases hc⟩

theorem State.Orderly.step {a : Action ι κ ε} (h : s.Orderly)
    (ht : step config is canceled s a = some t) : t.Orderly ∧ Lasts s t := by
  cases a with
  | handler k a =>
    have hlasts := lasts_handlerStep h.admits ht
    refine ⟨⟨h.admits.handlerStep ht, fun i => ?_⟩, hlasts⟩
    have hcaller : t.caller = s.caller := by
      have hstep : Server.handlerStep s k a = some t := ht
      cases a <;> simp only [Server.handlerStep] at hstep <;> split at hstep <;>
        (try split at hstep) <;> cases hstep <;> rfl
    rw [hcaller]
    exact (h.seen i).lasts hlasts
  | session k a =>
    simp only [Server.step, Option.ite_none_right_eq_some, Option.map_eq_some_iff] at ht
    obtain ⟨hrun, x, hx, rfl⟩ := ht
    obtain ⟨hfinished, hruns⟩ := finished_sessionStep (h.admits.placed k).ok hx
    have hlasts : Lasts s (s.setSession k x) := by
      refine ⟨id, fun _ => rfl, fun _ => id, fun _ _ => id, fun j hj => ?_, fun _ _ => id⟩
      show (Function.update s.session k x j).supervisor.pc = .finished
      by_cases hjk : j = k
      · subst hjk
        rw [Function.update_self]
        exact hfinished hj
      · rw [Function.update_of_ne hjk]
        exact hj
    have hadmits := h.admits.setSession ((h.admits.placed k).ok.step hx) hfinished
      ((hruns hrun).trans hrun.symm)
    exact ⟨⟨hadmits, fun i => (h.seen i).lasts hlasts⟩, hlasts⟩
  | caller i a =>
    obtain ⟨hadmits, hlasts, hself, hothers⟩ := callerStep_spec h.admits (h.seen i) ht
    refine ⟨⟨hadmits, fun j => ?_⟩, hlasts⟩
    by_cases hj : j = i
    · subst hj
      exact hself
    · rw [hothers j hj]
      exact (h.seen j).lasts hlasts
  | ctxEnds i =>
    cases ht
    have hlasts : Lasts s { s with ctxDone := Function.update s.ctxDone i true } :=
      ⟨id, fun _ => rfl, fun _ => id, fun _ _ => id, fun _ => id, fun _ _ => id⟩
    have hadmits := h.admits
    exact ⟨⟨⟨hadmits.counted, hadmits.placed, hadmits.channels.current, hadmits.channels.closed,
      hadmits.channels.none_made⟩, fun j => (h.seen j).lasts hlasts⟩, hlasts⟩

theorem orderly_of_reachable (hs : (machine ι κ config is canceled).Reachable s) : s.Orderly := by
  refine hs.invariant (fun s₀ h₀ => ?_) fun s l t h ht => (h.step ht).1
  obtain rfl : s₀ = newServer := h₀
  exact orderly_newServer

/-- When a call of `Shutdown` has returned nil, the server is shut down. -/
theorem shutDown_of_returned (hs : (machine ι κ config is canceled).Reachable s)
    (hreturned : s.caller i = .returned false) : s.ShutDown := by
  have h := orderly_of_reachable hs
  have hseen := h.seen i
  rw [hreturned] at hseen
  have hinFlight : s.inFlight = [] := by
    have hnone := hseen.drained rfl
    rwa [h.admits.counted, List.length_eq_zero_iff] at hnone
  refine ⟨hseen.begun (by simp), hinFlight, fun k hrun => ?_⟩
  have hk := h.admits.placed k
  refine hk.ok.ended ?_
  rcases hk.placed hrun with hholds | hregistered | hfinished
  · -- the handler of a session that it holds is in flight
    have hcounted : (s.handler k).counted = true := by
      cases hpc : s.handler k with
      | running | rejecting | closing => rfl
      | _ =>
        rw [hpc] at hholds
        cases hholds
    have hmem := hk.counted hcounted
    rw [hinFlight] at hmem
    cases hmem
  · rcases hseen.closed rfl k hregistered with hrest | hfinished
    · cases hrest
    · exact hfinished
  · exact hfinished

/-- No connection is admitted after the server has begun to shut down. -/
theorem lasts_of_steps (hs : (machine ι κ config is canceled).Reachable s)
    (hst : (machine ι κ config is canceled).Steps (fun _ _ => True) s t) : Lasts s t := by
  have h := orderly_of_reachable hs
  have hboth : t.Orderly ∧ Lasts s t := by
    refine hst.invariant (I := fun u => u.Orderly ∧ Lasts s u) (fun u l v hu _ hl => ?_) ⟨h, .rfl⟩
    obtain ⟨hv, huv⟩ := hu.1.step hl
    exact ⟨hv, hu.2.trans huv⟩
  exact hboth.2

end Steps

end Rtvbp.Go.Server
