import Rtvbp.Rust.Server
import Mathlib.Tactic

/-!
# The stages of a connection

An upgraded transport is in flight, in the registry, or closed; from one of these it comes to the next
without a gap. Each stage has a lemma, and a step of the server moves one connection by a stage.
-/

namespace Rtvbp.Rust.Server

open Rtvbp.Lib

variable {ι κ : Type}

/-! ## The stages of a connection -/

/-- The connections that the loop and the backlog hold. -/
def Loop.held : Loop κ → List κ
  | .accepted k | .counting k | .spawning k => [k]
  | _ => []

/-- The task of the connection has not upgraded it. -/
def Admission.early : Admission → Bool
  | .absent | .connected | .accepting => true
  | _ => false

/-- The task of the connection runs, and `admissions` counts it. -/
def Admission.counted : Admission → Bool
  | .absent | .connected | .announcing | .over => false
  | _ => true

/-- The transport is in the registry and has no watcher. -/
def Admission.registered : Admission → Bool
  | .handing | .watching | .unregistering => true
  | _ => false

/-- The application has the transport, or can receive it. -/
def Admission.handed : Admission → Bool
  | .watching | .leaving | .announcing | .over => true
  | _ => false

/-- The task of the connection is done with the transport. -/
def Admission.left : Admission → Bool
  | .leaving | .announcing | .over => true
  | _ => false

/-- The watcher has seen the end of the transport. -/
def Watcher.ended : Watcher → Bool
  | .removing | .announcing | .over => true
  | _ => false

/-- Where a connection is: it is held by the loop or the backlog, spawned by the loop, counted as in flight,
in the registry, and in the queue of the application. -/
structure Connection.Placed (c : Connection) (held spawning inFlight active accepted : Prop) : Prop where
  held : held → c.admission = .connected
  spawning : spawning → inFlight
  counted : c.admission.counted = true → inFlight
  early : c.admission.early = true → c.link = .absent
  registered : c.admission.registered = true → active ∧ c.watcher = .absent
  leaving : c.admission = .leaving → c.link = .absent ∨ active ∨ c.link.closed = true
  placed : c.link ≠ .absent → inFlight ∨ active ∨ c.link.closed = true
  ended : c.watcher.ended = true → c.link = .terminal
  watched : c.watcher ≠ .absent → c.admission.left = true
  accepted : accepted → c.admission.handed = true ∧ (active ∨ c.link = .terminal)

/-- The connection `k` is in its place. -/
def State.PlacedAt (s : State ι κ) (k : κ) : Prop :=
  (s.connection k).Placed (k ∈ s.loop.held ++ s.backlog) (s.loop = .spawning k) (k ∈ s.inFlight)
    (k ∈ s.active) (k ∈ s.accepted)

/-- What holds of the server without the calls of `shutdown`. -/
structure State.Admits (s : State ι κ) : Prop where
  nodup : (s.loop.held ++ s.backlog).Nodup
  counted : s.admissions = s.inFlight.length
  placed : ∀ k, s.PlacedAt k
  finished : s.listenerFinished = true → s.loop = .announcing ∨ s.loop = .over

/-! ## One connection changes -/

section Connection

variable [DecidableEq κ]

/-- A step that concerns one connection keeps the others in their places. -/
theorem State.Admits.update {s t : State ι κ} {k : κ} (h : s.Admits)
    (hloop : t.loop = s.loop) (hbacklog : t.backlog = s.backlog)
    (hfinished : t.listenerFinished = s.listenerFinished) (hcounted : t.admissions = t.inFlight.length)
    (hothers : ∀ j, j ≠ k → t.connection j = s.connection j ∧ (j ∈ t.inFlight ↔ j ∈ s.inFlight) ∧
      (j ∈ t.active ↔ j ∈ s.active) ∧ (j ∈ t.accepted ↔ j ∈ s.accepted))
    (hk : t.PlacedAt k) : t.Admits := by
  refine ⟨?_, hcounted, fun j => ?_, fun hf => ?_⟩
  · rw [hloop, hbacklog]
    exact h.nodup
  · by_cases hj : j = k
    · subst hj
      exact hk
    · obtain ⟨hconnection, hinFlight, hactive, haccepted⟩ := hothers j hj
      unfold State.PlacedAt
      rw [hconnection, hloop, hbacklog, propext hinFlight, propext hactive, propext haccepted]
      exact h.placed j
  · rw [hloop]
    exact h.finished (hfinished ▸ hf)

/-- What becomes of a link. -/
inductive Link.Later : Link → Link → Prop where
  | same (l : Link) : Later l l
  | closes : Later .live .closing
  | answers : Later .closing .answered
  | ends (l : Link) : l ≠ .absent → Later l .terminal

theorem Link.Later.keeps {l l' : Link} (h : l.Later l') :
    (l = .absent ↔ l' = .absent) ∧ (l.closed = true → l'.closed = true) ∧
      (l = .terminal → l' = .terminal) := by
  cases h with
  | same l => exact ⟨Iff.rfl, id, id⟩
  | closes | answers => simp [Link.closed]
  | ends l hne => simp [Link.closed, hne]

theorem Connection.Placed.later {c : Connection} {held spawning inFlight active accepted : Prop} {l : Link}
    (h : c.Placed held spawning inFlight active accepted) (hl : c.link.Later l) :
    ({ c with link := l } : Connection).Placed held spawning inFlight active accepted := by
  obtain ⟨habsent, hclosed, hterminal⟩ := hl.keeps
  refine ⟨h.held, h.spawning, h.counted, fun hc => habsent.mp (h.early hc), h.registered, fun hc => ?_,
    fun hc => ?_, fun hc => hterminal (h.ended hc), h.watched, fun hc => ?_⟩
  · rcases h.leaving hc with hlink | hactive | hlink
    · exact .inl (habsent.mp hlink)
    · exact .inr (.inl hactive)
    · exact .inr (.inr (hclosed hlink))
  · rcases h.placed fun hlink => hc (habsent.mp hlink) with hinFlight | hactive | hlink
    · exact .inl hinFlight
    · exact .inr (.inl hactive)
    · exact .inr (.inr (hclosed hlink))
  · obtain ⟨hhanded, hactive | hlink⟩ := h.accepted hc
    · exact ⟨hhanded, .inl hactive⟩
    · exact ⟨hhanded, .inr (hterminal hlink)⟩

theorem State.Admits.setLink {s : State ι κ} (h : s.Admits) {k : κ} {l : Link}
    (hl : (s.connection k).link.Later l) : (s.setLink k l).Admits := by
  refine h.update (k := k) rfl rfl rfl h.counted (fun j hj => ?_) ?_
  · exact ⟨Function.update_of_ne hj _ _, Iff.rfl, Iff.rfl, Iff.rfl⟩
  · show (Function.update s.connection k _ k).Placed _ _ _ _ _
    rw [Function.update_self]
    exact (h.placed k).later hl

theorem closeStep_later {link link' : Link} {call : CloseCall} {a : CloseAction} {rest : Option CloseCall}
    (h : closeStep link call a = some (link', rest)) :
    link.Later link' ∧ (rest = none → link'.closed = true) := by
  cases a with
  | look =>
    simp only [closeStep] at h
    split at h
    · split at h
      · next hlink =>
        cases h
        exact ⟨.same _, fun _ => by rw [hlink]; rfl⟩
      · cases h
        exact ⟨.same _, fun hrest => by cases hrest⟩
    · cases h
  | take =>
    simp only [closeStep] at h
    split at h
    · split at h
      · next hlink =>
        cases h
        rw [hlink]
        exact ⟨.closes, fun hrest => by cases hrest⟩
      · cases h
        exact ⟨.same _, fun hrest => by cases hrest⟩
    · cases h
  | answered =>
    simp only [closeStep] at h
    split at h
    · split at h
      · next hclosed =>
        cases h
        exact ⟨.same _, fun _ => hclosed⟩
      · cases h
    · cases h
  | waited =>
    simp only [closeStep] at h
    split at h
    · split at h
      · next hlink =>
        cases h
        exact ⟨.same _, fun _ => by rw [hlink]; rfl⟩
      · cases h
    · cases h

end Connection

/-! ## The stages in turn -/

section Stages

variable {c : Connection} {held spawning inFlight active accepted : Prop}
  (h : c.Placed held spawning inFlight active accepted)

include h

/-- The task goes on without the server. -/
theorem Connection.Placed.goes {a : Admission} (hpc : c.admission ≠ .connected)
    (hcounted : a.counted = true → c.admission.counted = true)
    (hearly : a.early = true → c.admission.early = true)
    (hregistered : a.registered = true → c.admission.registered = true)
    (hleaving : a = .leaving → c.link = .absent ∨ active ∨ c.link.closed = true)
    (hleft : c.admission.left = true → a.left = true)
    (hhanded : c.admission.handed = true → a.handed = true) :
    ({ c with admission := a } : Connection).Placed held spawning inFlight active accepted := by
  refine {
    held := fun hheld => absurd (h.held hheld) hpc
    spawning := h.spawning
    counted := fun ha => h.counted (hcounted ha)
    early := fun ha => h.early (hearly ha)
    registered := fun ha => h.registered (hregistered ha)
    leaving := hleaving
    placed := h.placed
    ended := h.ended
    watched := fun hw => hleft (h.watched hw)
    accepted := fun ha => ?_ }
  obtain ⟨hc, hplace⟩ := h.accepted ha
  exact ⟨hhanded hc, hplace⟩

theorem Connection.Placed.watcher_absent (hleft : c.admission.left = false) : c.watcher = .absent := by
  by_contra hwatcher
  have hc := h.watched hwatcher
  rw [hleft] at hc
  cases hc

theorem Connection.Placed.not_accepted (hhanded : c.admission.handed = false) : ¬ accepted := by
  intro ha
  have hc := (h.accepted ha).1
  rw [hhanded] at hc
  cases hc

theorem Connection.Placed.not_held (hpc : c.admission ≠ .connected) : ¬ held :=
  fun hheld => hpc (h.held hheld)

/-- The upgrade has been made. -/
theorem Connection.Placed.upgrade (hpc : c.admission = .accepting) :
    (⟨.upgraded, c.watcher, .live⟩ : Connection).Placed held spawning inFlight active accepted := by
  have hnot := h.not_held (by simp [hpc])
  have hinFlight := h.counted (by rw [hpc]; rfl)
  have hwatcher := h.watcher_absent (by rw [hpc]; rfl)
  have haccepted := h.not_accepted (by rw [hpc]; rfl)
  refine {
    held := fun hheld => absurd hheld hnot
    spawning := h.spawning
    counted := fun _ => hinFlight
    early := fun hc => by cases hc
    registered := fun hc => by cases hc
    leaving := fun hc => by cases hc
    placed := fun _ => .inl hinFlight
    ended := fun hc => ?_
    watched := fun hc => absurd hwatcher hc
    accepted := fun hc => absurd hc haccepted }
  have hended : c.watcher.ended = true := hc
  rw [hwatcher] at hended
  cases hended

/-- The transport is added to the registry. -/
theorem Connection.Placed.register (hpc : c.admission = .registering) :
    ({ c with admission := .handing } : Connection).Placed held spawning inFlight True accepted := by
  have hnot := h.not_held (by simp [hpc])
  have hinFlight := h.counted (by rw [hpc]; rfl)
  have hwatcher := h.watcher_absent (by rw [hpc]; rfl)
  have haccepted := h.not_accepted (by rw [hpc]; rfl)
  refine {
    held := fun hheld => absurd hheld hnot
    spawning := h.spawning
    counted := fun _ => hinFlight
    early := fun hc => by cases hc
    registered := fun _ => ⟨trivial, hwatcher⟩
    leaving := fun hc => by cases hc
    placed := fun _ => .inl hinFlight
    ended := h.ended
    watched := fun hc => absurd hwatcher hc
    accepted := fun hc => absurd hc haccepted }

/-- The transport is sent to the application. -/
theorem Connection.Placed.send (hpc : c.admission = .handing) :
    ({ c with admission := .watching } : Connection).Placed held spawning inFlight active True := by
  have hnot := h.not_held (by simp [hpc])
  have hinFlight := h.counted (by rw [hpc]; rfl)
  obtain ⟨hactive, hwatcher⟩ := h.registered (by rw [hpc]; rfl)
  refine {
    held := fun hheld => absurd hheld hnot
    spawning := h.spawning
    counted := fun _ => hinFlight
    early := fun hc => by cases hc
    registered := fun _ => ⟨hactive, hwatcher⟩
    leaving := fun hc => by cases hc
    placed := fun _ => .inl hinFlight
    ended := h.ended
    watched := fun hc => absurd hwatcher hc
    accepted := fun _ => ⟨rfl, .inl hactive⟩ }

/-- The watcher is spawned. -/
theorem Connection.Placed.watch (hpc : c.admission = .watching) :
    ({ c with admission := .leaving, watcher := .waiting } : Connection).Placed held spawning inFlight
      active accepted := by
  have hnot := h.not_held (by simp [hpc])
  have hinFlight := h.counted (by rw [hpc]; rfl)
  obtain ⟨hactive, -⟩ := h.registered (by rw [hpc]; rfl)
  refine {
    held := fun hheld => absurd hheld hnot
    spawning := h.spawning
    counted := fun _ => hinFlight
    early := fun hc => by cases hc
    registered := fun hc => by cases hc
    leaving := fun _ => .inr (.inl hactive)
    placed := fun _ => .inl hinFlight
    ended := fun hc => by cases hc
    watched := fun _ => rfl
    accepted := fun _ => ⟨rfl, .inl hactive⟩ }

/-- The transport that could not be sent is removed from the registry. -/
theorem Connection.Placed.unregister {active' : Prop} (hpc : c.admission = .unregistering) :
    ({ c with admission := .closing .entered } : Connection).Placed held spawning inFlight active'
      accepted := by
  have hnot := h.not_held (by simp [hpc])
  have hinFlight := h.counted (by rw [hpc]; rfl)
  have hwatcher := h.watcher_absent (by rw [hpc]; rfl)
  have haccepted := h.not_accepted (by rw [hpc]; rfl)
  refine {
    held := fun hheld => absurd hheld hnot
    spawning := h.spawning
    counted := fun _ => hinFlight
    early := fun hc => by cases hc
    registered := fun hc => by cases hc
    leaving := fun hc => by cases hc
    placed := fun _ => .inl hinFlight
    ended := h.ended
    watched := fun hc => absurd hwatcher hc
    accepted := fun hc => absurd hc haccepted }

/-- The task of the connection ends: what it leaves is in the registry or closed. -/
theorem Connection.Placed.leave {inFlight' : Prop} {a : Admission} (hpc : c.admission = .leaving)
    (ha : a = .announcing ∨ a = .over) (hspawning : spawning → held) :
    ({ c with admission := a } : Connection).Placed held spawning inFlight' active accepted := by
  have hnot := h.not_held (by simp [hpc])
  have hplaced : c.link ≠ .absent → active ∨ c.link.closed = true := by
    intro hlink
    rcases h.leaving hpc with habsent | hplace
    · exact absurd habsent hlink
    · exact hplace
  have haccepted : accepted → active ∨ c.link = .terminal := fun hc => (h.accepted hc).2
  refine {
    held := fun hheld => absurd hheld hnot
    spawning := fun hc => absurd (hspawning hc) hnot
    counted := fun hc => ?_
    early := fun hc => ?_
    registered := fun hc => ?_
    leaving := fun hc => ?_
    placed := fun hlink => .inr (hplaced hlink)
    ended := h.ended
    watched := fun _ => ?_
    accepted := fun hc => ⟨?_, haccepted hc⟩ }
  all_goals rcases ha with rfl | rfl <;> first | rfl | cases hc

/-- The watcher removes the transport, which has ended. -/
theorem Connection.Placed.remove {active' : Prop} (hpc : c.watcher = .removing) :
    ({ c with watcher := .announcing } : Connection).Placed held spawning inFlight active' accepted := by
  have hlink := h.ended (by rw [hpc]; rfl)
  have hleft := h.watched (by simp [hpc])
  refine {
    held := h.held
    spawning := h.spawning
    counted := h.counted
    early := h.early
    registered := fun hc => ?_
    leaving := fun _ => ?_
    placed := fun _ => ?_
    ended := fun _ => hlink
    watched := fun _ => hleft
    accepted := fun hc => ⟨(h.accepted hc).1, .inr hlink⟩ }
  · have hwatcher := (h.registered hc).2
    rw [hpc] at hwatcher
    cases hwatcher
  · refine .inr (.inr ?_)
    show c.link.closed = true
    rw [hlink]
    rfl
  · refine .inr (.inr ?_)
    show c.link.closed = true
    rw [hlink]
    rfl

/-- The watcher has seen the end of the transport, or is over. -/
theorem Connection.Placed.watched_on {w : Watcher} (hpc : c.watcher ≠ .absent) (hlink : c.link = .terminal) :
    ({ c with watcher := w } : Connection).Placed held spawning inFlight active accepted := by
  refine {
    held := h.held
    spawning := h.spawning
    counted := h.counted
    early := h.early
    registered := fun hc => ?_
    leaving := h.leaving
    placed := h.placed
    ended := fun _ => hlink
    watched := fun _ => h.watched hpc
    accepted := h.accepted }
  exact absurd (h.registered hc).2 hpc

/-- The task of the connection is spawned. -/
theorem Connection.Placed.spawn {held' spawning' : Prop} (hspawning : spawning) (hheld : held)
    (hnot : ¬ held') (hnot' : ¬ spawning') :
    ({ c with admission := .accepting } : Connection).Placed held' spawning' inFlight active accepted := by
  have hpc := h.held hheld
  have hwatcher := h.watcher_absent (by rw [hpc]; rfl)
  have haccepted := h.not_accepted (by rw [hpc]; rfl)
  refine {
    held := fun hc => absurd hc hnot
    spawning := fun hc => absurd hc hnot'
    counted := fun _ => h.spawning hspawning
    early := fun _ => ?_
    registered := fun hc => by cases hc
    leaving := fun hc => by cases hc
    placed := h.placed
    ended := h.ended
    watched := fun hc => absurd hwatcher hc
    accepted := fun hc => absurd hc haccepted }
  exact h.early (by rw [hpc]; rfl)

/-- The loop goes on, and may have counted the connection. -/
theorem Connection.Placed.hold {held' spawning' inFlight' : Prop} (hheld : held' → held)
    (hspawning : spawning' → inFlight') (hinFlight : inFlight → inFlight') :
    c.Placed held' spawning' inFlight' active accepted := by
  refine {
    held := fun hc => h.held (hheld hc)
    spawning := hspawning
    counted := fun hc => hinFlight (h.counted hc)
    early := h.early
    registered := h.registered
    leaving := h.leaving
    placed := fun hc => ?_
    ended := h.ended
    watched := h.watched
    accepted := h.accepted }
  rcases h.placed hc with hplace | hplace
  · exact .inl (hinFlight hplace)
  · exact .inr hplace

/-- The application receives transports. -/
theorem Connection.Placed.receive {accepted' : Prop} (haccepted : accepted' → accepted) :
    c.Placed held spawning inFlight active accepted' :=
  {
    held := h.held
    spawning := h.spawning
    counted := h.counted
    early := h.early
    registered := h.registered
    leaving := h.leaving
    placed := h.placed
    ended := h.ended
    watched := h.watched
    accepted := fun hc => h.accepted (haccepted hc) }

/-- A client connects. -/
theorem Connection.Placed.connect {held' : Prop} (hpc : c.admission = .absent) :
    ({ c with admission := .connected } : Connection).Placed held' spawning inFlight active accepted := by
  have hwatcher := h.watcher_absent (by rw [hpc]; rfl)
  have haccepted := h.not_accepted (by rw [hpc]; rfl)
  refine {
    held := fun _ => rfl
    spawning := h.spawning
    counted := fun hc => by cases hc
    early := fun _ => h.early (by rw [hpc]; rfl)
    registered := fun hc => by cases hc
    leaving := fun hc => by cases hc
    placed := h.placed
    ended := h.ended
    watched := fun hc => absurd hwatcher hc
    accepted := fun hc => absurd hc haccepted }

end Stages

/-! ## The steps -/

section Steps

variable [DecidableEq κ]

/-- A step that only concerns the link, the task and the watcher of one connection. -/
theorem State.Admits.setConnection {s : State ι κ} (h : s.Admits) {k : κ} {c : Connection}
    (hk : c.Placed (k ∈ s.loop.held ++ s.backlog) (s.loop = .spawning k) (k ∈ s.inFlight) (k ∈ s.active)
      (k ∈ s.accepted)) :
    ({ s with connection := Function.update s.connection k c } : State ι κ).Admits := by
  refine h.update (k := k) rfl rfl rfl h.counted (fun j hj => ?_) ?_
  · exact ⟨Function.update_of_ne hj _ _, Iff.rfl, Iff.rfl, Iff.rfl⟩
  · show (Function.update s.connection k c k).Placed _ _ _ _ _
    rw [Function.update_self]
    exact hk

omit [DecidableEq κ] in
theorem State.Admits.notify {s : State ι κ} (h : s.Admits) (c : ι → Caller κ) :
    ({ s with caller := c } : State ι κ).Admits :=
  ⟨h.nodup, h.counted, h.placed, h.finished⟩

omit [DecidableEq κ] in
theorem Loop.held_of_spawning {l : Loop κ} {k : κ} (h : l = .spawning k) : k ∈ l.held := by
  rw [h]
  exact List.mem_singleton_self k

theorem State.Admits.admissionStep {s t : State ι κ} {k : κ} {a : AdmissionAction} (h : s.Admits)
    (ht : admissionStep s k a = some t) : t.Admits := by
  have hk := h.placed k
  cases a with
  | upgrade =>
    simp only [Server.admissionStep] at ht
    split at ht
    · next hpc =>
      cases ht
      simp only [State.setLink, State.setAdmission, Function.update_self, Function.update_idem]
      exact h.setConnection (hk.upgrade hpc)
    · cases ht
  | upgradeFails =>
    simp only [Server.admissionStep] at ht
    split at ht
    · next hpc =>
      cases ht
      refine h.setConnection (hk.goes ?_ ?_ ?_ ?_ ?_ ?_ ?_)
      · simp [hpc]
      · simp [hpc, Admission.counted]
      · simp [Admission.early]
      · simp [Admission.registered]
      · exact fun _ => .inl (hk.early (by rw [hpc]; rfl))
      · simp [hpc, Admission.left]
      · simp [hpc, Admission.handed]
    · cases ht
  | look =>
    simp only [Server.admissionStep] at ht
    split at ht
    · next hpc =>
      cases ht
      refine h.setConnection (hk.goes ?_ ?_ ?_ ?_ ?_ ?_ ?_)
      · simp [hpc]
      · simp [hpc, Admission.counted]
      · split <;> simp [Admission.early]
      · split <;> simp [Admission.registered]
      · split <;> simp
      · simp [hpc, Admission.left]
      · simp [hpc, Admission.handed]
    · cases ht
  | register =>
    simp only [Server.admissionStep] at ht
    split at ht
    · next hpc =>
      cases ht
      refine h.update (k := k) rfl rfl rfl h.counted (fun j hj => ?_) ?_
      · exact ⟨Function.update_of_ne hj _ _, Iff.rfl, by simp [State.setAdmission, hj], Iff.rfl⟩
      · simpa [State.PlacedAt, State.setAdmission] using hk.register hpc
    · cases ht
  | send =>
    simp only [Server.admissionStep] at ht
    split at ht
    · next hpc =>
      cases ht
      split
      · refine h.update (k := k) rfl rfl rfl h.counted (fun j hj => ?_) ?_
        · exact ⟨Function.update_of_ne hj _ _, Iff.rfl, Iff.rfl, by simp [State.setAdmission, hj]⟩
        · simpa [State.PlacedAt, State.setAdmission] using hk.send hpc
      · refine h.setConnection (hk.goes ?_ ?_ ?_ ?_ ?_ ?_ ?_)
        · simp [hpc]
        · simp [hpc, Admission.counted]
        · simp [Admission.early]
        · simp [hpc, Admission.registered]
        · simp
        · simp [hpc, Admission.left]
        · simp [hpc, Admission.handed]
    · cases ht
  | watch =>
    simp only [Server.admissionStep] at ht
    split at ht
    · next hpc =>
      cases ht
      simp only [State.setWatcher, State.setAdmission, Function.update_self, Function.update_idem]
      exact h.setConnection (hk.watch hpc)
    · cases ht
  | unregister =>
    simp only [Server.admissionStep] at ht
    split at ht
    · next hpc =>
      cases ht
      refine h.update (k := k) rfl rfl rfl h.counted (fun j hj => ?_) ?_
      · exact ⟨Function.update_of_ne hj _ _, Iff.rfl, List.mem_erase_of_ne hj, Iff.rfl⟩
      · show (Function.update s.connection k _ k).Placed _ _ _ _ _
        rw [Function.update_self]
        exact hk.unregister hpc
    · cases ht
  | close a =>
    simp only [Server.admissionStep] at ht
    split at ht
    · next call hpc =>
      obtain ⟨r, hr, rfl⟩ := Option.map_eq_some_iff.mp ht
      obtain ⟨hlater, hclosed⟩ := closeStep_later hr
      simp only [State.setLink, State.setAdmission, Function.update_self, Function.update_idem]
      refine h.setConnection ((hk.later hlater).goes ?_ ?_ ?_ ?_ ?_ ?_ ?_)
      · simp [hpc]
      · simp [hpc, Admission.counted]
      · cases r.2 <;> simp [Admission.early]
      · cases r.2 <;> simp [Admission.registered]
      · cases hrest : r.2 with
        | none => exact fun _ => .inr (.inr (hclosed hrest))
        | some call => exact fun hleaving => by cases hleaving
      · simp [hpc, Admission.left]
      · simp [hpc, Admission.handed]
    · cases ht
  | leave =>
    simp only [Server.admissionStep] at ht
    split at ht
    · next hpc =>
      cases ht
      have hmem : k ∈ s.inFlight := hk.counted (by rw [hpc]; rfl)
      refine h.update (k := k) rfl rfl rfl ?_ (fun j hj => ?_) ?_
      · show s.admissions - 1 = (s.inFlight.erase k).length
        rw [List.length_erase_of_mem hmem, h.counted]
      · exact ⟨Function.update_of_ne hj _ _, List.mem_erase_of_ne hj, Iff.rfl, Iff.rfl⟩
      · show (Function.update s.connection k _ k).Placed _ _ _ _ _
        rw [Function.update_self]
        refine hk.leave hpc ?_ fun hspawning => List.mem_append_left _ (Loop.held_of_spawning hspawning)
        split
        · exact .inl rfl
        · exact .inr rfl
    · cases ht
  | announce =>
    simp only [Server.admissionStep] at ht
    split at ht
    · next hpc =>
      cases ht
      refine State.Admits.notify (h.setConnection (hk.goes ?_ ?_ ?_ ?_ ?_ ?_ ?_)) _
      · simp [hpc]
      · simp [Admission.counted]
      · simp [Admission.early]
      · simp [Admission.registered]
      · simp
      · simp [Admission.left]
      · simp [Admission.handed]
    · cases ht

theorem State.Admits.watcherStep {s t : State ι κ} {k : κ} {a : WatcherAction} (h : s.Admits)
    (ht : watcherStep s k a = some t) : t.Admits := by
  have hk := h.placed k
  cases a with
  | closed =>
    simp only [Server.watcherStep] at ht
    split at ht
    · next hpc hlink =>
      cases ht
      exact h.setConnection (hk.watched_on (by simp [hpc]) hlink)
    · cases ht
  | remove =>
    simp only [Server.watcherStep] at ht
    split at ht
    · next hpc =>
      cases ht
      refine h.update (k := k) rfl rfl rfl h.counted (fun j hj => ?_) ?_
      · exact ⟨Function.update_of_ne hj _ _, Iff.rfl, List.mem_erase_of_ne hj, Iff.rfl⟩
      · show (Function.update s.connection k _ k).Placed _ _ _ _ _
        rw [Function.update_self]
        exact hk.remove hpc
    · cases ht
  | announce =>
    simp only [Server.watcherStep] at ht
    split at ht
    · next hpc =>
      cases ht
      have hlink := hk.ended (by rw [hpc]; rfl)
      exact State.Admits.notify (h.setConnection (hk.watched_on (by simp [hpc]) hlink)) _
    · cases ht

theorem State.Admits.envStep {s t : State ι κ} {a : EnvAction κ} (h : s.Admits)
    (ht : envStep s a = some t) : t.Admits := by
  cases a with
  | connect k =>
    simp only [Server.envStep] at ht
    split at ht
    · next hpc =>
      cases ht
      have hk := h.placed k
      have hnot : k ∉ s.loop.held ++ s.backlog := hk.not_held (by simp [hpc])
      refine ⟨?_, h.counted, fun j => ?_, h.finished⟩
      · show (s.loop.held ++ (s.backlog ++ [k])).Nodup
        rw [← List.append_assoc, List.nodup_append]
        refine ⟨h.nodup, List.nodup_singleton k, ?_⟩
        rintro j hj l hl rfl
        exact hnot (List.mem_singleton.mp hl ▸ hj)
      · unfold State.PlacedAt
        by_cases hj : j = k
        · subst hj
          show (Function.update s.connection j _ j).Placed _ _ _ _ _
          rw [Function.update_self]
          exact hk.connect hpc
        · show (Function.update s.connection k _ j).Placed _ _ _ _ _
          rw [Function.update_of_ne hj]
          refine (h.placed j).hold (fun hheld => ?_) (h.placed j).spawning id
          have hheld' : j ∈ s.loop.held ++ (s.backlog ++ [k]) := hheld
          simpa [hj] using hheld'
    · cases ht
  | receive =>
    simp only [Server.envStep] at ht
    split at ht
    · next k accepted haccepted =>
      cases ht
      refine ⟨h.nodup, h.counted, fun j => (h.placed j).receive fun hj => ?_, h.finished⟩
      rw [haccepted]
      exact List.mem_cons_of_mem k hj
    · cases ht
  | close k =>
    simp only [Server.envStep] at ht
    split at ht
    · next hlink =>
      cases ht
      exact h.setLink (hlink ▸ Link.Later.closes)
    · cases ht
  | answer k =>
    simp only [Server.envStep] at ht
    split at ht
    · next hlink =>
      cases ht
      exact h.setLink (hlink ▸ Link.Later.answers)
    · cases ht
  | finish k =>
    simp only [Server.envStep] at ht
    split at ht
    · next hlink =>
      cases ht
      exact h.setLink (.ends _ (by simp [hlink]))
    · next hlink =>
      cases ht
      exact h.setLink (.ends _ (by simp [hlink]))
    · next hlink =>
      cases ht
      exact h.setLink (.ends _ (by simp [hlink]))
    · cases ht

omit [DecidableEq κ] in
/-- The loop goes on, and lets go of some connections. -/
theorem State.Admits.loop {s : State ι κ} (h : s.Admits) {l : Loop κ} {backlog : List κ}
    (hsub : (l.held ++ backlog).Sublist (s.loop.held ++ s.backlog))
    (hspawning : ∀ k, l ≠ .spawning k) (hfinished : s.listenerFinished = false) :
    ({ s with loop := l, backlog := backlog } : State ι κ).Admits := by
  refine ⟨h.nodup.sublist hsub, h.counted, fun j => ?_, fun hf => ?_⟩
  · exact (h.placed j).hold (fun hj => hsub.subset hj) (fun hj => absurd hj (hspawning j)) id
  · have hf' : s.listenerFinished = true := hf
    rw [hfinished] at hf'
    cases hf'

theorem State.Admits.loopStep {s t : State ι κ} {a : LoopAction} (h : s.Admits)
    (ht : loopStep s a = some t) : t.Admits := by
  have hopen : s.loop ≠ .announcing → s.loop ≠ .over → s.listenerFinished = false := by
    intro hannouncing hover
    rw [Bool.eq_false_iff]
    intro hfinished
    rcases h.finished hfinished with hloop | hloop
    · exact hannouncing hloop
    · exact hover hloop
  cases a with
  | create | stopped | acceptFails =>
    simp only [Server.loopStep] at ht
    split at ht
    · next hloop =>
      cases ht
      refine h.loop ?_ (by simp) (hopen (by simp [hloop]) (by simp [hloop]))
      rw [hloop]
      exact List.Sublist.refl _
    · cases ht
  | accept =>
    simp only [Server.loopStep] at ht
    split at ht
    · next k backlog hloop hbacklog =>
      cases ht
      refine h.loop ?_ (by simp) (hopen (by simp [hloop]) (by simp [hloop]))
      rw [hloop, hbacklog]
      exact List.Sublist.refl _
    · cases ht
  | look =>
    simp only [Server.loopStep] at ht
    split at ht
    · next k hloop =>
      cases ht
      refine h.loop ?_ ?_ (hopen (by simp [hloop]) (by simp [hloop])) <;> split
      · rw [hloop]
        exact List.sublist_append_right _ _
      · rw [hloop]
        exact List.Sublist.refl _
      · simp
      · simp
    · cases ht
  | count =>
    simp only [Server.loopStep] at ht
    split at ht
    · next k hloop =>
      cases ht
      refine ⟨?_, ?_, fun j => ?_, fun hf => ?_⟩
      · have hnodup := h.nodup
        rw [hloop] at hnodup
        exact hnodup
      · show s.admissions + 1 = (k :: s.inFlight).length
        rw [h.counted, List.length_cons]
      · refine (h.placed j).hold (fun hj => ?_) (fun hj => ?_) fun hj => List.mem_cons_of_mem k hj
        · rw [hloop]
          exact hj
        · obtain rfl := Loop.spawning.inj hj
          exact List.mem_cons_self
      · have hf' : s.listenerFinished = true := hf
        rw [hopen (by simp [hloop]) (by simp [hloop])] at hf'
        cases hf'
    · cases ht
  | spawn =>
    simp only [Server.loopStep] at ht
    split at ht
    · next k hloop =>
      cases ht
      have hnodup := h.nodup
      rw [hloop] at hnodup
      have hnot : k ∉ s.backlog := (List.nodup_cons.mp hnodup).1
      refine ⟨(List.nodup_cons.mp hnodup).2, h.counted, fun j => ?_, fun hf => ?_⟩
      · unfold State.PlacedAt
        by_cases hj : j = k
        · subst hj
          show (Function.update s.connection j _ j).Placed _ _ _ _ _
          rw [Function.update_self]
          refine (h.placed j).spawn hloop ?_ hnot fun hspawning => by cases hspawning
          exact List.mem_append_left _ (Loop.held_of_spawning hloop)
        · show (Function.update s.connection k _ j).Placed _ _ _ _ _
          rw [Function.update_of_ne hj]
          refine (h.placed j).hold (fun hheld => ?_) (fun hspawning => by cases hspawning) id
          exact List.mem_append_right _ hheld
      · have hf' : s.listenerFinished = true := hf
        rw [hopen (by simp [hloop]) (by simp [hloop])] at hf'
        cases hf'
    · cases ht
  | finish =>
    simp only [Server.loopStep] at ht
    split at ht
    · next hloop =>
      cases ht
      refine ⟨?_, h.counted, fun j => ?_, fun _ => .inl rfl⟩
      · have hnodup := h.nodup
        rw [hloop] at hnodup
        exact hnodup
      · refine (h.placed j).hold (fun hj => ?_) (fun hspawning => by cases hspawning) id
        rw [hloop]
        exact hj
    · cases ht
  | announce =>
    simp only [Server.loopStep] at ht
    split at ht
    · next hloop =>
      cases ht
      refine ⟨?_, h.counted, fun j => ?_, fun _ => .inr rfl⟩
      · have hnodup := h.nodup
        rw [hloop] at hnodup
        exact hnodup
      · refine (h.placed j).hold (fun hj => ?_) (fun hspawning => by cases hspawning) id
        rw [hloop]
        exact hj
    · cases ht

end Steps

end Rtvbp.Rust.Server
