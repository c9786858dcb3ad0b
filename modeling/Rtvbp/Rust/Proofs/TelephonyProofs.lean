import Rtvbp.Rust.Telephony

/-!
# Proofs: the telephony order

The messages keep the telephony order as long as no task hands its event over while the one of an earlier
`dtmf` callback has not. The runtime does not promise that, and a task that overtakes can always lead to a
disorder.
-/

namespace Rtvbp.Rust.Telephony

open Rtvbp.Lib

variable {s t : State} {a : Action}

/-! ## The steps -/

/-- The callback has the event: its task holds it, or it has been handed over. -/
def State.Has (s : State) (callback : Nat) (event : DtmfEvent) : Prop :=
  s.task callback = .dtmf event ∨ .dtmf callback event ∈ s.sent

/-- The message is one that a task hands over when it goes on. -/
def Message.Of (callback : Nat) (task : Task) : Message → Prop
  | .dtmf i event => i = callback ∧ task = .dtmf event
  | .hangup i event => i = callback ∧ task = .hangup event
  | .terminate i => i = callback ∧ task = .terminating

/-- The task goes on from one state to the next. -/
inductive Task.Moves : Task → Task → Prop where
  | dtmf {event : DtmfEvent} : Moves (.dtmf event) .done
  | hangup {event : CallHangupEvent} : Moves (.hangup event) .terminating
  | terminating : Moves .terminating .done

/-- A task goes on. -/
structure Proceeds (s t : State) (callback : Nat) (task : Task) (messages : List Message) : Prop where
  eq : t = s.proceed callback task messages
  moves : (s.task callback).Moves task
  messages : ∀ message ∈ messages, message.Of callback (s.task callback)

/-- What a step does: a callback is invoked, or a task goes on. -/
theorem step_cases (ht : step s a = some t) :
    (∃ event runtime, a = .dtmf event runtime ∧
      t = { s.callback (.dtmf { event with seq := Int64.ofNat s.sequence }) runtime with
        sequence := s.sequence + 1 }) ∨
    (∃ event runtime, a = .hangup event runtime ∧ t = s.callback (.hangup event) runtime) ∨
    ∃ callback task messages, Proceeds s t callback task messages := by
  cases a with
  | dtmf event runtime =>
    cases ht
    exact .inl ⟨event, runtime, rfl, rfl⟩
  | hangup event runtime =>
    cases ht
    exact .inr (.inl ⟨event, runtime, rfl, rfl⟩)
  | hand callback =>
    refine .inr (.inr ?_)
    simp only [step] at ht
    split at ht
    · next event htask =>
      split at ht <;> cases ht
      exact ⟨callback, _, _, rfl, htask ▸ Task.Moves.dtmf, by simp [Message.Of, htask]⟩
    · next event htask =>
      cases ht
      exact ⟨callback, _, _, rfl, htask ▸ Task.Moves.hangup, by simp [Message.Of, htask]⟩
    · cases ht
  | terminate callback =>
    refine .inr (.inr ?_)
    simp only [step] at ht
    split at ht
    · next htask =>
      cases ht
      exact ⟨callback, _, _, rfl, htask ▸ Task.Moves.terminating, by simp [Message.Of, htask]⟩
    · cases ht
  | giveUp callback =>
    refine .inr (.inr ?_)
    simp only [step] at ht
    split at ht
    · next event htask =>
      cases ht
      exact ⟨callback, _, [], rfl, htask ▸ Task.Moves.dtmf, fun _ hmem => (by cases hmem)⟩
    · next event htask =>
      cases ht
      exact ⟨callback, _, [], rfl, htask ▸ Task.Moves.hangup, fun _ hmem => (by cases hmem)⟩
    · next htask =>
      cases ht
      exact ⟨callback, _, [], rfl, htask ▸ Task.Moves.terminating, fun _ hmem => (by cases hmem)⟩
    · cases ht

section Proceeds

variable {callback i : Nat} {task : Task} {messages : List Message}

theorem Proceeds.task_self (h : Proceeds s t callback task messages) : t.task callback = task := by
  rw [h.eq]
  exact Function.update_self _ _ _

theorem Proceeds.task_of_ne (h : Proceeds s t callback task messages) (hi : i ≠ callback) :
    t.task i = s.task i := by
  rw [h.eq]
  exact Function.update_of_ne hi _ _

theorem Proceeds.sent (h : Proceeds s t callback task messages) : t.sent = s.sent ++ messages := by
  rw [h.eq]
  rfl

/-- A task that goes on holds no event. -/
theorem Proceeds.not_dtmf (h : Proceeds s t callback task messages) (event : DtmfEvent) : task ≠ .dtmf event := by
  intro htask
  have hmoves := h.moves
  rw [htask] at hmoves
  generalize s.task callback = old at hmoves
  cases hmoves

/-- No event is made when a task goes on. -/
theorem Proceeds.has (h : Proceeds s t callback task messages) {event : DtmfEvent} (hevent : t.Has i event) :
    s.Has i event := by
  rcases hevent with htask | hsent
  · by_cases hi : i = callback
    · subst hi
      rw [h.task_self] at htask
      exact absurd htask (h.not_dtmf event)
    · rw [h.task_of_ne hi] at htask
      exact .inl htask
  · rw [h.sent] at hsent
    rcases List.mem_append.mp hsent with hold | hnew
    · exact .inr hold
    · obtain ⟨rfl, htask⟩ := h.messages _ hnew
      exact .inl htask

/-- No event becomes pending when a task goes on. -/
theorem Proceeds.pending (h : Proceeds s t callback task messages) (hi : s.pending i = false) :
    t.pending i = false := by
  by_cases hcallback : i = callback
  · subst hcallback
    rw [State.pending, h.task_self]
    cases task with
    | dtmf event => exact absurd rfl (h.not_dtmf event)
    | _ => rfl
  · rw [State.pending, h.task_of_ne hcallback]
    exact hi

end Proceeds

/-! ## The numbers of the events -/

/-- The invariant of the runs in which the counter stays in its range: a message has left its task, and the events
are numbered in the order of their callbacks. -/
structure State.Inv (s : State) : Prop where
  fresh : ∀ i, s.callbacks ≤ i → s.task i = .absent
  sent_dtmf : ∀ i event, .dtmf i event ∈ s.sent → s.task i = .done
  sent_hangup : ∀ i event, .hangup i event ∈ s.sent → s.task i = .terminating ∨ s.task i = .done
  sent_terminate : ∀ i, .terminate i ∈ s.sent → s.task i = .done
  numbered : ∀ i event, s.Has i event → event.seq.toInt < s.sequence
  increasing : ∀ i j event event', i < j → s.Has i event → s.Has j event' → event.seq < event'.seq

theorem inv_registered : registered.Inv where
  fresh _ _ := rfl
  sent_dtmf _ _ h := by cases h
  sent_hangup _ _ h := by cases h
  sent_terminate _ h := by cases h
  numbered i event h := by rcases h with h | h <;> cases h
  increasing i j event event' _ h := by rcases h with h | h <;> cases h

/-- A callback that has a task, or a message, has been invoked. -/
theorem State.Inv.lt_callbacks (h : s.Inv) {i : Nat} (hi : s.task i ≠ .absent) : i < s.callbacks := by
  by_contra hle
  exact hi (h.fresh i (Nat.le_of_not_lt hle))

theorem State.Inv.lt_of_has (h : s.Inv) {i : Nat} {event : DtmfEvent} (hi : s.Has i event) : i < s.callbacks := by
  refine h.lt_callbacks fun habsent => ?_
  rcases hi with htask | hsent
  · rw [habsent] at htask
    cases htask
  · have hdone := h.sent_dtmf i event hsent
    rw [habsent] at hdone
    cases hdone

/-- What the invocation of a callback changes: the new task is the last one. -/
structure Invoked (s t : State) (task : Task) : Prop where
  callbacks : t.callbacks = s.callbacks + 1
  sent : t.sent = s.sent
  task_self : t.task s.callbacks = task
  task_of_ne : ∀ i, i ≠ s.callbacks → t.task i = s.task i

theorem invoked_callback (s : State) (task : Task) (runtime : Bool) :
    Invoked s (s.callback task runtime) (if runtime then task else .unspawned) where
  callbacks := rfl
  sent := rfl
  task_self := Function.update_self _ _ _
  task_of_ne _ hi := Function.update_of_ne hi _ _

/-- What the invocation of a callback keeps. -/
theorem State.Inv.invoked (h : s.Inv) {task : Task} (ht : Invoked s t task) (hsequence : s.sequence ≤ t.sequence)
    (hevent : ∀ event, task = .dtmf event →
      event.seq.toInt < t.sequence ∧ ∀ i event', s.Has i event' → event'.seq < event.seq) : t.Inv := by
  have hne : ∀ i, s.task i ≠ .absent → i ≠ s.callbacks := fun i hi => (h.lt_callbacks hi).ne
  have hhas : ∀ i event, t.Has i event → s.Has i event ∨ i = s.callbacks ∧ task = .dtmf event := by
    rintro i event (htask | hsent)
    · by_cases hi : i = s.callbacks
      · rw [hi, ht.task_self] at htask
        exact .inr ⟨hi, htask⟩
      · rw [ht.task_of_ne i hi] at htask
        exact .inl (.inl htask)
    · rw [ht.sent] at hsent
      exact .inl (.inr hsent)
  constructor
  · intro i hi
    rw [ht.callbacks] at hi
    rw [ht.task_of_ne i (by omega)]
    exact h.fresh i (by omega)
  · intro i event hsent
    rw [ht.sent] at hsent
    have hdone := h.sent_dtmf i event hsent
    rw [ht.task_of_ne i (hne i (by simp [hdone]))]
    exact hdone
  · intro i event hsent
    rw [ht.sent] at hsent
    have hdone := h.sent_hangup i event hsent
    rw [ht.task_of_ne i (hne i (by rcases hdone with hdone | hdone <;> simp [hdone]))]
    exact hdone
  · intro i hsent
    rw [ht.sent] at hsent
    have hdone := h.sent_terminate i hsent
    rw [ht.task_of_ne i (hne i (by simp [hdone]))]
    exact hdone
  · intro i event hi
    rcases hhas i event hi with hold | ⟨-, hnew⟩
    · exact lt_of_lt_of_le (h.numbered i event hold) (by exact_mod_cast hsequence)
    · exact (hevent event hnew).1
  · intro i j event event' hij hi hj
    rcases hhas j event' hj with hold' | ⟨hj', hnew'⟩
    · rcases hhas i event hi with hold | ⟨hi', -⟩
      · exact h.increasing i j event event' hij hold hold'
      · have hlast := h.lt_of_has hold'
        omega
    · rcases hhas i event hi with hold | ⟨hi', -⟩
      · exact (hevent event' hnew').2 i event hold
      · omega

/-- What a task that goes on keeps. -/
theorem State.Inv.proceeds (h : s.Inv) {callback : Nat} {task : Task} {messages : List Message}
    (ht : Proceeds s t callback task messages) : t.Inv := by
  have hmoves := ht.moves
  have hsequence : t.sequence = s.sequence := by
    rw [ht.eq]
    rfl
  have hcallbacks : t.callbacks = s.callbacks := by
    rw [ht.eq]
    rfl
  constructor
  · intro i hi
    rw [hcallbacks] at hi
    have habsent := h.fresh i hi
    rw [ht.task_of_ne]
    · exact habsent
    · rintro rfl
      rw [habsent] at hmoves
      cases hmoves
  · intro i event hsent
    rw [ht.sent] at hsent
    rcases List.mem_append.mp hsent with hold | hnew
    · have hdone := h.sent_dtmf i event hold
      rw [ht.task_of_ne]
      · exact hdone
      · rintro rfl
        rw [hdone] at hmoves
        cases hmoves
    · obtain ⟨rfl, hdtmf⟩ := ht.messages _ hnew
      rw [ht.task_self]
      rw [hdtmf] at hmoves
      cases hmoves
      rfl
  · intro i event hsent
    rw [ht.sent] at hsent
    rcases List.mem_append.mp hsent with hold | hnew
    · have hdone := h.sent_hangup i event hold
      by_cases hi : i = callback
      · subst hi
        rw [ht.task_self]
        rcases hdone with hdone | hdone <;> rw [hdone] at hmoves <;> cases hmoves
        exact .inr rfl
      · rw [ht.task_of_ne hi]
        exact hdone
    · obtain ⟨rfl, hhangup⟩ := ht.messages _ hnew
      rw [ht.task_self]
      rw [hhangup] at hmoves
      cases hmoves
      exact .inl rfl
  · intro i hsent
    rw [ht.sent] at hsent
    rcases List.mem_append.mp hsent with hold | hnew
    · have hdone := h.sent_terminate i hold
      rw [ht.task_of_ne]
      · exact hdone
      · rintro rfl
        rw [hdone] at hmoves
        cases hmoves
    · obtain ⟨rfl, hterminating⟩ := ht.messages _ hnew
      rw [ht.task_self]
      rw [hterminating] at hmoves
      cases hmoves
      rfl
  · intro i event hi
    rw [hsequence]
    exact h.numbered i event (ht.has hi)
  · intro i j event event' hij hi hj
    exact h.increasing i j event event' hij (ht.has hi) (ht.has hj)

/-- The step lemma. -/
theorem State.Inv.step (h : s.Inv) (hrange : InRange s a) (ht : step s a = some t) : t.Inv := by
  rcases step_cases ht with ⟨event, runtime, rfl, rfl⟩ | ⟨event, runtime, rfl, rfl⟩ | ⟨i, task, messages, hproceeds⟩
  · have hseq : (Int64.ofNat s.sequence).toInt = s.sequence := Int64.toInt_ofNat_of_lt hrange
    have hinvoked := invoked_callback s (.dtmf { event with seq := Int64.ofNat s.sequence }) runtime
    refine h.invoked (t := { s.callback _ runtime with sequence := s.sequence + 1 }) ⟨hinvoked.callbacks,
      hinvoked.sent, hinvoked.task_self, hinvoked.task_of_ne⟩ (Nat.le_succ _) fun event' hevent => ?_
    cases runtime with
    | false => cases hevent
    | true =>
      cases hevent
      constructor
      · show (Int64.ofNat s.sequence).toInt < ((s.sequence + 1 : Nat) : Int)
        rw [hseq]
        omega
      · intro i earlier hearlier
        rw [Int64.lt_iff_toInt_lt, hseq]
        exact h.numbered i earlier hearlier
  · refine h.invoked (invoked_callback s (.hangup event) runtime) le_rfl fun event' hevent => ?_
    cases runtime <;> cases hevent
  · exact h.proceeds hproceeds

/-! ## The order -/

/-- What is handed over has overtaken no event, and is in order. -/
structure State.Settled (s : State) : Prop where
  dtmf : ∀ i event, .dtmf i event ∈ s.sent → ∀ j < i, s.pending j = false
  hangup : ∀ i event, .hangup i event ∈ s.sent → ∀ j < i, s.pending j = false
  sorted : s.sent.Pairwise Message.MayPrecede

theorem settled_registered : registered.Settled where
  dtmf _ _ h := by cases h
  hangup _ _ h := by cases h
  sorted := List.Pairwise.nil

theorem State.Settled.ordered (h : s.Settled) : s.Ordered := ⟨h.sorted, h.hangup⟩

/-- The invocation of a callback keeps the order. -/
theorem State.Settled.invoked (h : s.Settled) (hinv : s.Inv) {task : Task} (ht : Invoked s t task) : t.Settled := by
  have hpending : ∀ i j, s.task i ≠ .absent → j < i → s.pending j = false → t.pending j = false := by
    intro i j hi hji hj
    have hlast := hinv.lt_callbacks hi
    rw [State.pending, ht.task_of_ne j (by omega)]
    exact hj
  constructor
  · intro i event hsent j hji
    rw [ht.sent] at hsent
    have hdone := hinv.sent_dtmf i event hsent
    exact hpending i j (by simp [hdone]) hji (h.dtmf i event hsent j hji)
  · intro i event hsent j hji
    rw [ht.sent] at hsent
    have hdone := hinv.sent_hangup i event hsent
    exact hpending i j (by rcases hdone with hdone | hdone <;> simp [hdone]) hji (h.hangup i event hsent j hji)
  · rw [ht.sent]
    exact h.sorted

/-- A task keeps the order if what it hands over comes after what has been, and overtakes nothing. -/
theorem State.Settled.proceeds (h : s.Settled) {callback : Nat} {task : Task} {messages : List Message}
    (ht : Proceeds s t callback task messages) (hlater : messages.Pairwise Message.MayPrecede)
    (hafter : ∀ old ∈ s.sent, ∀ message ∈ messages, old.MayPrecede message)
    (hclear : (∃ message ∈ messages, ∀ i, message ≠ .terminate i) → ∀ j < callback, s.pending j = false) :
    t.Settled := by
  constructor
  · intro i event hsent j hji
    rw [ht.sent] at hsent
    refine ht.pending ?_
    rcases List.mem_append.mp hsent with hold | hnew
    · exact h.dtmf i event hold j hji
    · obtain ⟨rfl, -⟩ := ht.messages _ hnew
      exact hclear ⟨_, hnew, fun _ heq => (by cases heq)⟩ j hji
  · intro i event hsent j hji
    rw [ht.sent] at hsent
    refine ht.pending ?_
    rcases List.mem_append.mp hsent with hold | hnew
    · exact h.hangup i event hold j hji
    · obtain ⟨rfl, -⟩ := ht.messages _ hnew
      exact hclear ⟨_, hnew, fun _ heq => (by cases heq)⟩ j hji
  · rw [ht.sent, List.pairwise_append]
    exact ⟨h.sorted, hlater, hafter⟩

/-- A `dtmf` event that overtakes none comes after what has been handed over. -/
theorem mayPrecede_dtmf (hinv : s.Inv) (h : s.Settled) {i : Nat} {event : DtmfEvent}
    (htask : s.task i = .dtmf event) (hvalid : event.valid = true) {old : Message} (hold : old ∈ s.sent) :
    old.MayPrecede (.dtmf i event) := by
  have hpending : s.pending i = true := by
    rw [State.pending, htask]
    exact hvalid
  cases old with
  | dtmf k event' =>
    have hdone := hinv.sent_dtmf k event' hold
    have hle : k ≤ i := by
      by_contra hlt
      have hsettled := h.dtmf k event' hold i (Nat.lt_of_not_le hlt)
      rw [hpending] at hsettled
      cases hsettled
    have hne : k ≠ i := by
      rintro rfl
      rw [htask] at hdone
      cases hdone
    exact hinv.increasing k i event' event (lt_of_le_of_ne hle hne) (.inr hold) (.inl htask)
  | hangup k event' =>
    show k ≤ i
    by_contra hlt
    have hsettled := h.hangup k event' hold i (Nat.lt_of_not_le hlt)
    rw [hpending] at hsettled
    cases hsettled
  | terminate k => trivial

/-- A hangup comes after what has been handed over. -/
theorem mayPrecede_hangup (hinv : s.Inv) {i : Nat} {event : CallHangupEvent} (htask : s.task i = .hangup event)
    {old : Message} (hold : old ∈ s.sent) : old.MayPrecede (.hangup i event) := by
  cases old with
  | terminate k =>
    show k ≠ i
    rintro rfl
    have hdone := hinv.sent_terminate k hold
    rw [htask] at hdone
    cases hdone
  | _ => trivial

/-- The step lemma: a step that does not overtake keeps the order. -/
theorem State.Settled.step (h : s.Settled) (hinv : s.Inv) (hnot : NotOvertaking s a) (ht : step s a = some t) :
    t.Settled := by
  cases a with
  | dtmf event runtime =>
    cases ht
    have hinvoked := invoked_callback s (.dtmf { event with seq := Int64.ofNat s.sequence }) runtime
    exact h.invoked hinv ⟨hinvoked.callbacks, hinvoked.sent, hinvoked.task_self, hinvoked.task_of_ne⟩
  | hangup event runtime =>
    cases ht
    exact h.invoked hinv (invoked_callback s (.hangup event) runtime)
  | hand callback =>
    simp only [Telephony.step] at ht
    split at ht
    · next event htask =>
      split at ht <;> cases ht
      next hvalid =>
      refine h.proceeds ⟨rfl, htask ▸ Task.Moves.dtmf, by simp [Message.Of, htask]⟩ (List.pairwise_singleton _ _) ?_
        fun _ => hnot
      intro old hold message hmessage
      rw [List.mem_singleton] at hmessage
      rw [hmessage]
      exact mayPrecede_dtmf hinv h htask hvalid hold
    · next event htask =>
      cases ht
      refine h.proceeds ⟨rfl, htask ▸ Task.Moves.hangup, by simp [Message.Of, htask]⟩ (List.pairwise_singleton _ _) ?_
        fun _ => hnot
      intro old hold message hmessage
      rw [List.mem_singleton] at hmessage
      rw [hmessage]
      exact mayPrecede_hangup hinv htask hold
    · cases ht
  | terminate callback =>
    simp only [Telephony.step] at ht
    split at ht
    · next htask =>
      cases ht
      refine h.proceeds ⟨rfl, htask ▸ Task.Moves.terminating, by simp [Message.Of, htask]⟩
        (List.pairwise_singleton _ _) ?_ ?_
      · intro old hold message hmessage
        rw [List.mem_singleton] at hmessage
        rw [hmessage]
        cases old <;> trivial
      · rintro ⟨message, hmem, hother⟩
        exact absurd (List.mem_singleton.mp hmem) (hother callback)
    · cases ht
  | giveUp callback =>
    have hnothing : ∀ task, (s.task callback).Moves task → (s.proceed callback task []).Settled := by
      intro task hmoves
      refine h.proceeds ⟨rfl, hmoves, fun _ hmem => (by cases hmem)⟩ List.Pairwise.nil
        (fun _ _ _ hmem => (by cases hmem)) ?_
      rintro ⟨_, hmem, -⟩
      cases hmem
    simp only [Telephony.step] at ht
    split at ht
    · next event htask =>
      cases ht
      exact hnothing _ (htask ▸ Task.Moves.dtmf)
    · next event htask =>
      cases ht
      exact hnothing _ (htask ▸ Task.Moves.hangup)
    · next htask =>
      cases ht
      exact hnothing _ (htask ▸ Task.Moves.terminating)
    · cases ht

/-! ## The result -/

/-- An event that is pending when a later one, or a later hangup, is handed over can follow it. -/
theorem exists_disorder (hinv : s.Inv) {i : Nat} (ht : step s (.hand i) = some t)
    (hnot : ¬ NotOvertaking s (.hand i)) : ∃ u, machine.Steps (fun _ _ => True) t u ∧ ¬ u.Ordered := by
  obtain ⟨j, hji, hpending⟩ : ∃ j < i, s.pending j = true := by
    simpa [NotOvertaking] using hnot
  obtain ⟨earlier, hearlier, hvalid⟩ : ∃ event, s.task j = .dtmf event ∧ event.valid = true := by
    simp only [State.pending] at hpending
    split at hpending
    · next event htask => exact ⟨event, htask, hpending⟩
    · cases hpending
  simp only [step] at ht
  split at ht
  · next event htask =>
    split at ht <;> cases ht
    have hstep : machine.step (s.proceed i .done [.dtmf i event]) (.hand j) =
        some ((s.proceed i .done [.dtmf i event]).proceed j .done [.dtmf j earlier]) := by
      have htask' : (s.proceed i .done [.dtmf i event]).task j = .dtmf earlier :=
        (Function.update_of_ne hji.ne _ _).trans hearlier
      show step (s.proceed i .done [.dtmf i event]) (.hand j) = _
      simp only [step, htask', hvalid, if_true]
    refine ⟨_, .single ⟨.hand j, trivial, hstep⟩, fun hordered => ?_⟩
    have hsorted := hordered.sorted
    have hsent : ((s.proceed i .done [.dtmf i event]).proceed j .done [.dtmf j earlier]).sent =
        s.sent ++ [.dtmf i event, .dtmf j earlier] := by simp [State.proceed]
    rw [hsent, List.pairwise_append] at hsorted
    have hseq : event.seq < earlier.seq := List.rel_of_pairwise_cons hsorted.2.1 List.mem_cons_self
    exact absurd hseq (Int64.lt_asymm (hinv.increasing j i earlier event hji (.inl hearlier) (.inl htask)))
  · next event htask =>
    cases ht
    refine ⟨_, .refl, fun hordered => ?_⟩
    have hclear := hordered.complete i event (List.mem_append_right _ List.mem_cons_self) j hji
    have hstill : (s.proceed i .terminating [.hangup i event]).pending j = s.pending j := by
      rw [State.pending, State.pending]
      have htask' : (s.proceed i .terminating [.hangup i event]).task j = s.task j :=
        Function.update_of_ne hji.ne _ _
      rw [htask']
    rw [hstill, hpending] at hclear
    cases hclear
  · cases ht

/-- The condition on the steps of a run. -/
def InOrder (s : State) (a : Action) : Prop := InRange s a ∧ NotOvertaking s a

instance (s : State) : DecidablePred (InOrder s) := fun a => inferInstanceAs (Decidable (InRange s a ∧ NotOvertaking s a))

/-- As long as no task overtakes the one of an earlier `dtmf` callback, the telephony order is kept; and whenever
one does, a disorder can follow. -/
theorem ordered_if_not_overtaken (s : State) :
    (machine.ReachableWhere InOrder s → s.Ordered) ∧
      ∀ t i, machine.ReachableWhere InRange s → machine.step s (.hand i) = some t →
        ¬ NotOvertaking s (.hand i) → ∃ u, machine.Steps (fun _ _ => True) t u ∧ ¬ u.Ordered := by
  constructor
  · intro hs
    have hinv : s.Inv ∧ s.Settled := by
      refine hs.invariant (I := fun s => s.Inv ∧ s.Settled) (fun s₀ h₀ => ?_) fun _ _ _ h hG ht => ?_
      · obtain rfl : s₀ = registered := h₀
        exact ⟨inv_registered, settled_registered⟩
      · exact ⟨h.1.step hG.1 ht, h.2.step h.1 hG.2 ht⟩
    exact hinv.2.ordered
  · intro t i hs ht hnot
    have hinv : s.Inv := by
      refine hs.invariant (I := State.Inv) (fun s₀ h₀ => ?_) fun _ _ _ h hG ht => h.step hG ht
      obtain rfl : s₀ = registered := h₀
      exact inv_registered
    exact exists_disorder hinv ht hnot

/-- Two keys and a hangup, whose tasks run in their order. -/
def fifoRun : List Action :=
  [.dtmf ⟨0, 1000, 1100, "1"⟩ true, .dtmf ⟨0, 1200, 1300, "2"⟩ true, .hand 0, .hand 1, .hangup ⟨none⟩ true,
    .hand 2, .terminate 2]

/-- Two keys, the tasks of which run in the other order. -/
def overtakenRun : List Action :=
  [.dtmf ⟨0, 1000, 1100, "1"⟩ true, .dtmf ⟨0, 1200, 1300, "2"⟩ true, .hand 1, .hand 0]

theorem fifoRun_and_overtakenRun :
    (∃ s, machine.exec registered fifoRun = some s ∧ s.Ordered) ∧
      ∃ t u, machine.exec registered (overtakenRun.take 3) = some t ∧
        machine.Steps (fun _ _ => True) t u ∧ ¬ u.Ordered := by
  constructor
  · have hexec : machine.exec registered fifoRun = some _ := rfl
    exact ⟨_, hexec, (ordered_if_not_overtaken _).1 (.of_exec rfl (by decide) hexec)⟩
  · have hspawned : machine.exec registered (overtakenRun.take 2) = some _ := rfl
    have hhand : machine.step ((machine.exec registered (overtakenRun.take 2)).get rfl) (.hand 1) = some _ := rfl
    obtain ⟨u, htu, hu⟩ :=
      (ordered_if_not_overtaken _).2 _ 1 (.of_exec rfl (by decide) hspawned) hhand (by decide)
    exact ⟨_, u, rfl, htu, hu⟩

/-- The second key reaches the control channel before the first one. -/
theorem overtakenRun_disordered :
    ∃ s, machine.exec registered overtakenRun = some s ∧
      s.sent = [.dtmf 1 ⟨1, 1200, 1300, "2"⟩, .dtmf 0 ⟨0, 1000, 1100, "1"⟩] ∧ ¬ s.Ordered := by
  refine ⟨_, rfl, rfl, fun hordered => ?_⟩
  have hseq : (1 : Int64) < 0 := List.rel_of_pairwise_cons hordered.sorted List.mem_cons_self
  exact absurd hseq (by decide)

end Rtvbp.Rust.Telephony
