import Rtvbp.TypeScript.BrowserPlayback
import Mathlib.Tactic

/-!
# Proofs: when the playback credit is right

A `clear` on its way splits the samples for the worklet: those before it will be discarded, and only
those after the last one are live. The main thread counts exactly the live samples and the `consumed`
messages of its own generation, as long as no older `consumed` message is taken off a positive count.
-/

namespace Rtvbp.TypeScript.BrowserPlayback

open Rtvbp.Lib

/-! ## The sizes -/

theorem capacity_le (d : Device) : d.capacity ≤ 7680000 := by
  obtain ⟨-, hms⟩ := d.capacityMs_bounds
  have hmul : d.sampleRate * d.capacityMs ≤ 768000 * 10000 := Nat.mul_le_mul d.sampleRate_le hms
  unfold Device.capacity
  omega

/-- The worklet admits what the main thread admits. -/
theorem capacity_le_maxSamples (d : Device) : d.capacity ≤ d.maxSamples := by
  have hle := capacity_le d
  have hmod : d.capacity % 2 ^ 32 = d.capacity := Nat.mod_eq_of_lt (by omega)
  have h32 : Device.toInt32 d.capacity = d.capacity := by
    unfold Device.toInt32
    rw [hmod, if_pos (by omega)]
    omega
  unfold Device.maxSamples
  rw [h32]
  omega

/-! ## The worklet -/

namespace Worklet

/-- `queued` is what the chunks hold behind the offset. -/
structure WF (w : Worklet) : Prop where
  sum : w.queued + w.offset = w.queue.sum
  offset : ∀ first rest, w.queue = first :: rest → w.offset ≤ first

theorem wf_new : new.WF := ⟨rfl, by simp [new]⟩

/-- A chunk that fits is queued and nothing is dropped. -/
theorem push_of_not_overflows {maxSamples count : Nat} {w : Worklet}
    (h : ¬ w.Overflows maxSamples count) :
    w.push maxSamples count =
      ({ w with queue := w.queue ++ [count], queued := w.queued + count }, []) := by
  simp only [Overflows, not_or, not_and, not_lt] at h
  obtain ⟨hcount, hroom⟩ := h
  rw [min_eq_right hcount] at hroom
  have hmake : makeRoom maxSamples count w.queue w.offset w.queued = (w, []) := by
    cases hq : w.queue with
    | nil => simp [makeRoom, ← hq]
    | cons first rest =>
      rw [makeRoom, if_neg (by simpa using hroom (by simp [hq]))]
      simp [← hq]
  simp [push, not_lt.mpr hcount, hmake]

theorem WF.push {w : Worklet} (h : w.WF) (count : Nat) :
    WF { w with queue := w.queue ++ [count], queued := w.queued + count } := by
  obtain ⟨hsum, hoffset⟩ := h
  refine ⟨by simp only [List.sum_append, List.sum_cons, List.sum_nil]; omega, fun first rest heq => ?_⟩
  cases hq : w.queue with
  | nil =>
    have hzero : w.queued + w.offset = 0 := by rw [hsum, hq]; rfl
    simp only
    omega
  | cons first' rest' =>
    simp only [hq, List.cons_append, List.cons.injEq] at heq
    rw [← heq.1]
    exact hoffset first' rest' hq

/-- Rendering takes off `queued` what it reports. -/
theorem write_spec (room : Nat) (queue : List Nat) (offset queued : Nat)
    (h : WF ⟨queue, offset, queued⟩) :
    (write room queue offset queued).1.WF ∧
      (write room queue offset queued).1.queued + (write room queue offset queued).2 = queued := by
  induction queue generalizing room offset queued with
  | nil => exact ⟨h, rfl⟩
  | cons first rest ih =>
    obtain ⟨hsum, hoffset⟩ := h
    have hle : offset ≤ first := hoffset first rest rfl
    simp only [List.sum_cons] at hsum
    have hcount : min room (first - offset) ≤ first - offset := min_le_right _ _
    by_cases hroom : room = 0
    · rw [write, if_pos hroom]
      exact ⟨⟨by simpa using hsum, hoffset⟩, rfl⟩
    · rw [write, if_neg hroom]
      generalize min room (first - offset) = count at hcount
      by_cases hwhole : offset + count = first
      · simp only [if_pos hwhole]
        obtain ⟨hwf, hqueued⟩ := ih (room - count) 0 (queued - count) ⟨by simp only; omega, by simp⟩
        exact ⟨hwf, by omega⟩
      · simp only [if_neg hwhole]
        refine ⟨⟨by simp only [List.sum_cons]; omega, fun first' rest' heq => ?_⟩, by omega⟩
        obtain ⟨rfl, -⟩ := List.cons.inj heq
        simp only
        omega

theorem process_spec {w : Worklet} (h : w.WF) (room : Nat) :
    (w.process room).1.WF ∧ (w.process room).1.queued + (w.process room).2 = w.queued :=
  write_spec room w.queue w.offset w.queued h

end Worklet

/-! ## The samples on their way -/

/-- The samples that the worklet will hold when it has processed the messages, if it renders nothing. -/
def live (queued : Nat) : List Message → Nat
  | [] => queued
  | .samples count :: rest => live (queued + count) rest
  | .clear :: rest => live 0 rest

/-- The worklet never holds more than `capacity` while it processes the messages. -/
def Fits (capacity queued : Nat) : List Message → Prop
  | [] => queued ≤ capacity
  | .samples count :: rest => Fits capacity (queued + count) rest
  | .clear :: rest => queued ≤ capacity ∧ Fits capacity 0 rest

/-- The `clear` messages in a channel. -/
def clears (messages : List Message) : Nat := messages.count .clear

variable {capacity queued k : Nat} {messages : List Message}

theorem live_append_samples (count : Nat) :
    live queued (messages ++ [.samples count]) = live queued messages + count := by
  induction messages generalizing queued with
  | nil => rfl
  | cons m rest ih => cases m <;> exact ih

theorem live_append_clear : live queued (messages ++ [.clear]) = 0 := by
  induction messages generalizing queued with
  | nil => rfl
  | cons m rest ih => cases m <;> exact ih

theorem samplesIn_append (messages messages' : List Message) :
    samplesIn (messages ++ messages') = samplesIn messages + samplesIn messages' := by
  induction messages with
  | nil => simp [samplesIn]
  | cons m rest ih =>
    cases m with
    | samples count => simp only [List.cons_append, samplesIn, ih, Nat.add_assoc]
    | clear => exact ih

theorem live_le (messages : List Message) (queued : Nat) :
    live queued messages ≤ queued + samplesIn messages := by
  induction messages generalizing queued with
  | nil => simp [live, samplesIn]
  | cons m rest ih =>
    cases m with
    | samples count =>
      have := ih (queued + count)
      simp only [live, samplesIn]
      omega
    | clear =>
      have := ih 0
      simp only [live, samplesIn]
      omega

/-- Without a `clear` on the way, all samples are live. -/
theorem live_of_no_clear (h : clears messages = 0) : live queued messages = queued + samplesIn messages := by
  induction messages generalizing queued with
  | nil => rfl
  | cons m rest ih =>
    cases m with
    | samples count =>
      rw [live, ih (by simpa [clears] using h), samplesIn]
      omega
    | clear => simp [clears] at h

/-- Before a `clear` on the way, what is queued does not matter. -/
theorem live_of_clear (h : 0 < clears messages) (queued queued' : Nat) :
    live queued messages = live queued' messages := by
  induction messages generalizing queued queued' with
  | nil => simp [clears] at h
  | cons m rest ih =>
    cases m with
    | samples count => exact ih (by simpa [clears] using h) _ _
    | clear => rfl

theorem fits_append_samples {count : Nat} (h : Fits capacity queued messages)
    (hlive : live queued messages + count ≤ capacity) :
    Fits capacity queued (messages ++ [.samples count]) := by
  induction messages generalizing queued with
  | nil => exact hlive
  | cons m rest ih =>
    cases m with
    | samples count' => exact ih h hlive
    | clear => exact ⟨h.1, ih h.2 hlive⟩

theorem fits_append_clear (h : Fits capacity queued messages) :
    Fits capacity queued (messages ++ [.clear]) := by
  induction messages generalizing queued with
  | nil => exact ⟨h, Nat.zero_le _⟩
  | cons m rest ih =>
    cases m with
    | samples count => exact ih h
    | clear => exact ⟨h.1, ih h.2⟩

theorem Fits.mono {queued' : Nat} (h : Fits capacity queued messages) (hle : queued' ≤ queued) :
    Fits capacity queued' messages := by
  induction messages generalizing queued queued' with
  | nil => exact hle.trans h
  | cons m rest ih =>
    cases m with
    | samples count => exact ih h (Nat.add_le_add_right hle count)
    | clear => exact ⟨hle.trans h.1, h.2⟩

theorem Fits.queued_le (h : Fits capacity queued messages) : queued ≤ capacity := by
  induction messages generalizing queued with
  | nil => exact h
  | cons m rest ih =>
    cases m with
    | samples count => exact (Nat.le_add_right _ _).trans (ih h)
    | clear => exact h.1

/-! ## The invariant -/

/-- The consumed samples on their way that belong to the generation. -/
def returning (generation : Nat) (messages : List Consumed) : Nat :=
  ((messages.filter (·.generation = generation)).map Consumed.samples).sum

/-- What holds along every run that does not spoil the count. -/
structure Inv (d : Device) (s : State) : Prop where
  worklet : s.worklet.WF
  fits : Fits d.capacity s.worklet.queued s.toWorklet
  bounded : s.buffered ≤ d.capacity
  cleared : s.cleared + clears s.toWorklet = s.generation
  past : ∀ message ∈ s.toMain, message.generation ≤ s.cleared
  credit : s.buffered = live s.worklet.queued s.toWorklet + returning s.generation s.toMain +
    s.loop.counting

theorem inv_initial (d : Device) : Inv d initial := by
  refine ⟨Worklet.wf_new, Nat.zero_le _, Nat.zero_le _, rfl, by simp [initial], rfl⟩

theorem returning_append (generation : Nat) (messages messages' : List Consumed) :
    returning generation (messages ++ messages') =
      returning generation messages + returning generation messages' := by
  simp [returning]

/-- The messages of earlier generations do not belong to a new one. -/
theorem returning_new {generation : Nat} {messages : List Consumed}
    (h : ∀ message ∈ messages, message.generation < generation) : returning generation messages = 0 := by
  have hnil : messages.filter (·.generation = generation) = [] := by
    rw [List.filter_eq_nil_iff]
    intro message hm
    simpa using (h message hm).ne
  rw [returning, hnil]
  rfl

variable {d : Device} {s t : State} {a : Action}

/-- What the worklet takes next fits into its queue. -/
theorem Inv.not_takesOverflow (h : Inv d s) (a : Action) : ¬ TakesOverflow d s a := by
  rintro ⟨-, count, rest, hmessages, hover⟩
  have hfits := h.fits
  rw [hmessages] at hfits
  change Fits d.capacity (s.worklet.queued + count) rest at hfits
  have hle := hfits.queued_le
  have hmax := capacity_le_maxSamples d
  rcases hover with hcount | ⟨-, hroom⟩
  · omega
  · have := min_le_right d.maxSamples count
    omega

/-- A rendered quantum moves its samples from the queue to the way back. -/
theorem Inv.render (h : Inv d s) (length : Nat) :
    Inv d ({ s with worklet := (s.worklet.process length).1 }.postConsumed
      (if 0 < (s.worklet.process length).2 then [(s.worklet.process length).2] else [])) := by
  obtain ⟨hwf, hqueued⟩ := Worklet.process_spec h.worklet length
  generalize s.worklet.process length = result at hwf hqueued
  obtain ⟨worklet, written⟩ := result
  obtain ⟨h1, h2, h3, h4, h5, h6⟩ := h
  have hle : worklet.queued ≤ s.worklet.queued := by
    simp only at hqueued
    omega
  refine ⟨hwf, h2.mono hle, h3, h4, fun message hm => ?_, ?_⟩
  · simp only [State.postConsumed, List.mem_append, List.mem_map] at hm
    rcases hm with hm | ⟨n, -, rfl⟩
    · exact h5 message hm
    · exact le_rfl
  · simp only [State.postConsumed, returning_append]
    have hback : returning s.generation
        ((if 0 < written then [written] else []).map fun n => (⟨n, s.cleared⟩ : Consumed)) =
        if s.cleared = s.generation then written else 0 := by
      by_cases hw : 0 < written
      · by_cases hg : s.cleared = s.generation <;> simp [returning, hw, hg]
      · simp [returning, show written = 0 by omega]
    rw [hback, h6]
    simp only at hqueued
    by_cases hclear : clears s.toWorklet = 0
    · rw [if_pos (by omega), live_of_no_clear hclear, live_of_no_clear hclear]
      omega
    · rw [if_neg (by omega), live_of_clear (Nat.pos_of_ne_zero hclear) worklet.queued s.worklet.queued]
      omega

/-- Every step that does not spoil the count keeps the invariant. -/
theorem Inv.step (h : Inv d s) (hcount : ¬ Miscounts s a) (hstep : step d s a = some t) : Inv d t := by
  cases a with
  | read =>
    simp only [BrowserPlayback.step, Option.ite_none_right_eq_some] at hstep
    obtain ⟨hloop, hstep⟩ := hstep
    obtain rfl := Option.some.inj hstep
    obtain ⟨h1, h2, h3, h4, h5, h6⟩ := h
    exact ⟨h1, h2, h3, h4, h5, by simpa [hloop, Loop.counting] using h6⟩
  | chunk count =>
    simp only [BrowserPlayback.step] at hstep
    split at hstep
    next generation hloop =>
      obtain rfl := Option.some.inj hstep
      obtain ⟨h1, h2, h3, h4, h5, h6⟩ := h
      refine ⟨h1, h2, h3, h4, h5, ?_⟩
      rw [h6, hloop]
      split_ifs <;> rfl
    next => cases hstep
  | count =>
    simp only [BrowserPlayback.step] at hstep
    split at hstep
    next generation count hloop =>
      split_ifs at hstep with hroom hgeneration <;> obtain rfl := Option.some.inj hstep <;>
        obtain ⟨h1, h2, h3, h4, h5, h6⟩ := h
      · exact ⟨h1, h2, h3, h4, h5, by simpa [hloop, Loop.counting] using h6⟩
      · exact ⟨h1, h2, hroom, h4, h5, by simpa [hloop, Loop.counting] using h6⟩
    next => cases hstep
  | post =>
    simp only [BrowserPlayback.step] at hstep
    split at hstep
    next count hloop =>
      obtain rfl := Option.some.inj hstep
      obtain ⟨h1, h2, h3, h4, h5, h6⟩ := h
      simp only [hloop, Loop.counting] at h6
      have hroom : live s.worklet.queued s.toWorklet + count ≤ d.capacity := by omega
      refine ⟨h1, fits_append_samples h2 hroom, h3, by simpa [clears] using h4, h5, ?_⟩
      simp only [live_append_samples, Loop.counting]
      omega
    next => cases hstep
  | clearPlayback =>
    obtain rfl := Option.some.inj hstep
    obtain ⟨h1, h2, h3, h4, h5, h6⟩ := h
    refine ⟨h1, fits_append_clear h2, Nat.zero_le _, ?_, h5, ?_⟩
    · simp only [State.clearPlayback, clears, List.count_append, List.count_singleton_self] at h4 ⊢
      omega
    · have hold : returning (s.generation + 1) s.toMain = 0 := returning_new fun message hm => by
        have := h5 message hm
        omega
      have hloop : s.loop.counting = 0 := not_not.mp hcount
      simp [State.clearPlayback, live_append_clear, hold, hloop]
  | deliver =>
    simp only [BrowserPlayback.step] at hstep
    split at hstep
    · cases hstep
    · cases hstep
    next message rest hmessages _ =>
      obtain rfl := Option.some.inj hstep
      obtain ⟨h1, h2, h3, h4, h5, h6⟩ := h
      have hpast : ∀ m ∈ rest, m.generation ≤ s.cleared := fun m hm =>
        h5 m (hmessages ▸ List.mem_cons_of_mem _ hm)
      refine ⟨h1, h2, (Nat.sub_le _ _).trans h3, h4, hpast, ?_⟩
      rw [hmessages] at h6
      simp only [returning] at h6 ⊢
      by_cases hg : message.generation = s.generation
      · simp only [List.filter_cons, hg, decide_true, if_true, List.map_cons, List.sum_cons] at h6
        omega
      · -- An older message finds no credit to take.
        have hzero : s.buffered = 0 := by
          by_contra hne
          exact hcount ⟨by simp [hmessages, hg], Nat.pos_of_ne_zero hne⟩
        simp only [List.filter_cons, hg, decide_false, Bool.false_eq_true, if_false] at h6
        omega
  | receive =>
    simp only [BrowserPlayback.step] at hstep
    split at hstep
    · cases hstep
    next rest hmessages =>
      obtain rfl := Option.some.inj hstep
      obtain ⟨h1, h2, h3, h4, h5, h6⟩ := h
      rw [hmessages] at h2 h4 h6
      refine ⟨Worklet.wf_new, h2.2, h3, ?_, fun message hm => (h5 message hm).trans (Nat.le_succ _), h6⟩
      simp only [clears, List.count_cons_self] at h4 ⊢
      omega
    next count rest hmessages =>
      have hover : ¬ s.worklet.Overflows d.maxSamples count := fun hover =>
        h.not_takesOverflow .receive ⟨rfl, count, rest, hmessages, hover⟩
      rw [Worklet.push_of_not_overflows hover] at hstep
      obtain rfl := Option.some.inj hstep
      obtain ⟨h1, h2, h3, h4, h5, h6⟩ := h
      rw [hmessages] at h2 h4 h6
      refine ⟨h1.push count, h2, h3, ?_, by simpa [State.postConsumed] using h5, ?_⟩
      · simpa [clears, State.postConsumed] using h4
      · simpa [State.postConsumed, live] using h6
  | render length =>
    obtain rfl := Option.some.inj hstep
    exact h.render length

/-- If also nothing is queued or on its way at a clear, then all samples are live. -/
theorem all_live_step (h : Inv d s) (hlive : live s.worklet.queued s.toWorklet =
      s.worklet.queued + samplesIn s.toWorklet) (hclear : ¬ ClearsSamples s a)
    (hstep : step d s a = some t) :
    live t.worklet.queued t.toWorklet = t.worklet.queued + samplesIn t.toWorklet := by
  cases a with
  | read =>
    simp only [step, Option.ite_none_right_eq_some] at hstep
    obtain rfl := Option.some.inj hstep.2
    exact hlive
  | chunk count =>
    simp only [step] at hstep
    split at hstep <;> simp only [reduceCtorEq, Option.some.injEq] at hstep
    subst hstep
    exact hlive
  | count =>
    simp only [step] at hstep
    split at hstep
    · split_ifs at hstep <;> obtain rfl := Option.some.inj hstep <;> exact hlive
    · cases hstep
  | post =>
    simp only [step] at hstep
    split at hstep <;> simp only [reduceCtorEq, Option.some.injEq] at hstep
    subst hstep
    simp only [live_append_samples, samplesIn_append, samplesIn]
    omega
  | clearPlayback =>
    obtain rfl := Option.some.inj hstep
    have hnone : s.worklet.queued + samplesIn s.toWorklet = 0 := by
      by_contra hne
      exact hclear (Nat.pos_of_ne_zero hne)
    simp only [State.clearPlayback, live_append_clear, samplesIn_append, samplesIn]
    omega
  | deliver =>
    simp only [step] at hstep
    split at hstep <;> simp only [reduceCtorEq, Option.some.injEq] at hstep
    subst hstep
    exact hlive
  | receive =>
    simp only [step] at hstep
    split at hstep
    · cases hstep
    next rest hmessages =>
      obtain rfl := Option.some.inj hstep
      rw [hmessages] at hlive
      have hle := live_le rest 0
      simp only [live, samplesIn] at hlive ⊢
      simp only [Worklet.new]
      omega
    next count rest hmessages =>
      have hover : ¬ s.worklet.Overflows d.maxSamples count := fun hover =>
        h.not_takesOverflow .receive ⟨rfl, count, rest, hmessages, hover⟩
      rw [Worklet.push_of_not_overflows hover] at hstep
      obtain rfl := Option.some.inj hstep
      rw [hmessages] at hlive
      simp only [live, samplesIn] at hlive
      simp only [State.postConsumed]
      omega
  | render length =>
    obtain rfl := Option.some.inj hstep
    obtain ⟨-, hqueued⟩ := Worklet.process_spec h.worklet length
    simp only [State.postConsumed]
    by_cases hc : clears s.toWorklet = 0
    · exact live_of_no_clear hc
    · -- The samples before a clear on its way are none, so there is nothing to render.
      have hzero := live_of_clear (Nat.pos_of_ne_zero hc) s.worklet.queued 0
      have hle := live_le s.toWorklet 0
      have hsame : (s.worklet.process length).1.queued = s.worklet.queued := by omega
      have hgoal : live (s.worklet.process length).1.queued s.toWorklet =
          (s.worklet.process length).1.queued + samplesIn s.toWorklet := by
        rw [hsame]
        exact hlive
      exact hgoal

/-- In every run that does not spoil the count, the worklet never overflows; and if such a run also clears
the playback only when no samples are queued or on their way, the main thread's count always covers the
worklet's samples. -/
theorem playback_covered (d : Device) :
    (∀ s, (machine d).ReachableWhere (fun s a => ¬ Miscounts s a) s → ∀ a, ¬ TakesOverflow d s a) ∧
    (∀ s, (machine d).ReachableWhere (fun s a => ¬ Miscounts s a ∧ ¬ ClearsSamples s a) s →
      Accounted s) := by
  constructor
  · intro s hs
    exact (Machine.ReachableWhere.invariant (I := Inv d)
      (fun s (hstart : s = initial) => hstart ▸ inv_initial d)
      (fun s a t h hcount hstep => h.step hcount hstep) hs).not_takesOverflow
  · intro s hs
    obtain ⟨hinv, hlive⟩ := Machine.ReachableWhere.invariant
      (I := fun s => Inv d s ∧
        live s.worklet.queued s.toWorklet = s.worklet.queued + samplesIn s.toWorklet)
      (fun s (hstart : s = initial) => hstart ▸ ⟨inv_initial d, rfl⟩)
      (fun s a t h hcond hstep => ⟨h.1.step hcond.1 hstep, all_live_step h.1 h.2 hcond.2 hstep⟩) hs
    unfold Accounted
    rw [← hlive, hinv.credit]
    omega

/-- A device at 8 kHz with the smallest buffer, of one frame of 160 samples. -/
def smallDevice : Device where
  sampleRate := 8000
  capacityMs := 20
  capacityMs_bounds := by decide
  sampleRate_le := by decide

/-- A frame is sent, rendered and reported before the playback is cleared and the next frame sent. -/
def settledRun : List Action :=
  [.read, .chunk 160, .count, .post, .receive, .render 128, .render 128, .deliver, .deliver,
    .clearPlayback, .read, .chunk 160, .count, .post, .receive]

theorem settledRun_covered :
    ∃ s, (machine smallDevice).exec initial settledRun = some s ∧
      s.toWorklet = [.samples 160] ∧ (∀ a, ¬ TakesOverflow smallDevice s a) ∧ Accounted s :=
  ⟨_, rfl, rfl,
    (playback_covered smallDevice).1 _ (@Machine.ReachableWhere.of_exec _ _ (machine smallDevice) _ _ _
      settledRun rfl (by decide) rfl),
    (playback_covered smallDevice).2 _ (@Machine.ReachableWhere.of_exec _ _ (machine smallDevice) _ _ _
      settledRun rfl (by decide) rfl)⟩

/-- One frame is sent and rendered; the playback is cleared and the next frame sent before the reports of
the first one arrive. They make room for a third frame beside the second. -/
def staleRun : List Action :=
  [.read, .chunk 160, .count, .post, .receive, .render 128, .render 128, .clearPlayback, .read,
    .chunk 160, .count, .post, .deliver, .deliver, .read, .chunk 160, .count, .post, .receive, .receive]

theorem staleRun_overflows :
    ∃ s, (machine smallDevice).Reachable s ∧ TakesOverflow smallDevice s .receive ∧ ¬ Accounted s :=
  ⟨_, @Machine.Reachable.of_exec _ _ (machine smallDevice) _ _ staleRun rfl rfl,
    ⟨rfl, 160, [], rfl, .inr ⟨by decide, by decide⟩⟩, by decide⟩

end Rtvbp.TypeScript.BrowserPlayback
