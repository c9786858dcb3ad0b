import Rtvbp.TypeScript.Session.Dispatch

/-!
# Responses behind a full dispatch queue

While a handler waits for a request, the dispatcher takes nothing from the dispatch queue. The reader
comes to the response only if all requests and events before it fit into the queue, so the request can
be completed exactly if the `load` does not exceed the capacity.
-/

namespace Rtvbp.TypeScript.Dispatch

open Rtvbp.Lib

/-- What holds in every reachable state. -/
structure Inv (s : State) : Prop where
  dispatch_open : s.dispatch.closed = false
  readers : s.dispatcher ≠ .shifting → s.dispatch.readers = 0
  readers_le : s.dispatch.readers ≤ 1
  receiving : s.reader = .receiving → s.dispatch.writers = []
  pushing : s.reader = .pushing → s.dispatch.writers.length = 1
  pending_lt : ∀ id ∈ s.pending, id < s.sequence
  answered_lt : ∀ id ∈ s.answered, id < s.sequence
  disjoint : ∀ id ∈ s.answered, id ∉ s.pending
  stopped : s.stopped = true → s.pending = []

theorem inv_initial (capacity : Nat) (h : 0 < capacity) : Inv (initial capacity h) := by
  constructor <;> simp [initial, AsyncQueue.new]

theorem Inv.completePending {s : State} (h : Inv s) (id : Id) : Inv (s.completePending id) := by
  unfold State.completePending
  split_ifs with hid
  · obtain ⟨hopen, hreaders, hle, hreceiving, hpushing, hpending, hanswered, hdisjoint, hstopped⟩ := h
    refine ⟨hopen, hreaders, hle, hreceiving, hpushing, ?_, ?_, ?_, ?_⟩
    · intro other hother
      exact hpending other (List.mem_of_mem_filter hother)
    · intro other hother
      rcases List.mem_cons.mp hother with rfl | hother
      · exact hpending other hid
      · exact hanswered other hother
    · intro other hother
      rcases List.mem_cons.mp hother with rfl | hother
      · simp
      · exact fun hmem => hdisjoint other hother (List.mem_of_mem_filter hmem)
    · intro hs
      simp [hstopped hs]
  · exact h

theorem Inv.cancelPending {s : State} (h : Inv s) (id : Id) : Inv (s.cancelPending id) := by
  obtain ⟨hopen, hreaders, hle, hreceiving, hpushing, hpending, hanswered, hdisjoint, hstopped⟩ := h
  refine ⟨hopen, hreaders, hle, hreceiving, hpushing, ?_, hanswered, ?_, ?_⟩
  · intro other hother
    exact hpending other (List.mem_of_mem_filter hother)
  · intro other hother hmem
    exact hdisjoint other hother (List.mem_of_mem_filter hmem)
  · intro hs
    simp [State.cancelPending, hstopped hs]

/-- What the reader's push leaves alone, and how the load of the queue grows when nobody shifts. -/
theorem pushCall_spec {s t : State} (h : Inv s) (hreader : s.reader = .receiving) {call : Call}
    (ht : s.pushCall call = some t) :
    Inv t ∧ t.stream = s.stream ∧ t.pending = s.pending ∧ t.answered = s.answered ∧
      t.sequence = s.sequence ∧ t.stopped = s.stopped ∧
      t.dispatch.capacity = s.dispatch.capacity ∧
      (s.dispatcher ≠ .shifting → t.dispatcher = s.dispatcher ∧
        t.dispatch.items.length + t.dispatch.writers.length =
          s.dispatch.items.length + s.dispatch.writers.length + 1) := by
  obtain ⟨hopen, hreaders, hle, hreceiving, hpushing, hpending, hanswered, hdisjoint, hstopped⟩ := h
  have hwriters := hreceiving hreader
  unfold State.pushCall at ht
  rcases AsyncQueue.push_cases hopen call with ⟨h0, q, hq, hi, hw, hr, hc, ho⟩ |
    ⟨h0, q, hq, hi, hw, hr, hc, ho⟩ | ⟨h0, q, hq, hi, hw, hr, hc, ho⟩
  · simp only [hq, Option.some.injEq] at ht
    subst ht
    refine ⟨⟨ho, fun _ => hr, by simp [hr], by simp [hw, hwriters], by simp [hreader], hpending,
      hanswered, hdisjoint, hstopped⟩, rfl, rfl, rfl, rfl, rfl, hc, fun _ => ⟨rfl, ?_⟩⟩
    simp only [hi, hw, List.length_append, List.length_singleton]
    omega
  · simp only [hq, Option.some.injEq] at ht
    subst ht
    refine ⟨⟨ho, fun _ => hr, by simp [hr], by simp, by simp [hw, hwriters], hpending,
      hanswered, hdisjoint, hstopped⟩, rfl, rfl, rfl, rfl, rfl, hc, fun _ => ⟨rfl, ?_⟩⟩
    simp only [hi, hw, List.length_append, List.length_singleton]
    omega
  · simp only [hq, Option.some.injEq] at ht
    subst ht
    have hshifting : s.dispatcher = .shifting := not_not.mp fun hne => h0 (hreaders hne)
    refine ⟨⟨ho, fun _ => by simp only [hr]; omega, by simp only [hr]; omega, by simp [hw, hwriters],
      by simp [hreader], hpending, hanswered, hdisjoint, hstopped⟩, rfl, rfl, rfl, rfl, rfl, hc,
      fun hne => absurd hshifting hne⟩

theorem Inv.shiftCall {s t : State} (h : Inv s) (hidle : s.dispatcher = .idle)
    (ht : s.shiftCall = some t) : Inv t := by
  obtain ⟨hopen, hreaders, hle, hreceiving, hpushing, hpending, hanswered, hdisjoint, hstopped⟩ := h
  have h0 := hreaders (by simp [hidle])
  unfold State.shiftCall at ht
  rcases AsyncQueue.shift_cases hopen with ⟨hi0, q, hq, hi, hw, hr, hc, ho⟩ |
    ⟨q, v, hq, hi, hw, hr, hc, ho⟩
  · simp only [hq, Option.some.injEq] at ht
    subst ht
    exact ⟨ho, by simp, by simp [hr, h0], by simpa [hw] using hreceiving,
      by simpa [hw] using hpushing, hpending, hanswered, hdisjoint, hstopped⟩
  · simp only [hq, Option.some.injEq] at ht
    subst ht
    -- the reader waits exactly if there is a writer, which is the one that is admitted
    have hwriters : s.dispatch.writers.tail = [] := by
      cases hreader : s.reader with
      | receiving => simp [hreceiving hreader]
      | pushing =>
        obtain ⟨w, hw1⟩ := List.length_eq_one_iff.mp (hpushing hreader)
        simp [hw1]
    refine ⟨ho, fun _ => hr, by simp [hr], fun _ => by rw [hw, hwriters], ?_, hpending, hanswered,
      hdisjoint, hstopped⟩
    intro hreader
    cases hempty : s.dispatch.writers.isEmpty with
    | true =>
      simp only [hempty, Bool.not_true, Bool.false_eq_true, if_false] at hreader
      have := hpushing hreader
      simp [List.isEmpty_iff.mp hempty] at this
    | false => simp [hempty] at hreader

theorem Inv.withStream {s : State} (h : Inv s) (stream : List Frame) :
    Inv { s with stream := stream } :=
  ⟨h.dispatch_open, h.readers, h.readers_le, h.receiving, h.pushing, h.pending_lt, h.answered_lt,
    h.disjoint, h.stopped⟩

theorem Inv.withDispatcher {s : State} (h : Inv s) (hold : s.dispatcher ≠ .shifting)
    (dispatcher : Dispatcher) : Inv { s with dispatcher := dispatcher } :=
  ⟨h.dispatch_open, fun _ => h.readers hold, h.readers_le, h.receiving, h.pushing, h.pending_lt,
    h.answered_lt, h.disjoint, h.stopped⟩

theorem Inv.step {s t : State} {a : Action} (h : Inv s) (hstep : step s a = some t) : Inv t := by
  simp only [Dispatch.step, Option.ite_none_left_eq_some] at hstep
  obtain ⟨hrunning, hstep⟩ := hstep
  cases a with
  | deliver frame =>
    obtain rfl := Option.some.inj hstep
    exact h.withStream _
  | receive =>
    dsimp only at hstep
    split at hstep
    · next frame rest hreader hstream =>
      have hrest := h.withStream rest
      cases frame with
      | undecodable =>
        obtain rfl := Option.some.inj hstep
        exact hrest
      | response id =>
        obtain rfl := Option.some.inj hstep
        exact hrest.completePending id
      | call call => exact (pushCall_spec hrest hreader hstep).1
    · cases hstep
  | shift =>
    simp only [Option.ite_none_right_eq_some] at hstep
    exact h.shiftCall hstep.1 hstep.2
  | request =>
    obtain rfl := Option.some.inj hstep
    obtain ⟨hopen, hreaders, hle, hreceiving, hpushing, hpending, hanswered, hdisjoint, hstopped⟩ := h
    refine ⟨hopen, hreaders, hle, hreceiving, hpushing, ?_, ?_, ?_, ?_⟩
    · intro id hid
      rcases List.mem_cons.mp hid with rfl | hid
      · exact Nat.lt_succ_self _
      · exact Nat.lt_succ_of_lt (hpending id hid)
    · exact fun id hid => Nat.lt_succ_of_lt (hanswered id hid)
    · intro id hid hmem
      rcases List.mem_cons.mp hmem with rfl | hmem
      · exact lt_irrefl _ (hanswered _ hid)
      · exact hdisjoint id hid hmem
    · exact fun hs => absurd hs hrunning
  | await id =>
    simp only [Option.ite_none_right_eq_some] at hstep
    obtain ⟨⟨hhandling, -⟩, hstep⟩ := hstep
    obtain rfl := Option.some.inj hstep
    exact h.withDispatcher (by simp [hhandling]) _
  | resume =>
    dsimp only at hstep
    split at hstep
    · next id hawaiting =>
      simp only [Option.ite_none_left_eq_some] at hstep
      obtain ⟨-, hstep⟩ := hstep
      obtain rfl := Option.some.inj hstep
      exact h.withDispatcher (by simp [hawaiting]) _
    · cases hstep
  | finish =>
    simp only [Option.ite_none_right_eq_some] at hstep
    obtain ⟨hhandling, hstep⟩ := hstep
    obtain rfl := Option.some.inj hstep
    exact h.withDispatcher (by simp [hhandling]) _
  | cancel id =>
    obtain rfl := Option.some.inj hstep
    exact h.cancelPending id
  | timeout id =>
    obtain rfl := Option.some.inj hstep
    exact h.cancelPending id
  | stop =>
    obtain rfl := Option.some.inj hstep
    exact ⟨h.dispatch_open, h.readers, h.readers_le, h.receiving, h.pushing, by simp, h.answered_lt,
      by simp, fun _ => rfl⟩

theorem Inv.of_reachable {s : State} (h : machine.Reachable s) : Inv s := by
  refine Machine.Reachable.invariant ?_ (fun _ _ _ hinv hstep => hinv.step hstep) h
  rintro _ ⟨capacity, hpos, rfl⟩
  exact inv_initial capacity hpos

/-! ## A load above the capacity -/

/-- A handler waits for a request whose response is behind more calls than the dispatch queue can
take. -/
structure State.stuck (s : State) (id : Id) : Prop where
  awaiting : s.dispatcher = .awaiting id
  pending : id ∈ s.pending
  response : Frame.response id ∈ s.stream
  overload : s.dispatch.capacity < s.load id

/-- The request is settled, and not by its response. -/
def State.given_up (s : State) (id : Id) : Prop :=
  id ∉ s.pending ∧ id ∉ s.answered ∧ id < s.sequence

theorem callsBefore_append {id : Id} {stream : List Frame} (h : Frame.response id ∈ stream)
    (frame : Frame) : callsBefore id (stream ++ [frame]) = callsBefore id stream := by
  induction stream with
  | nil => cases h
  | cons f fs ih =>
    cases f with
    | response other =>
      simp only [List.cons_append, callsBefore]
      split_ifs with hid
      · rfl
      · refine ih ?_
        rcases List.mem_cons.mp h with heq | h
        · cases heq
          exact absurd rfl hid
        · exact h
    | call call =>
      simp only [List.cons_append, callsBefore]
      rw [ih (by simpa using h)]
    | undecodable =>
      simp only [List.cons_append, callsBefore]
      exact ih (by simpa using h)

theorem completePending_of_ne {s : State} {id other : Id} (h : other ≠ id) :
    (s.completePending other).dispatcher = s.dispatcher ∧
      (s.completePending other).stream = s.stream ∧
      (s.completePending other).dispatch = s.dispatch ∧
      (s.completePending other).sequence = s.sequence ∧
      (s.completePending other).stopped = s.stopped ∧
      (id ∈ (s.completePending other).pending ↔ id ∈ s.pending) ∧
      (id ∈ (s.completePending other).answered ↔ id ∈ s.answered) := by
  unfold State.completePending
  split_ifs with hmem
  · simp [h.symm]
  · simp

/-- The reader takes a frame other than the response to `id` while the dispatcher is busy: the frame
moves into the load of the queue. -/
theorem receive_other {s t : State} {id : Id} {frame : Frame} {rest : List Frame} (h : Inv s)
    (hbusy : s.dispatcher ≠ .shifting) (hreader : s.reader = .receiving)
    (hstream : s.stream = frame :: rest) (hframe : frame ≠ .response id)
    (ht : ({ s with stream := rest } : State).receiveFrame frame = some t) :
    t.dispatcher = s.dispatcher ∧ t.stream = rest ∧ t.dispatch.capacity = s.dispatch.capacity ∧
      t.load id = s.load id ∧ t.sequence = s.sequence ∧ t.stopped = s.stopped ∧
      (id ∈ t.pending ↔ id ∈ s.pending) ∧ (id ∈ t.answered ↔ id ∈ s.answered) := by
  have hrest := h.withStream rest
  cases frame with
  | undecodable =>
    obtain rfl := Option.some.inj ht
    simp [State.load, hstream, callsBefore]
  | response other =>
    have hne : other ≠ id := fun heq => hframe (by rw [heq])
    obtain rfl := Option.some.inj ht
    obtain ⟨hd, hs, hq, hn, hstop, hp, ha⟩ :=
      @completePending_of_ne { s with stream := rest } id other hne
    refine ⟨hd, hs, by rw [hq], ?_, hn, hstop, hp, ha⟩
    simp only [State.load, hs, hq, hstream, callsBefore, if_neg hne]
  | call call =>
    obtain ⟨-, hs, hp, ha, hn, hstop, hc, hload⟩ := pushCall_spec hrest hreader ht
    obtain ⟨hd, hlen⟩ := hload hbusy
    refine ⟨hd, hs, hc, ?_, hn, hstop, by rw [hp], by rw [ha]⟩
    simp only [State.load, hs, hlen, hstream, callsBefore]
    omega

/-- The reader cannot come to the response of a stuck request. -/
theorem State.stuck.head_ne {s : State} {id : Id} (h : Inv s) (hs : s.stuck id)
    (hreader : s.reader = .receiving) {frame : Frame} {rest : List Frame}
    (hstream : s.stream = frame :: rest) : frame ≠ .response id := by
  rintro rfl
  have hover := hs.overload
  have hbounded := s.dispatch.bounded
  simp only [State.load, h.receiving hreader, hstream, callsBefore, if_true, List.length_nil] at hover
  omega

/-- A stuck request stays stuck until it is given up. -/
theorem State.stuck.step {s t : State} {id : Id} {a : Action} (h : Inv s) (hs : s.stuck id)
    (ha : a.proceeds) (hstep : step s a = some t) : t.stuck id ∨ t.given_up id := by
  have hbusy : s.dispatcher ≠ .shifting := by simp [hs.awaiting]
  simp only [Dispatch.step, Option.ite_none_left_eq_some] at hstep
  obtain ⟨-, hstep⟩ := hstep
  cases a with
  | deliver frame =>
    obtain rfl := Option.some.inj hstep
    refine Or.inl ⟨hs.awaiting, hs.pending, List.mem_append_left _ hs.response, ?_⟩
    simpa only [State.load, callsBefore_append hs.response] using hs.overload
  | receive =>
    dsimp only at hstep
    split at hstep
    · next frame rest hreader hstream =>
      have hne := hs.head_ne h hreader hstream
      obtain ⟨hd, hst, hc, hload, -, -, hp, -⟩ :=
        receive_other h hbusy hreader hstream hne hstep
      refine Or.inl ⟨by rw [hd]; exact hs.awaiting, hp.mpr hs.pending, ?_,
        by rw [hc, hload]; exact hs.overload⟩
      have hmem := hs.response
      rw [hstream] at hmem
      rw [hst]
      exact (List.mem_cons.mp hmem).resolve_left hne.symm
    · cases hstep
  | shift =>
    simp [hs.awaiting] at hstep
  | request =>
    obtain rfl := Option.some.inj hstep
    exact Or.inl ⟨hs.awaiting, List.mem_cons_of_mem _ hs.pending, hs.response, hs.overload⟩
  | await other =>
    simp [hs.awaiting] at hstep
  | resume =>
    simp [hs.awaiting, hs.pending] at hstep
  | finish =>
    simp [hs.awaiting] at hstep
  | cancel other =>
    obtain rfl := Option.some.inj hstep
    by_cases hid : other = id
    · subst hid
      exact Or.inr ⟨by simp [State.cancelPending],
        fun hans => h.disjoint other hans hs.pending, h.pending_lt other hs.pending⟩
    · refine Or.inl ⟨hs.awaiting, ?_, hs.response, hs.overload⟩
      simpa [State.cancelPending, hs.pending] using fun heq => hid heq.symm
  | timeout other => exact ha.elim
  | stop => exact ha.elim

theorem pushCall_requests {s t : State} {call : Call} (ht : s.pushCall call = some t) :
    t.pending = s.pending ∧ t.answered = s.answered ∧ t.sequence = s.sequence := by
  unfold State.pushCall at ht
  split at ht <;> cases ht <;> exact ⟨rfl, rfl, rfl⟩

theorem shiftCall_requests {s t : State} (ht : s.shiftCall = some t) :
    t.pending = s.pending ∧ t.answered = s.answered ∧ t.sequence = s.sequence := by
  unfold State.shiftCall at ht
  split at ht <;> cases ht <;> exact ⟨rfl, rfl, rfl⟩

theorem State.given_up.congr {s t : State} {id : Id} (hs : s.given_up id)
    (h : t.pending = s.pending ∧ t.answered = s.answered ∧ t.sequence = s.sequence) :
    t.given_up id := by
  unfold State.given_up
  rw [h.1, h.2.1, h.2.2]
  exact hs

/-- A request that is given up is never answered. -/
theorem State.given_up.step {s t : State} {id : Id} {a : Action} (hs : s.given_up id)
    (hstep : step s a = some t) : t.given_up id := by
  simp only [Dispatch.step, Option.ite_none_left_eq_some] at hstep
  obtain ⟨-, hstep⟩ := hstep
  cases a with
  | deliver frame =>
    obtain rfl := Option.some.inj hstep
    exact hs
  | receive =>
    dsimp only at hstep
    split at hstep
    · next frame rest hreader hstream =>
      cases frame with
      | undecodable =>
        obtain rfl := Option.some.inj hstep
        exact hs
      | call call => exact hs.congr (@pushCall_requests { s with stream := rest } t call hstep)
      | response other =>
        obtain rfl := Option.some.inj hstep
        by_cases hid : other = id
        · subst hid
          rw [State.completePending, if_neg hs.1]
          exact hs
        · obtain ⟨-, -, -, hn, -, hp, ha⟩ :=
            @completePending_of_ne { s with stream := rest } id other hid
          exact ⟨fun hmem => hs.1 (hp.mp hmem), fun hmem => hs.2.1 (ha.mp hmem), by rw [hn]; exact hs.2.2⟩
    · cases hstep
  | shift =>
    simp only [Option.ite_none_right_eq_some] at hstep
    exact hs.congr (shiftCall_requests hstep.2)
  | request =>
    obtain rfl := Option.some.inj hstep
    have hne : id ≠ s.sequence := hs.2.2.ne
    exact ⟨by simpa [hne] using hs.1, hs.2.1, Nat.lt_succ_of_lt hs.2.2⟩
  | await other =>
    simp only [Option.ite_none_right_eq_some] at hstep
    obtain rfl := Option.some.inj hstep.2
    exact hs
  | resume =>
    dsimp only at hstep
    split at hstep
    · simp only [Option.ite_none_left_eq_some] at hstep
      obtain rfl := Option.some.inj hstep.2
      exact hs
    · cases hstep
  | finish =>
    simp only [Option.ite_none_right_eq_some] at hstep
    obtain rfl := Option.some.inj hstep.2
    exact hs
  | cancel other =>
    obtain rfl := Option.some.inj hstep
    exact ⟨fun hmem => hs.1 (List.mem_of_mem_filter hmem), hs.2⟩
  | timeout other =>
    obtain rfl := Option.some.inj hstep
    exact ⟨fun hmem => hs.1 (List.mem_of_mem_filter hmem), hs.2⟩
  | stop =>
    obtain rfl := Option.some.inj hstep
    exact ⟨by simp, hs.2⟩

/-- A stuck request is never completed by its response. -/
theorem State.stuck.not_completable {s : State} {id : Id} (h : Inv s) (hs : s.stuck id) :
    ¬ s.completable id := by
  rintro ⟨t, hsteps, hans⟩
  have hinv := Machine.Steps.invariant
    (I := fun s => Inv s ∧ (s.stuck id ∨ s.given_up id))
    (fun u a v hu ha hstep => ⟨hu.1.step hstep, hu.2.elim
      (fun hstuck => hstuck.step hu.1 ha hstep) (fun hgiven => Or.inr (hgiven.step hstep))⟩)
    ⟨h, Or.inl hs⟩ hsteps
  rcases hinv.2 with hstuck | hgiven
  · exact hinv.1.disjoint id hans hstuck.pending
  · exact hgiven.2.1 hans

/-! ## A load within the capacity -/

theorem receiveFrame_isSome {s : State} (h : Inv s) (frame : Frame) :
    ∃ t, s.receiveFrame frame = some t := by
  cases frame with
  | undecodable => exact ⟨_, rfl⟩
  | response id => exact ⟨_, rfl⟩
  | call call =>
    unfold State.receiveFrame State.pushCall
    rcases AsyncQueue.push_cases h.dispatch_open call with ⟨-, q, hq, -⟩ | ⟨-, q, hq, -⟩ |
      ⟨-, q, hq, -⟩ <;> simp [hq]

/-- The reader gets through to the response if the calls before it fit into the queue. -/
theorem completable_of_load_le {s : State} {id : Id} (h : Inv s)
    (hawaiting : s.dispatcher = .awaiting id) (hpending : id ∈ s.pending)
    (hresponse : Frame.response id ∈ s.stream) (hload : s.load id ≤ s.dispatch.capacity) :
    s.completable id := by
  induction hstream : s.stream generalizing s with
  | nil =>
    rw [hstream] at hresponse
    cases hresponse
  | cons frame rest ih =>
    have hbusy : s.dispatcher ≠ .shifting := by simp [hawaiting]
    have hrunning : s.stopped = false := by
      cases hstopped : s.stopped with
      | false => rfl
      | true =>
        rw [h.stopped hstopped] at hpending
        cases hpending
    -- a waiting reader would be one call too many
    have hreader : s.reader = .receiving := by
      cases hreader : s.reader with
      | receiving => rfl
      | pushing =>
        have hone := h.pushing hreader
        have hfull := s.dispatch.writers_full (fun hnil => by simp [hnil] at hone)
        simp only [State.load] at hload
        omega
    have hreceive : step s .receive = ({ s with stream := rest } : State).receiveFrame frame := by
      simp [Dispatch.step, hrunning, hreader, hstream]
    by_cases hframe : frame = .response id
    · refine ⟨({ s with stream := rest } : State).completePending id,
        .single ⟨.receive, trivial, ?_⟩, ?_⟩
      · rw [show machine.step = Dispatch.step from rfl, hreceive, hframe]
        rfl
      · simp [State.completePending, hpending]
    · obtain ⟨t, ht⟩ : ∃ t, ({ s with stream := rest } : State).receiveFrame frame = some t := by
        exact receiveFrame_isSome (h.withStream rest) frame
      obtain ⟨hd, hst, hc, hl, -, -, hp, -⟩ := receive_other h hbusy hreader hstream hframe ht
      have hmem : Frame.response id ∈ t.stream := by
        rw [hstream] at hresponse
        rw [hst]
        exact (List.mem_cons.mp hresponse).resolve_left fun heq => hframe heq.symm
      obtain ⟨u, hsteps, hans⟩ := ih (h.step (hreceive.trans ht)) (by rw [hd, hawaiting])
        (hp.mpr hpending) hmem (by rw [hl, hc]; exact hload) hst
      exact ⟨u, .head ⟨.receive, trivial, hreceive.trans ht⟩ hsteps, hans⟩

/-- A handler that issues a request and waits for it, in a session whose dispatch queue holds one
frame. -/
def awaitingRun : List Action :=
  [.shift, .deliver (.call (.request "r-1" "session.start")), .receive, .request, .await 0]

/-- The response comes next. -/
def answeredRun : List Action := awaitingRun ++ [.deliver (.response 0)]

/-- Two events come before the response. -/
def overloadedRun : List Action :=
  awaitingRun ++
    [.deliver (.call (.event "e-1" "dtmf")), .deliver (.call (.event "e-2" "dtmf")),
      .deliver (.response 0), .receive, .receive]

end Rtvbp.TypeScript.Dispatch
