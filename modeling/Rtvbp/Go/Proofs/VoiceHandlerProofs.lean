import Rtvbp.Go.VoiceHandler

/-!
# Proofs: the dispatcher and the initialization of the voice handler

Along a schedule the initialization does not block the dispatcher exactly if no catalog request is dispatched
while `initialize` holds its mutex. A request that is, and that the peer wants answered first, closes a wait
cycle, which only the end of the request `session.initialize` breaks.
-/

namespace Rtvbp.Go.VoiceHandler

open Rtvbp.Lib Rtvbp.Go.Reply
open Rtvbp.Go.Media (MediaFormat)

/-! ## Codecs -/

/-- The codec that is offered for a valid format is one that the handler accepts. -/
theorem mediaFormat_audioCodec {format : MediaFormat} {bytes : Int64} (h : format.FrameBytes = .ok bytes) :
    mediaFormat (some (audioCodec format)) format.PTime = .ok format := by
  have hptime : format.PTime ≠ 0 := by
    intro hzero
    have hnonpos : format.PTime ≤ 0 := by
      rw [hzero]
      decide
    have herror : ∃ text, format.FrameBytes = .error text := by
      simp only [MediaFormat.FrameBytes, if_pos hnonpos]
      iterate 4
        split
        · exact ⟨_, rfl⟩
      exact ⟨_, rfl⟩
    obtain ⟨text, htext⟩ := herror
    rw [htext] at h
    cases h
  simp only [mediaFormat, audioCodec, if_neg hptime, h]

/-! ## The steps -/

variable {config : Config} {s t : State} {a : Action}

/-- The step is one of the dispatcher. -/
def ofDispatcher : Action → Bool
  | .dispatch | .acquire | .respond | .handled _ | .stop => true
  | _ => false

/-- What the steps of `begin` and of the peer leave alone. -/
structure Unmoved (s t : State) : Prop where
  dispatcher : t.dispatcher = s.dispatcher
  answers : t.answers = s.answers
  early : t.early = s.early

theorem unmoved_proceed {err : Option Error} {next : State} (h : Unmoved s next) :
    Unmoved s (s.proceed err next) := by
  cases err with
  | none => exact h
  | some err => exact ⟨rfl, rfl, rfl⟩

theorem unmoved_of_not_ofDispatcher (ha : ofDispatcher a = false) (ht : step config s a = some t) :
    Unmoved s t := by
  cases a with
  | begin =>
    simp only [step] at ht
    split at ht <;> cases ht
    exact ⟨rfl, rfl, rfl⟩
  | lock =>
    simp only [step] at ht
    split at ht <;> cases ht
    exact ⟨rfl, rfl, rfl⟩
  | send err =>
    simp only [step] at ht
    split at ht <;> cases ht
    exact unmoved_proceed ⟨rfl, rfl, rfl⟩
  | answer result =>
    simp only [step] at ht
    split at ht
    · split at ht
      · split at ht <;> cases ht <;> exact ⟨rfl, rfl, rfl⟩
      · cases ht
    · cases ht
  | abandon err =>
    simp only [step] at ht
    split at ht <;> cases ht
    exact ⟨rfl, rfl, rfl⟩
  | select =>
    simp only [step] at ht
    split at ht
    · split at ht
      · cases ht
        exact ⟨rfl, rfl, rfl⟩
      · split at ht <;> cases ht <;> exact ⟨rfl, rfl, rfl⟩
    · cases ht
  | acceptAudio err =>
    simp only [step] at ht
    split at ht <;> cases ht
    exact unmoved_proceed ⟨rfl, rfl, rfl⟩
  | notify err =>
    simp only [step] at ht
    split at ht <;> cases ht
    exact unmoved_proceed ⟨rfl, rfl, rfl⟩
  | finish err =>
    simp only [step] at ht
    split at ht <;> cases ht
    exact ⟨rfl, rfl, rfl⟩
  | arrive frame first =>
    cases ht
    exact ⟨rfl, rfl, rfl⟩
  | _ => cases ha

/-- What `dispatch` does: an event is dropped, an unknown method refused, and a catalog request refused, handled
or made to wait. -/
theorem dispatch_cases (ht : step config s .dispatch = some t) :
    s.dispatcher = .idle ∧
      ((∃ name queue, s.queue = .event name :: queue ∧ t = { s with queue }) ∨
        ∃ request queue, s.queue = .request request :: queue ∧ t = { s with queue }.onRequest request) := by
  simp only [step] at ht
  split at ht
  · next request queue hidle hqueue =>
    cases ht
    exact ⟨hidle, .inr ⟨request, queue, hqueue, rfl⟩⟩
  · next name queue hidle hqueue =>
    cases ht
    exact ⟨hidle, .inl ⟨name, queue, hqueue, rfl⟩⟩
  · cases ht

/-! ## The invariant -/

/-- The dispatcher does not wait, and the catalog requests dispatched before the initialization are refused. -/
structure State.Inv (s : State) : Prop where
  free : ∀ request, s.dispatcher ≠ .waiting request
  refused : (s.early.map fun request => (request, refusal)).Sublist (s.answers ++ s.pending)

theorem State.Inv.prompt (h : s.Inv) : s.Prompt where
  unblocked request hwaiting := absurd hwaiting (h.free request)
  refused := h.refused

theorem inv_initial : initial.Inv where
  free _ h := by cases h
  refused := List.Sublist.refl []

theorem State.Inv.unmoved (h : s.Inv) (ht : Unmoved s t) : t.Inv := by
  have hpending : t.pending = s.pending := by rw [State.pending, State.pending, ht.dispatcher]
  constructor
  · rw [ht.dispatcher]
    exact h.free
  · rw [ht.early, ht.answers, hpending]
    exact h.refused

/-- A dispatcher that is idle has refused every request dispatched before the initialization. -/
theorem State.Inv.refused_of_idle (h : s.Inv) (hidle : s.dispatcher = .idle) :
    (s.early.map fun request => (request, refusal)).Sublist s.answers := by
  have hpending : s.pending = [] := by rw [State.pending, hidle]
  have hrefused := h.refused
  rwa [hpending, List.append_nil] at hrefused

/-- A request is dispatched. -/
theorem State.Inv.onRequest (h : s.Inv) (hidle : s.dispatcher = .idle) {request : Request} {queue : List Frame}
    (hfree : request.Method ∈ voiceMethods → s.begin.locked = false) :
    ({ s with queue }.onRequest request).Inv := by
  have hrefused := h.refused_of_idle hidle
  by_cases hmethod : request.Method ∈ voiceMethods
  · have hlocked := hfree hmethod
    by_cases hinitialized : s.initialized = true
    · have ht : { s with queue }.onRequest request = { s with queue, dispatcher := .handling request } := by
        simp [State.onRequest, State.checkInitialized, hmethod, hlocked, hinitialized]
      rw [ht]
      exact ⟨fun _ hwaiting => (by cases hwaiting), hrefused.trans (List.sublist_append_left _ _)⟩
    · have ht : { s with queue }.onRequest request =
          { s with
            queue, dispatcher := .refusing request errNotInitialized, early := s.early ++ [request] } := by
        simp [State.onRequest, State.checkInitialized, hmethod, hlocked, hinitialized]
      rw [ht]
      refine ⟨fun _ hwaiting => (by cases hwaiting), ?_⟩
      show ((s.early ++ [request]).map fun request => (request, refusal)).Sublist (s.answers ++ [(request, refusal)])
      rw [List.map_append]
      exact hrefused.append (List.Sublist.refl _)
  · have ht : { s with queue }.onRequest request =
        { s with queue, dispatcher := .refusing request (errUnknownMethod request.Method) } := by
      simp [State.onRequest, hmethod]
    rw [ht]
    exact ⟨fun _ hwaiting => (by cases hwaiting), hrefused.trans (List.sublist_append_left _ _)⟩

/-- The step lemma. -/
theorem State.Inv.step (h : s.Inv) (hfree : WhenFree s a) (ht : step config s a = some t) : t.Inv := by
  cases hactor : ofDispatcher a with
  | false => exact h.unmoved (unmoved_of_not_ofDispatcher hactor ht)
  | true =>
    cases a with
    | dispatch =>
      obtain ⟨hidle, ⟨name, queue, hqueue, rfl⟩ | ⟨request, queue, hqueue, rfl⟩⟩ := dispatch_cases ht
      · exact ⟨h.free, h.refused⟩
      · refine h.onRequest hidle ?_
        simpa [WhenFree, hidle, hqueue] using hfree
    | acquire =>
      simp only [VoiceHandler.step] at ht
      split at ht
      · next request hwaiting => exact absurd hwaiting (h.free request)
      · cases ht
    | respond =>
      simp only [VoiceHandler.step] at ht
      split at ht <;> cases ht
      next request err hrefusing =>
      refine ⟨fun _ hwaiting => (by cases hwaiting), ?_⟩
      have hpending : s.pending = [(request, .ofError err)] := by rw [State.pending, hrefusing]
      have hrefused := h.refused
      rw [hpending] at hrefused
      exact hrefused.trans (List.sublist_append_left _ _)
    | handled response =>
      simp only [VoiceHandler.step] at ht
      split at ht <;> cases ht
      next request hhandling =>
      refine ⟨fun _ hwaiting => (by cases hwaiting), ?_⟩
      have hpending : s.pending = [] := by rw [State.pending, hhandling]
      have hrefused := h.refused
      rw [hpending, List.append_nil] at hrefused
      exact (hrefused.trans (List.sublist_append_left _ [(request, response)])).trans
        (List.sublist_append_left _ _)
    | stop =>
      simp only [VoiceHandler.step] at ht
      split at ht <;> cases ht
      next hidle =>
      exact ⟨fun _ hwaiting => (by cases hwaiting),
        (h.refused_of_idle hidle).trans (List.sublist_append_left _ _)⟩
    | _ => cases hactor

/-! ## The wait -/

/-- A catalog request that is dispatched while `initialize` holds the mutex waits for it. -/
theorem waiting_of_not_whenFree (hfree : ¬ WhenFree s a) (ht : step config s a = some t) :
    ∃ request queue, s.queue = .request request :: queue ∧ t.dispatcher = .waiting request ∧ t.begin = s.begin ∧
      s.begin.locked = true ∧ t.first = s.first ∧ t.answers = s.answers := by
  cases a with
  | dispatch =>
    obtain ⟨hidle, ⟨name, queue, hqueue, rfl⟩ | ⟨request, queue, hqueue, rfl⟩⟩ := dispatch_cases ht
    · exact absurd (by simp [WhenFree, hidle, hqueue]) hfree
    · have hcatalog : request.Method ∈ voiceMethods ∧ s.begin.locked = true := by
        simpa [WhenFree, hidle, hqueue] using hfree
      obtain ⟨hmethod, hlocked⟩ := hcatalog
      refine ⟨request, queue, hqueue, ?_, ?_, hlocked, ?_, ?_⟩ <;> simp [State.onRequest, hmethod, hlocked]
  | _ => exact absurd trivial hfree

/-- If the peer waits for the answer, and `initialize` for the peer, the wait is a cycle. -/
theorem cycle_of_not_whenFree (hfree : ¬ WhenFree s a) (ht : step config s a = some t) (hwaits : s.begin = .waiting)
    (hfirst : ∀ request queue, s.queue = .request request :: queue →
      request ∈ s.first ∧ ∀ answer ∈ s.answers, answer.1 ≠ request) : t.Cycle := by
  obtain ⟨request, queue, hqueue, hwaiting, hbegin, -, hfirst', hanswers⟩ := waiting_of_not_whenFree hfree ht
  refine ⟨hbegin.trans hwaits, request, hwaiting, ?_⟩
  rw [hfirst', hanswers]
  exact hfirst request queue hqueue

/-- A wait cycle is left only when the wait of `initialize` is abandoned. -/
theorem State.Cycle.step (h : s.Cycle) (ht : step config s a = some t) : t.Cycle ∨ ∃ err, a = .abandon err := by
  obtain ⟨hwaits, request, hwaiting, hfirst, hanswers⟩ := h
  cases a with
  | abandon err => exact .inr ⟨err, rfl⟩
  | answer result =>
    have hsatisfied : s.satisfied = false := by
      rw [Bool.eq_false_iff]
      intro hsatisfied
      have hanswered := List.all_eq_true.mp hsatisfied request hfirst
      obtain ⟨answer, hmem, heq⟩ := List.any_eq_true.mp hanswered
      exact hanswers answer hmem (of_decide_eq_true heq)
    simp [VoiceHandler.step, hwaits, hsatisfied] at ht
  | arrive frame first =>
    cases ht
    refine .inl ⟨hwaits, request, hwaiting, ?_, hanswers⟩
    cases frame with
    | event name => exact hfirst
    | request other =>
      cases first with
      | true => exact List.mem_append_left _ hfirst
      | false => exact hfirst
  | acquire =>
    have hlocked : s.begin.locked = true := by rw [hwaits]; rfl
    simp [VoiceHandler.step, hwaiting, hlocked] at ht
  | _ => simp [VoiceHandler.step, hwaits, hwaiting] at ht

/-! ## The result -/

/-- Along a schedule the initialization does not block the dispatcher exactly if no catalog request is dispatched
while `initialize` holds the mutex. -/
theorem prompt_iff_whenFree (config : Config) (s : State) (schedule : List Action)
    (hexec : (machine config).exec initial schedule = some s) :
    (machine config).Throughout State.Prompt initial schedule ↔
      (machine config).Along WhenFree initial schedule := by
  refine Machine.throughout_iff_along (I := State.Inv) (fun _ h => h.prompt) (fun _ _ _ h hfree ht => h.step hfree ht)
    (fun s a t _ hfree ht hprompt => ?_) inv_initial hexec
  obtain ⟨request, queue, -, hwaiting, hbegin, hlocked, -, -⟩ := waiting_of_not_whenFree hfree ht
  have hunlocked := hprompt.unblocked request hwaiting
  rw [hbegin, hlocked] at hunlocked
  cases hunlocked

/-- A handler for 8 kHz. -/
def voiceConfig : Config := ⟨true, ⟨"L16", 8000, 16, 1, 20000000⟩⟩

/-- One request comes before `initialize` locks, and one after it has returned. -/
def promptRun : List Action :=
  [.begin, .arrive (.request ⟨"1", "ping"⟩) true, .dispatch, .respond, .lock, .send none,
    .answer (.ok (some (audioCodec voiceConfig.audioFormat))), .select, .acceptAudio none, .notify none,
    .arrive (.request ⟨"2", "ping"⟩) false, .dispatch, .handled ⟨.nil, none⟩, .finish none]

theorem promptRun_prompt : (machine voiceConfig).Throughout State.Prompt initial promptRun := by
  have hexec : (machine voiceConfig).exec initial promptRun = some _ := rfl
  exact (prompt_iff_whenFree voiceConfig _ promptRun hexec).mpr (by decide)

/-- The peer sends a request when it has got `session.initialize`, and waits for the answer. -/
def cyclicRun : List Action :=
  [.begin, .lock, .send none, .arrive (.request ⟨"1", "session.get"⟩) true, .dispatch]

/-- The request waits for the mutex, and `initialize` for the peer. -/
theorem cyclicRun_cycle :
    ∃ s, (machine voiceConfig).exec initial cyclicRun = some s ∧ s.Cycle ∧ ¬ s.Prompt := by
  refine ⟨_, rfl, ⟨rfl, ⟨"1", "session.get"⟩, rfl, List.mem_cons_self, ?_⟩, fun hprompt => ?_⟩
  · intro answer hanswer
    cases hanswer
  · have hunlocked := hprompt.unblocked ⟨"1", "session.get"⟩ rfl
    cases hunlocked

end Rtvbp.Go.VoiceHandler
