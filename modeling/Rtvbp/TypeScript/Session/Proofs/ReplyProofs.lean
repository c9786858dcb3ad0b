import Rtvbp.TypeScript.Session.Reply

/-!
# The reply obligation

`#respond` sets the status to `sent` before the response is encoded. If the encoder rejects a response
of the handler, or the automatic one, the request stays unanswered: the status keeps the `catch` block
from sending an error response. So the obligation is met throughout a run exactly if the encoder accepts
every response that claims the reply. Only the error response of the `catch` block may be rejected, for
then the session is stopped.
-/

namespace Rtvbp.TypeScript.Reply

open Rtvbp.Lib

variable {envelope : EnvelopeDescriptor} {requestId : String}

/-- The invariant of the runs in which every claiming response is accepted by the encoder. -/
structure Inv (s : State) : Prop extends s.Obligation where
  ended : s.ended = s.life.aborted
  not_inactive : s.life.state ≠ .inactive
  handed_sent : s.handed ≠ [] → s.status = .sent
  responding : ∀ closeAfter, s.phase = .responding closeAfter → s.handed ≠ []
  respondingError : s.phase = .respondingError → s.handed ≠ []
  failing : ∀ error, s.phase = .failing error → s.status = .sent ∨ s.life.aborted = true

/-- What `#respond` can do. -/
theorem respond_cases (envelope : EnvelopeDescriptor) (requestId : String) {s : State}
    (h : s.ended = s.life.aborted) (response : Response) :
    (∃ error, s.life.aborted = true ∧ s.respond envelope requestId response = (s, some error)) ∨
    (∃ error, s.life.aborted = false ∧ s.status = .sent ∧
      s.respond envelope requestId response = (s, some error)) ∨
    (∃ error, s.life.aborted = false ∧ s.status ≠ .sent ∧ ¬ response.encodes envelope requestId ∧
      s.respond envelope requestId response = ({ s with status := .sent }, some error)) ∨
    (∃ json, s.life.aborted = false ∧ s.status ≠ .sent ∧ response.encodes envelope requestId ∧
      s.respond envelope requestId response =
        ({ s with status := .sent, handed := s.handed ++ [json] }, none)) := by
  unfold State.respond State.sendFrame Response.encodes
  cases ha : s.life.aborted with
  | true =>
    left
    simp [h, ha]
  | false =>
    right
    by_cases hsent : s.status = .sent
    · left
      simp [h, ha, hsent]
    · right
      have hended : ({ s with status := .sent } : State).ended = false := by
        rw [← ha, ← h]
        rfl
      cases hen : envelope.encode (response.frame requestId) with
      | error e =>
        left
        simp [h, ha, hsent, hended]
      | ok json =>
        right
        simp [h, ha, hsent, hended]

theorem requestStop_ended {s : State} (h : s.ended = s.life.aborted) (hne : s.life.state ≠ .inactive)
    (cause : Option Thrown) (failed : Bool) :
    ({ s with life := s.life.requestStop cause failed } : State).ended = true ∧
      (s.life.requestStop cause failed).state ≠ .inactive := by
  cases ha : s.life.aborted with
  | true =>
    have hstate := @Lifecycle.requestStop_state_of_aborted _ s.life cause failed ha
    refine ⟨?_, by rw [hstate]; exact hne⟩
    rw [ha] at h
    simpa only [State.ended, hstate] using h
  | false =>
    have hstate := @Lifecycle.requestStop_state _ s.life cause failed ha hne
    simp [State.ended, hstate]

/-- A stop keeps the invariant. -/
theorem Inv.stop {s t : State} (h : Inv s) (cause : Option Thrown) (failed : Bool)
    (hlife : t.life = s.life.requestStop cause failed) (hstatus : t.status = s.status)
    (hhanded : t.handed = s.handed)
    (hphase : t.phase = s.phase ∨ t.phase = .returned) : Inv t := by
  obtain ⟨hended, hne⟩ := requestStop_ended h.ended h.not_inactive cause failed
  have haborted : t.life.aborted = true := by rw [hlife]; simp
  have htended : t.ended = true := by
    rw [← hended]
    simp only [State.ended, hlife]
  obtain ⟨⟨hone, hanswered, hleft⟩, -, -, hsent, hresponding, hrespondingError, hfailing⟩ := h
  refine ⟨⟨by grind, by grind, by grind⟩, by rw [htended, haborted], by rw [hlife]; exact hne,
    by grind, by grind, by grind, by grind⟩

/-- Calling `#respond` with a response that the encoder accepts keeps the invariant, and hands the
response to the channel if it does not throw. -/
theorem Inv.respond {s : State} (h : Inv s) {response : Response}
    (hencodes : s.status ≠ .sent → s.life.aborted = false → response.encodes envelope requestId) :
    Inv (s.respond envelope requestId response).1 ∧
      ((s.respond envelope requestId response).2 = none →
        (s.respond envelope requestId response).1.handed ≠ []) ∧
      (s.respond envelope requestId response).1.phase = s.phase := by
  rcases respond_cases envelope requestId h.ended response with ⟨e, ha, hr⟩ | ⟨e, ha, hs, hr⟩ |
    ⟨e, ha, hs, hne, hr⟩ | ⟨json, ha, hs, -, hr⟩
  · simpa [hr] using h
  · simpa [hr] using h
  · exact absurd (hencodes hs ha) hne
  · obtain ⟨⟨hone, hanswered, hleft⟩, hended, hinactive, hsent, hresponding, hrespondingError,
      hfailing⟩ := h
    have hnil : s.handed = [] := by grind
    rw [hr]
    refine ⟨⟨⟨by simp [hnil], by simp, by simp⟩, hended, hinactive, by simp, by simp, by simp,
      by simp⟩, by simp, by simp⟩

/-- A step that only moves `#handleRequest` on. -/
theorem Inv.move {s t : State} (h : Inv s) (hlife : t.life = s.life) (hstatus : t.status = s.status)
    (hhanded : t.handed = s.handed) (hold : ∀ error, s.phase ≠ .failing error)
    (hnew : t.phase = .returned → s.status ≠ .unclaimed)
    (hresponding : ∀ closeAfter, t.phase = .responding closeAfter → s.handed ≠ [])
    (hrespondingError : t.phase = .respondingError → s.handed ≠ [])
    (hfailing : ∀ error, t.phase = .failing error → s.status = .sent ∨ s.life.aborted = true) :
    Inv t := by
  have htended : t.ended = s.ended := by simp only [State.ended, hlife]
  obtain ⟨⟨hone, hanswered, hleft⟩, hended, hinactive, hsent, -, -, -⟩ := h
  refine ⟨⟨by grind, ?_, by grind⟩, by grind, by grind, by grind, by grind, by grind, by grind⟩
  intro hret
  have hst : s.status = .deferred ∨ s.status = .sent := by
    cases hs : s.status <;> simp_all
  grind

theorem Inv.deferResponse {s : State} (h : Inv s) : Inv s.deferResponse := by
  unfold State.deferResponse
  split_ifs with hended hstatus
  · exact h
  · obtain ⟨⟨hone, hanswered, hleft⟩, hended', hinactive, hsent, hresponding, hrespondingError,
      hfailing⟩ := h
    have hnil : s.handed = [] := by grind
    refine ⟨⟨hone, by simp, by simp⟩, hended', hinactive, by simp [hnil], hresponding,
      hrespondingError, ?_⟩
    intro error hphase
    have := hfailing error hphase
    grind
  · exact h

/-- `#handleRequest` continues after `dispatchRequest` has returned. -/
theorem Inv.afterDispatch {s : State} (h : Inv s) {result : Option Dispatched}
    (hphase : s.phase = .dispatched result)
    (hencodes : ∀ dispatched, result = some dispatched → s.status = .unclaimed →
      s.life.aborted = false → dispatched.response.encodes envelope requestId) :
    Inv (s.afterDispatch envelope requestId result) := by
  unfold State.afterDispatch
  split_ifs with hstatus
  · cases result with
    | none =>
      exact h.move rfl rfl rfl (by simp [hphase]) (by simp) (by simp) (by simp) (by simp)
    | some dispatched =>
      have hrespond := h.respond fun _ ha => hencodes dispatched rfl hstatus ha
      dsimp only
      revert hrespond
      generalize s.respond envelope requestId dispatched.response = r
      obtain ⟨u, e⟩ := r
      rintro ⟨hinv, hok, huphase⟩
      dsimp only at hinv hok huphase
      rw [hphase] at huphase
      cases e with
      | none =>
        exact hinv.move rfl rfl rfl (by simp [huphase]) (by simp) (fun _ _ => hok rfl) (by simp)
          (by simp)
      | some error =>
        exact hinv.move rfl rfl rfl (by simp [huphase]) (by simp) (by simp) (by simp) (by simp)
  · exact h.move rfl rfl rfl (by simp [hphase]) (fun _ => hstatus) (by simp) (by simp) (by simp)

/-- The `catch` block: a rejected error response leads to `failing`. -/
theorem Inv.afterCatch {s : State} (h : Inv s) {error : Thrown} (hphase : s.phase = .caught error) :
    Inv (s.afterCatch envelope requestId error) := by
  unfold State.afterCatch
  split_ifs with hstatus
  · exact h.move rfl rfl rfl (by simp [hphase]) (by simp [hstatus]) (by simp) (by simp) (by simp)
  · rcases respond_cases envelope requestId h.ended (.respondError (responseError error)) with
      ⟨e, ha, hr⟩ | ⟨e, ha, hs, hr⟩ | ⟨e, ha, hs, hne, hr⟩ | ⟨json, ha, hs, -, hr⟩
    · rw [hr]
      exact h.move rfl rfl rfl (by simp [hphase]) (by simp) (by simp) (by simp) (by simp [ha])
    · exact absurd hs hstatus
    · obtain ⟨⟨hone, -, -⟩, hended, hinactive, hsent, -, -, -⟩ := h
      have hnil : s.handed = [] := by grind
      rw [hr]
      exact ⟨⟨hone, by simp, by simp⟩, hended, hinactive, by simp [hnil], by simp, by simp, by simp⟩
    · obtain ⟨⟨hone, -, -⟩, hended, hinactive, hsent, -, -, -⟩ := h
      have hnil : s.handed = [] := by grind
      rw [hr]
      exact ⟨⟨by simp [hnil], by simp, by simp⟩, hended, hinactive, by simp, by simp, by simp,
        by simp⟩

/-- The session is stopped because of a failed error response. -/
theorem Inv.afterFailure {s : State} (h : Inv s) (error : Thrown) : Inv (s.afterFailure error) := by
  cases ha : s.life.aborted with
  | false =>
    refine h.stop (some error) true ?_ rfl rfl (Or.inr rfl)
    simp [State.afterFailure, ha]
  | true =>
    obtain ⟨⟨hone, -, -⟩, hended, hinactive, hsent, -, -, -⟩ := h
    have haborted : (s.afterFailure error).life = s.life := by simp [State.afterFailure, ha]
    refine ⟨⟨hone, by simp [haborted, ha], by simp [haborted, ha]⟩, ?_, ?_, hsent, ?_, ?_, ?_⟩
    · simpa only [State.ended, haborted] using hended
    · rwa [haborted]
    · simp [State.afterFailure]
    · simp [State.afterFailure]
    · simp [State.afterFailure]

/-- A step that meets the condition keeps the invariant. -/
theorem Inv.step {s t : State} {a : Action} (h : Inv s) (hG : s.encodable envelope requestId a)
    (hstep : step envelope requestId s a = some t) : Inv t := by
  cases a with
  | call response =>
    obtain rfl := Option.some.inj hstep
    exact (h.respond hG).1
  | deferResponse =>
    obtain rfl := Option.some.inj hstep
    exact h.deferResponse
  | handlerReturns result =>
    simp only [Reply.step] at hstep
    split at hstep
    · next hphase =>
      obtain rfl := Option.some.inj hstep
      exact h.move rfl rfl rfl (by simp [hphase]) (by simp) (by simp) (by simp) (by simp)
    · cases hstep
  | handlerThrows error =>
    simp only [Reply.step] at hstep
    split at hstep
    · next hphase =>
      obtain rfl := Option.some.inj hstep
      exact h.move rfl rfl rfl (by simp [hphase]) (by simp) (by simp) (by simp) (by simp)
    · cases hstep
  | resume =>
    simp only [Reply.step] at hstep
    split at hstep
    · next result hphase =>
      obtain rfl := Option.some.inj hstep
      refine h.afterDispatch hphase fun dispatched hresult => hG dispatched ?_
      rw [hphase, hresult]
    · next error hphase =>
      obtain rfl := Option.some.inj hstep
      exact h.afterCatch hphase
    · next error _ =>
      obtain rfl := Option.some.inj hstep
      exact h.afterFailure error
    · cases hstep
  | sendSettles error =>
    simp only [Reply.step] at hstep
    split at hstep
    · next closeAfter hphase =>
      obtain rfl := Option.some.inj hstep
      cases closeAfter with
      | true => exact h.stop none false rfl rfl rfl (Or.inr rfl)
      | false =>
        have hsent := h.handed_sent (h.responding _ hphase)
        exact h.move rfl rfl rfl (by simp [hphase]) (by simp [hsent]) (by simp) (by simp) (by simp)
    · next closeAfter error hphase =>
      obtain rfl := Option.some.inj hstep
      exact h.move rfl rfl rfl (by simp [hphase]) (by simp) (by simp) (by simp) (by simp)
    · next hphase =>
      obtain rfl := Option.some.inj hstep
      have hsent := h.handed_sent (h.respondingError hphase)
      exact h.move rfl rfl rfl (by simp [hphase]) (by simp [hsent]) (by simp) (by simp) (by simp)
    · next error hphase =>
      obtain rfl := Option.some.inj hstep
      have hsent := h.handed_sent (h.respondingError hphase)
      exact h.move rfl rfl rfl (by simp [hphase]) (by simp) (by simp) (by simp) (by simp [hsent])
    · cases hstep
  | stop cause failed =>
    obtain rfl := Option.some.inj hstep
    exact h.stop cause failed rfl rfl rfl (Or.inl rfl)
  | activate =>
    simp only [Reply.step, Option.ite_none_right_eq_some] at hstep
    obtain ⟨⟨-, haborted⟩, hstep⟩ := hstep
    obtain rfl := Option.some.inj hstep
    obtain ⟨⟨hone, hanswered, hleft⟩, -, -, hsent, hresponding, hrespondingError, hfailing⟩ := h
    exact ⟨⟨hone, hanswered, hleft⟩, by simp [State.ended, haborted], by simp, hsent, hresponding,
      hrespondingError, hfailing⟩
  | finish =>
    simp only [Reply.step, Option.ite_none_right_eq_some] at hstep
    obtain ⟨hclosing, hstep⟩ := hstep
    obtain rfl := Option.some.inj hstep
    obtain ⟨⟨hone, hanswered, hleft⟩, hended, -, hsent, hresponding, hrespondingError, hfailing⟩ := h
    have haborted : s.life.aborted = true := by rw [← hended]; simp [State.ended, hclosing]
    refine ⟨⟨hone, hanswered, hleft⟩, ?_, ?_, hsent, hresponding, hrespondingError, hfailing⟩
    · cases hf : s.life.stopFailed <;> simp [State.ended, Lifecycle.finish, haborted, hf]
    · cases hf : s.life.stopFailed <;> simp [Lifecycle.finish, hf]

/-- A step that claims the reply with a response that the encoder rejects breaks the obligation. -/
theorem not_obligation_of_not_encodable {s t : State} {a : Action} (h : Inv s)
    (hG : ¬ s.encodable envelope requestId a) (hstep : step envelope requestId s a = some t) :
    ¬ t.Obligation := by
  intro hobligation
  cases a with
  | call response =>
    simp only [State.encodable, not_forall] at hG
    obtain ⟨hstatus, haborted, hencodes⟩ := hG
    obtain rfl := Option.some.inj hstep
    rcases respond_cases envelope requestId h.ended response with ⟨e, ha, -⟩ | ⟨e, -, hs, -⟩ |
      ⟨e, -, -, -, hr⟩ | ⟨json, -, -, hen, -⟩
    · simp [haborted] at ha
    · exact hstatus hs
    · rw [hr] at hobligation
      rcases hobligation.not_left rfl with hne | ha | ⟨error, hphase⟩
      · exact hstatus (h.handed_sent hne)
      · simp [haborted] at ha
      · rcases h.failing error hphase with hs | ha
        · exact hstatus hs
        · simp [haborted] at ha
    · exact hencodes hen
  | resume =>
    simp only [State.encodable, not_forall] at hG
    obtain ⟨dispatched, hphase, hstatus, haborted, hencodes⟩ := hG
    have hsent : s.status ≠ .sent := by simp [hstatus]
    simp only [Reply.step, hphase, Option.some.injEq] at hstep
    rcases respond_cases envelope requestId h.ended dispatched.response with ⟨e, ha, -⟩ |
      ⟨e, -, hs, -⟩ | ⟨e, -, -, -, hr⟩ | ⟨json, -, -, hen, -⟩
    · simp [haborted] at ha
    · exact hsent hs
    · simp only [State.afterDispatch, hstatus, if_true, hr] at hstep
      rw [← hstep] at hobligation
      rcases hobligation.not_left rfl with hne | ha | ⟨error, hphase⟩
      · exact hsent (h.handed_sent hne)
      · simp [haborted] at ha
      · cases hphase
    · exact hencodes hen
  | _ => exact hG trivial

theorem inv_start {s : State} (h : Start s) : Inv s := by
  obtain ⟨hstate, haborted, hstatus, hhanded, hphase⟩ := h
  refine ⟨⟨by simp [hhanded], by simp [hphase], by simp [hstatus]⟩, ?_, ?_, by simp [hhanded],
    by simp [hphase], by simp [hphase], by simp [hphase]⟩
  · rcases hstate with hs | hs <;> simp [State.ended, hs, haborted]
  · rcases hstate with hs | hs <;> simp [hs]

/-- In every run of a request, the reply obligation holds in every state of the run exactly if no step
claims the reply with a response that the encoder rejects. -/
theorem obligation_iff_encodable (envelope : EnvelopeDescriptor) (requestId : String)
    (s t : State) (schedule : List Action) (hstart : Start s)
    (hexec : (machine envelope requestId).exec s schedule = some t) :
    (machine envelope requestId).Throughout State.Obligation s schedule ↔
      (machine envelope requestId).Along (State.encodable envelope requestId) s schedule :=
  Machine.throughout_iff_along (fun _ h => h.toObligation)
    (fun _ _ _ h hG hstep => h.step hG hstep)
    (fun _ _ _ h hG hstep => not_obligation_of_not_encodable h hG hstep) (inv_start hstart) hexec

/-- A request taken from the queue of an active session. -/
def taken : State where
  life := { state := .active, aborted := false, stopCause := none, stopFailed := false }
  status := .unclaimed
  phase := .handling
  handed := []

theorem taken_start : Start taken := ⟨Or.inr rfl, rfl, rfl, rfl, rfl⟩

/-- The handler returns a value. -/
def returning (value : WireEncodable) : List Action :=
  [.handlerReturns (some { result := some value, terminal := false }), .resume]

theorem returning_string_obligation :
    (machine (renderEnvelope Envelope.EnvelopeSpec.synthetic) "r-1").Throughout State.Obligation taken
      (returning (.string "ok")) := by
  refine (obligation_iff_encodable (renderEnvelope Envelope.EnvelopeSpec.synthetic) "r-1" taken _
    (returning (.string "ok")) taken_start rfl).mpr ⟨trivial, fun t ht => ?_⟩
  obtain rfl := Option.some.inj ht
  refine ⟨fun dispatched hphase _ _ => ?_, fun _ _ => trivial⟩
  cases hphase
  exact ⟨_, rfl⟩

/-- A handler that returns `NaN` leaves its request with status `sent` and no response, and the session
stays active. -/
theorem returning_nan_unanswered :
    ∃ t, (machine (renderEnvelope Envelope.EnvelopeSpec.synthetic) "r-1").exec taken
        (returning (.number (.nonFinite "NaN")) ++ [.resume]) = some t ∧
      t.phase = .returned ∧ t.status = .sent ∧ t.handed = [] ∧ t.life.state = .active ∧
      t.life.aborted = false :=
  ⟨_, rfl, rfl, rfl, rfl, rfl, rfl⟩

end Rtvbp.TypeScript.Reply
