import Rtvbp.Rust.Session.Reply
import Mathlib.Tactic

/-!
# Proofs: the reply obligation

`compare_exchange` lets one call through, the owner of the reply, and marks the reply as sent before the
frame is encoded. From there the owner hands one frame to `send`, or finds the session closing, or has
its frame rejected. The last is where the obligation breaks: a call of the handler returns the error and
requests no stop, so exactly these steps have to be excluded.
-/

namespace Rtvbp.Rust.Reply

open Rtvbp.Lib Rtvbp.Envelope.Rust

variable {ι : Type} {s s' : Shared (Option ι)} {i : Option ι} {c c' : Call}

/-! ## The invariant -/

/-- What holds of the shared state. -/
structure Inv (requestId : String) (s : Shared (Option ι)) : Prop where
  sent_iff : s.status = .sent ↔ s.owner.isSome = true
  handed : s.handed ≠ [] → s.owner.isSome = true
  at_most_one : s.handed.length ≤ 1
  addressed : ∀ frame ∈ s.handed, frame.kind = .response ∧ frame.correlationId = requestId
  returned : s.phase = .returned → s.status ≠ .unclaimed
  stopped : s.closing = true → s.stop = true

/-- What holds of a call, point by point. -/
def CallInv (i : Option ι) (s : Shared (Option ι)) : Call → Prop
  | .idle | .looking _ => s.owner ≠ some i
  | .loaded _ status => s.owner ≠ some i ∧ status ≠ .sent
  | .claimed _ | .encoding _ => s.owner = some i ∧ s.handed = []
  | .sending _ | .sleeping => s.owner = some i ∧ s.handed ≠ []
  | .failing _ => s.status = .sent
  | .returned _ =>
    (i = none → s.status = .sent) ∧ (s.owner = some i → s.handed ≠ [] ∨ s.stop = true)
  | .dropped => s.handed ≠ []

theorem Inv.sent_of_owner {requestId : String} (h : Inv requestId s) (hown : s.owner = some i) :
    s.status = .sent := by
  rw [h.sent_iff, hown]
  rfl

/-- A call that ends with an error has seen the reply sent, and if it is the owner there is a frame or a
stop, unless `handle_request` is about to request one. -/
theorem CallInv.of_error {error : Error} (hsent : s.status = .sent)
    (hdone : s.owner = some i → reported i s.phase error = false → s.handed ≠ [] ∨ s.stop = true) :
    CallInv i s (.error i s.phase error) := by
  unfold Call.error
  split_ifs with hreported
  · exact hsent
  · refine ⟨fun _ => hsent, fun hown => hdone hown ?_⟩
    simpa using hreported

/-! ## Interference -/

/-- What the steps of others leave alone: the owner, the frames unless they are the owner, and the
flags. -/
structure Rely (i : Option ι) (s s' : Shared (Option ι)) : Prop where
  owner : s'.owner = some i ↔ s.owner = some i
  handed : s.owner = some i → s'.handed = s.handed
  kept : s.handed ≠ [] → s'.handed ≠ []
  sent : s.status = .sent → s'.status = .sent
  stop : s.stop = true → s'.stop = true

theorem Rely.refl (i : Option ι) (s : Shared (Option ι)) : Rely i s s :=
  ⟨Iff.rfl, fun _ => rfl, id, id, id⟩

theorem CallInv.rely (h : CallInv i s c) (hrely : Rely i s s') : CallInv i s' c := by
  cases c with
  | idle | looking response => exact fun hown => h (hrely.owner.mp hown)
  | loaded response status => exact ⟨fun hown => h.1 (hrely.owner.mp hown), h.2⟩
  | claimed response | encoding response =>
    obtain ⟨hown, hnil⟩ := h
    exact ⟨hrely.owner.mpr hown, (hrely.handed hown).trans hnil⟩
  | sending closeAfter | sleeping => exact ⟨hrely.owner.mpr h.1, hrely.kept h.2⟩
  | failing error => exact hrely.sent h
  | returned error =>
    refine ⟨fun hi => hrely.sent (h.1 hi), fun hown => ?_⟩
    exact (h.2 (hrely.owner.mp hown)).imp hrely.kept hrely.stop
  | dropped => exact hrely.kept h

/-! ## The steps -/

/-- A successful `compare_exchange`: nobody had claimed the reply. -/
theorem claim {requestId : String} (hK : Inv requestId s) (hnotSent : s.status ≠ .sent)
    (response : Response) :
    Inv requestId { s with status := .sent, owner := some i } ∧
      CallInv i { s with status := .sent, owner := some i } (.claimed response) ∧
      ∀ j, j ≠ i → Rely j s { s with status := .sent, owner := some i } := by
  have hnone : s.owner = none := by
    rw [← Option.not_isSome_iff_eq_none, ← hK.sent_iff]
    exact hnotSent
  have hnil : s.handed = [] := by
    by_contra hne
    have howner := hK.handed hne
    rw [hnone] at howner
    cases howner
  refine ⟨⟨by simp, by simp, hK.at_most_one, hK.addressed, by simp, hK.stopped⟩, ⟨rfl, hnil⟩,
    fun j hj => ⟨?_, fun _ => rfl, id, fun _ => rfl, id⟩⟩
  rw [hnone]
  simp [hj.symm]

/-- The owner hands its frame to `send`. -/
theorem handOver {requestId : String} (hK : Inv requestId s) (hown : s.owner = some i)
    (hnil : s.handed = []) (response : Response) :
    Inv requestId { s with handed := s.handed ++ [response.frame requestId] } ∧
      CallInv i { s with handed := s.handed ++ [response.frame requestId] }
        (.sending response.closeAfter) ∧
      ∀ j, j ≠ i → Rely j s { s with handed := s.handed ++ [response.frame requestId] } := by
  refine ⟨⟨hK.sent_iff, fun _ => by simp [hown], by simp [hnil], ?_, hK.returned, hK.stopped⟩,
    ⟨hown, by simp⟩, fun j hj => ⟨Iff.rfl, fun ho => ?_, fun _ => by simp, id, id⟩⟩
  · simp [hnil, Response.frame, ControlFrame.response]
  · rw [hown] at ho
    exact absurd (Option.some.inj ho).symm hj

/-- A stop request. -/
theorem requestStop {requestId : String} (hK : Inv requestId s) :
    Inv requestId { s with stop := true } ∧ ∀ j, Rely j s { s with stop := true } :=
  ⟨⟨hK.sent_iff, hK.handed, hK.at_most_one, hK.addressed, hK.returned, fun _ => rfl⟩,
    fun _ => ⟨Iff.rfl, fun _ => rfl, id, id, fun _ => rfl⟩⟩

/-- One step of a call keeps the invariant and does not interfere with other calls. -/
theorem act_inv {β : Type} {encode : ControlFrame → Except Error β} {requestId : String}
    {a : CallAction} (hK : Inv requestId s) (h : CallInv i s c) (hG : Encodes encode requestId i s c a)
    (hstep : act encode requestId i s c a = some (s', c')) :
    Inv requestId s' ∧ CallInv i s' c' ∧ ∀ j, j ≠ i → Rely j s s' := by
  have hrefl : ∀ j, j ≠ i → Rely j s s := fun j _ => .refl j s
  cases a with
  | respond response =>
    simp only [act] at hstep
    split at hstep <;> cases hstep
    exact ⟨hK, h, hrefl⟩
  | detached =>
    simp only [act] at hstep
    split at hstep <;> cases hstep
    refine ⟨hK, ⟨fun hi => ?_, fun hown => absurd hown h⟩, hrefl⟩
    cases hi
  | answer =>
    simp only [act] at hstep
    split at hstep <;> cases hstep
    exact ⟨hK, h, hrefl⟩
  | load =>
    simp only [act] at hstep
    split at hstep
    · split_ifs at hstep with hsent <;> cases hstep
      · exact ⟨hK, .of_error hsent fun hown => absurd hown h, hrefl⟩
      · exact ⟨hK, ⟨h, hsent⟩, hrefl⟩
    · cases hstep
  | compareExchange =>
    simp only [act] at hstep
    split at hstep
    · next response status =>
      obtain ⟨hown, hnotSent⟩ := h
      split_ifs at hstep with hstatus <;> cases hstep
      · rw [← hstatus] at hnotSent
        exact claim hK hnotSent response
      · exact ⟨hK, hown, hrefl⟩
    · cases hstep
  | look =>
    simp only [act] at hstep
    split at hstep
    · obtain ⟨hown, hnil⟩ := h
      split_ifs at hstep with hclosing <;> cases hstep
      · have hstop : s.stop = true := hK.stopped hclosing
        exact ⟨hK, .of_error (hK.sent_of_owner hown) fun _ _ => .inr hstop, hrefl⟩
      · exact ⟨hK, ⟨hown, hnil⟩, hrefl⟩
    · cases hstep
  | send =>
    simp only [act] at hstep
    split at hstep
    · next response =>
      obtain ⟨hown, hnil⟩ := h
      simp only [Encodes] at hG
      split at hstep <;> cases hstep
      · next error hencode =>
        rw [hencode] at hG
        refine ⟨hK, .of_error (hK.sent_of_owner hown) fun _ hreported => ?_, hrefl⟩
        rcases hG with hstop | hreports
        · exact .inr hstop
        · rw [hreported] at hreports
          cases hreports
      · exact handOver hK hown hnil response
    · cases hstep
  | sendReturns error =>
    simp only [act] at hstep
    split at hstep <;> cases hstep
    · exact ⟨hK, .of_error (hK.sent_of_owner h.1) fun _ _ => .inl h.2, hrefl⟩
    · exact ⟨hK, h, hrefl⟩
    · exact ⟨hK, ⟨fun _ => hK.sent_of_owner h.1, fun _ => .inl h.2⟩, hrefl⟩
  | wake =>
    simp only [act] at hstep
    split at hstep <;> cases hstep
    obtain ⟨hK', hothers⟩ := requestStop hK
    exact ⟨hK', ⟨fun _ => hK.sent_of_owner h.1, fun _ => .inr rfl⟩, fun j _ => hothers j⟩
  | requestFailure =>
    simp only [act] at hstep
    split at hstep <;> cases hstep
    obtain ⟨hK', hothers⟩ := requestStop hK
    exact ⟨hK', ⟨fun _ => h, fun _ => .inr rfl⟩, fun j _ => hothers j⟩
  | drop =>
    simp only [act] at hstep
    split at hstep <;> cases hstep
    · exact ⟨hK, h.2, hrefl⟩
    · exact ⟨hK, h.2, hrefl⟩

/-- A step of `handle_request` itself. -/
theorem phase_inv {requestId : String} (hK : Inv requestId s) {phase : Phase}
    (hreturned : phase = .returned → s.status ≠ .unclaimed) :
    Inv requestId { s with phase := phase } ∧ ∀ j, Rely j s { s with phase := phase } :=
  ⟨⟨hK.sent_iff, hK.handed, hK.at_most_one, hK.addressed, hreturned, hK.stopped⟩,
    fun _ => ⟨Iff.rfl, fun _ => rfl, id, id, id⟩⟩

/-- The steps of everybody else. -/
theorem env_inv {requestId : String} {e : EnvAction} (hK : Inv requestId s) (hstep : env s e = some s') :
    Inv requestId s' ∧ ∀ j, Rely j s s' := by
  cases e with
  | handlerReturns outcome =>
    simp only [env] at hstep
    split at hstep <;> cases hstep
    all_goals exact phase_inv hK fun hphase => by cases hphase
  | test =>
    simp only [env] at hstep
    split at hstep <;> cases hstep
    · refine phase_inv hK fun hphase => ?_
      split_ifs at hphase with hunclaimed
      exact hunclaimed
    · refine phase_inv hK fun hphase => ?_
      split_ifs at hphase with hsent
      rw [hsent]
      decide
    · refine phase_inv hK fun hphase => ?_
      split_ifs at hphase with hunclaimed
      exact hunclaimed
  | deferResponse =>
    cases hstep
    by_cases hunclaimed : s.status = .unclaimed
    · simp only [hunclaimed, if_true]
      have hsent := hK.sent_iff
      rw [hunclaimed] at hsent
      refine ⟨⟨by simpa using hsent, hK.handed, hK.at_most_one, hK.addressed, by simp, hK.stopped⟩,
        fun j => ⟨Iff.rfl, fun _ => rfl, id, fun hs => ?_, id⟩⟩
      rw [hunclaimed] at hs
      cases hs
    · simp only [if_neg hunclaimed]
      exact ⟨hK, fun j => .refl j s⟩
  | requestStop =>
    cases hstep
    exact requestStop hK
  | beginShutdown =>
    simp only [env, Option.ite_none_right_eq_some] at hstep
    obtain ⟨hstop, hstep⟩ := hstep
    cases hstep
    exact ⟨⟨hK.sent_iff, hK.handed, hK.at_most_one, hK.addressed, hK.returned, fun _ => hstop⟩,
      fun j => ⟨Iff.rfl, fun _ => rfl, id, id, id⟩⟩

/-! ## Runs -/

theorem inv_start {requestId : String} (h : Start s) :
    Inv requestId s ∧ ∀ i, CallInv i s Call.idle := by
  obtain ⟨hstatus, hphase, hhanded, howner, hstopped⟩ := h
  refine ⟨⟨by simp [hstatus, howner], by simp [hhanded], by simp [hhanded], by simp [hhanded],
    by simp [hphase], hstopped⟩, fun i => ?_⟩
  simp [CallInv, howner]

/-- A reply marked as sent has a frame, a stop, or an owner under way. -/
theorem settled_of_sent {requestId : String} {s : State ι}
    (h : Threads.Holds (Inv requestId) CallInv s) (hsent : s.shared.status = .sent)
    (hquiet : ¬ s.underWay) : s.shared.handed ≠ [] ∨ s.shared.stop = true := by
  obtain ⟨i, hown⟩ := Option.isSome_iff_exists.mp (h.1.sent_iff.mp hsent)
  have hcall := h.thread i
  have hidle : (s.locals i).underWay ≠ true := fun hway => hquiet ⟨i, hown, hway⟩
  cases hc : s.locals i with
  | idle | looking response => exact absurd hown (by rw [hc] at hcall; exact hcall)
  | loaded response status => exact absurd hown (by rw [hc] at hcall; exact hcall.1)
  | claimed response | encoding response | failing error => exact absurd (by rw [hc]; rfl) hidle
  | sending closeAfter | sleeping => exact .inl (by rw [hc] at hcall; exact hcall.2)
  | returned error => exact (by rw [hc] at hcall; exact hcall.2 hown)
  | dropped => exact .inl (by rw [hc] at hcall; exact hcall)

/-- The invariant gives the obligation. -/
theorem obligation_of_holds {requestId : String} {s : State ι}
    (h : Threads.Holds (Inv requestId) CallInv s) : s.Obligation requestId where
  at_most_one := h.1.at_most_one
  addressed := h.1.addressed
  marked := settled_of_sent h
  answered := by
    intro hhandled hquiet
    have hstatus : s.shared.status ≠ .unclaimed := by
      rcases hhandled with hphase | ⟨answer, error, -, hreturned⟩
      · exact h.1.returned hphase
      · have hcall := h.thread none
        rw [hreturned] at hcall
        rw [hcall.1 rfl]
        decide
    cases hs : s.shared.status with
    | unclaimed => exact absurd hs hstatus
    | deferred => exact .inr (.inl rfl)
    | sent => exact (settled_of_sent h hs hquiet).imp_right .inr

/-- A step that does not meet the condition leaves the reply marked as sent, without a frame and without a
stop. -/
theorem not_obligation_of_not_encodes [DecidableEq ι] {β : Type}
    {encode : ControlFrame → Except Error β} {requestId : String} {s t : State ι}
    {a : Threads.Action (Option ι) CallAction EnvAction} (h : Threads.Holds (Inv requestId) CallInv s)
    (hG : ¬ Threads.When (Encodes encode requestId) (fun _ _ => True) s a)
    (hstep : (threads encode requestId).machine.step s a = some t) : ¬ t.Obligation requestId := by
  cases a with
  | env e => exact absurd trivial hG
  | act i a =>
    obtain ⟨⟨shared, c'⟩, hact, rfl⟩ := Option.map_eq_some_iff.mp hstep
    simp only [Threads.When, Encodes] at hG
    split at hG
    · split at hG
      · next response hc =>
        split at hG
        · exact absurd trivial hG
        · next error hencode =>
          obtain ⟨hstop, hreported⟩ := not_or.mp hG
          have hcall := h.thread i
          rw [hc] at hcall
          obtain ⟨hown, hnil⟩ := hcall
          simp only [threads, act, hc, hencode, Call.error, if_neg hreported, Option.some.injEq,
            Prod.mk.injEq] at hact
          obtain ⟨rfl, rfl⟩ := hact
          intro hobligation
          have hquiet : ¬ State.underWay (⟨s.shared, Function.update s.locals i (.returned (some error))⟩ :
              State ι) := by
            rintro ⟨j, hj, hway⟩
            obtain rfl : i = j := Option.some.inj (hown.symm.trans hj)
            simp [Call.underWay] at hway
          rcases hobligation.marked (h.1.sent_of_owner hown) hquiet with hhanded | hstopped
          · exact hhanded hnil
          · exact hstop hstopped
      · exact absurd trivial hG
    · exact absurd trivial hG

/-- The reply obligation holds throughout a run exactly if no step of it has a frame rejected for which
nobody requests a stop. -/
theorem obligation_iff_encodes [DecidableEq ι] {β : Type} (encode : ControlFrame → Except Error β)
    (requestId : String) (s t : State ι)
    (run : List (Threads.Action (Option ι) CallAction EnvAction))
    (hstart : (threads encode requestId).machine.Start s)
    (hrun : (threads encode requestId).machine.exec s run = some t) :
    (threads encode requestId).machine.Throughout (State.Obligation requestId) s run ↔
      (threads encode requestId).machine.Along
        (Threads.When (Encodes encode requestId) fun _ _ => True) s run := by
  refine Machine.throughout_iff_along (I := Threads.Holds (Inv requestId) CallInv)
    (fun _ h => obligation_of_holds h) ?_ ?_ ?_ hrun
  · intro s a t hs hG hstep
    refine hs.step ?_ ?_ hG hstep
    · intro i s c a s' c' hK hc hG hstep
      obtain ⟨hK', hown, hothers⟩ := act_inv hK hc hG hstep
      exact ⟨hK', hown, fun j m hj hm => hm.rely (hothers j hj)⟩
    · intro s e s' hK _ hstep
      obtain ⟨hK', hothers⟩ := env_inv hK hstep
      exact ⟨hK', fun j m hm => hm.rely (hothers j)⟩
  · intro s a t hs hG hstep
    exact not_obligation_of_not_encodes hs hG hstep
  · obtain ⟨hs, hlocals⟩ := hstart
    obtain ⟨hK, hJ⟩ := inv_start hs
    refine ⟨hK, fun i => ?_⟩
    rw [hlocals]
    exact hJ i

/-- A request whose handler has just been called. -/
def taken : State Nat where
  shared :=
    { status := .unclaimed, closing := false, stop := false, phase := .handling, handed := [],
      owner := none }
  locals _ := .idle

/-- The handler calls `respond`, drops the future while it waits for `send`, and returns a payload that is
not needed any more. -/
def droppedRun : List (Threads.Action (Option Nat) CallAction EnvAction) :=
  [.act (some 0) (.respond ⟨some .null, none, false⟩), .act (some 0) .load,
    .act (some 0) .compareExchange, .act (some 0) .look, .act (some 0) .send, .act (some 0) .drop,
    .env (.handlerReturns (.reply .null false)), .env .test]

theorem droppedRun_obligation :
    ∃ t : State Nat, (threads (encodeWith (renderCodec .synthetic)) "r-1").machine.exec taken
        droppedRun = some t ∧ State.handled t ∧
      (threads (encodeWith (renderCodec .synthetic)) "r-1").machine.Throughout
        (State.Obligation "r-1") taken droppedRun := by
  refine ⟨_, rfl, .inl rfl, ?_⟩
  refine (obligation_iff_encodes (encodeWith (renderCodec .synthetic)) "r-1" taken _ droppedRun
    ⟨⟨rfl, rfl, rfl, rfl, by decide⟩, rfl⟩ rfl).mpr ?_
  decide

/-- The handler calls `respond_error` with a code that no envelope accepts, ignores the error it gets, and
returns a payload. -/
def rejectedRun : List (Threads.Action (Option Nat) CallAction EnvAction) :=
  [.act (some 0) (.respond ⟨none, some { code := 0, message := "busy", data := none }, false⟩),
    .act (some 0) .load, .act (some 0) .compareExchange, .act (some 0) .look, .act (some 0) .send,
    .env (.handlerReturns (.reply .null false)), .env .test]

theorem rejectedRun_not_obligation :
    ∃ t : State Nat, (threads (encodeWith (renderCodec .synthetic)) "r-1").machine.exec taken
        rejectedRun = some t ∧ State.handled t ∧ ¬ State.Obligation "r-1" t := by
  refine ⟨_, rfl, .inl rfl, fun hobligation => ?_⟩
  have hsettled := hobligation.marked rfl (by rintro ⟨i, hown, hway⟩; cases hown; cases hway)
  rcases hsettled with hhanded | hstop
  · exact hhanded rfl
  · cases hstop

end Rtvbp.Rust.Reply
