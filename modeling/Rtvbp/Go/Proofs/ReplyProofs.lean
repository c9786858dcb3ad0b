import Rtvbp.Go.Reply
import Mathlib.Tactic

/-!
# Proofs: the reply obligation

`CompareAndSwap` lets one call through, the owner of the reply. Every other call ends without a frame, and
the owner hands one frame to `Send` or requests a stop before it returns. When `handleRequest` returns, the
reply has left `unclaimed`, or its own call has found the session closing.
-/

namespace Rtvbp.Go.Reply

open Rtvbp.Lib Rtvbp.Envelope.Go

variable {ι : Type} {s s' : Shared (Option ι)} {i : Option ι} {c c' : Call}

/-! ## The invariant -/

/-- What holds of the shared state. -/
structure Inv (requestID : String) (s : Shared (Option ι)) : Prop where
  sent_iff : s.status = .sent ↔ s.owner.isSome = true
  handed : s.handed ≠ [] → s.owner.isSome = true
  at_most_one : s.handed.length ≤ 1
  addressed : ∀ frame ∈ s.handed, frame.Kind = .response ∧ frame.CorrelID = requestID
  returned : s.phase = .returned → s.status ≠ .unclaimed

/-- What holds of a call. -/
structure CallInv (i : Option ι) (s : Shared (Option ι)) (c : Call) : Prop where
  loaded : ∀ response closeAfter status, c = .loaded response closeAfter status → status ≠ .sent
  claims : c.claims = true → s.owner = some i
  unsent : ∀ response closeAfter, c = .claimed response closeAfter ∨ c = .encoding response closeAfter →
    s.handed = []
  sent : (∃ closeAfter, c = .sending closeAfter) ∨ c = .stopping none → s.handed ≠ []
  owner : s.owner = some i → c.claims = true ∨ ∃ err, c = .returned err
  returned : ∀ err, c = .returned err →
    (s.status = .sent ∨ s.closing = true) ∧ (s.owner = some i → s.handed ≠ [] ∨ s.closing = true)

theorem CallInv.idle (h : s.owner ≠ some i) : CallInv i s .idle where
  loaded _ _ _ hc := by cases hc
  claims hc := by cases hc
  unsent _ _ hc := by rcases hc with hc | hc <;> cases hc
  sent hc := by rcases hc with ⟨_, hc⟩ | hc <;> cases hc
  owner ho := absurd ho h
  returned _ hc := by cases hc

/-- A call that has not claimed the reply is not the owner. -/
theorem CallInv.not_owner (h : CallInv i s c) (hclaims : c.claims = false)
    (hreturned : ∀ err, c ≠ .returned err) : s.owner ≠ some i := by
  intro ho
  rcases h.owner ho with hc | ⟨err, hc⟩
  · rw [hclaims] at hc
    cases hc
  · exact hreturned err hc

/-- A call that moves on before it claims the reply. -/
theorem CallInv.move (h : s.owner ≠ some i) (hclaims : c.claims = false)
    (hloaded : ∀ response closeAfter status, c = .loaded response closeAfter status → status ≠ .sent)
    (hreturned : ∀ err, c = .returned err → s.status = .sent ∨ s.closing = true) : CallInv i s c where
  loaded := hloaded
  claims hc := by rw [hclaims] at hc; cases hc
  unsent _ _ hc := by rcases hc with rfl | rfl <;> cases hclaims
  sent hc := by rcases hc with ⟨_, rfl⟩ | rfl <;> cases hclaims
  owner ho := absurd ho h
  returned err hc := ⟨hreturned err hc, fun ho => absurd ho h⟩

/-- The owner before it hands its frame over. -/
theorem CallInv.of_unsent {response : Response} {closeAfter : Bool} (hown : s.owner = some i)
    (hnil : s.handed = [])
    (hc : c = .claimed response closeAfter ∨ c = .encoding response closeAfter) : CallInv i s c where
  loaded _ _ _ hl := by rcases hc with rfl | rfl <;> cases hl
  claims _ := hown
  unsent _ _ _ := hnil
  sent hs := by rcases hc with rfl | rfl <;> rcases hs with ⟨_, hs⟩ | hs <;> cases hs
  owner _ := .inl (by rcases hc with rfl | rfl <;> rfl)
  returned _ hr := by rcases hc with rfl | rfl <;> cases hr

/-- The owner before it requests a stop. -/
theorem CallInv.of_stopping {err : Option Error} (hown : s.owner = some i)
    (hsent : err = none → s.handed ≠ []) : CallInv i s (.stopping err) where
  loaded _ _ _ hl := by cases hl
  claims _ := hown
  unsent _ _ hc := by rcases hc with hc | hc <;> cases hc
  sent hc := by
    rcases hc with ⟨_, hc⟩ | hc
    · cases hc
    · exact hsent (by cases hc; rfl)
  owner _ := .inl rfl
  returned _ hc := by cases hc

/-- The owner when it returns. -/
theorem CallInv.of_returned {err : Option Error} (hsent : s.status = .sent)
    (hdone : s.handed ≠ [] ∨ s.closing = true) : CallInv i s (.returned err) where
  loaded _ _ _ hl := by cases hl
  claims hc := by cases hc
  unsent _ _ hc := by rcases hc with hc | hc <;> cases hc
  sent hc := by rcases hc with ⟨_, hc⟩ | hc <;> cases hc
  owner _ := .inr ⟨err, rfl⟩
  returned _ _ := ⟨.inl hsent, fun _ => hdone⟩

/-! ## Interference -/

/-- What the steps of others leave alone: the owner, the frames unless they are the owner, and the
flags. -/
structure Rely (i : Option ι) (s s' : Shared (Option ι)) : Prop where
  owner : s'.owner = some i ↔ s.owner = some i
  handed : s.owner = some i → s'.handed = s.handed
  kept : s.handed ≠ [] → s'.handed ≠ []
  sent : s.status = .sent → s'.status = .sent
  closing : s.closing = true → s'.closing = true

theorem CallInv.rely (h : CallInv i s c) (hrely : Rely i s s') : CallInv i s' c where
  loaded := h.loaded
  claims hc := hrely.owner.mpr (h.claims hc)
  unsent response closeAfter hc := by
    have hclaims : c.claims = true := by rcases hc with rfl | rfl <;> rfl
    rw [hrely.handed (h.claims hclaims)]
    exact h.unsent response closeAfter hc
  sent hc := hrely.kept (h.sent hc)
  owner ho := h.owner (hrely.owner.mp ho)
  returned err hc := by
    obtain ⟨hflags, hown⟩ := h.returned err hc
    refine ⟨hflags.imp hrely.sent hrely.closing, fun ho => ?_⟩
    exact (hown (hrely.owner.mp ho)).imp hrely.kept hrely.closing

theorem Rely.refl (i : Option ι) (s : Shared (Option ι)) : Rely i s s :=
  ⟨Iff.rfl, fun _ => rfl, id, id, id⟩

/-! ## The steps -/

/-- A successful `CompareAndSwap`: nobody had claimed the reply. -/
theorem claim {requestID : String} (hK : Inv requestID s) (hnotSent : s.status ≠ .sent)
    (response : Response) (closeAfter : Bool) :
    Inv requestID { s with status := .sent, owner := some i } ∧
      CallInv i { s with status := .sent, owner := some i } (.claimed response closeAfter) ∧
      ∀ j, j ≠ i → Rely j s { s with status := .sent, owner := some i } := by
  have hnone : s.owner = none := by
    rw [← Option.not_isSome_iff_eq_none, ← hK.sent_iff]
    exact hnotSent
  have hnil : s.handed = [] := by
    by_contra hne
    have howner := hK.handed hne
    rw [hnone] at howner
    cases howner
  refine ⟨⟨by simp, by simp, hK.at_most_one, hK.addressed, by simp⟩, .of_unsent rfl hnil (.inl rfl),
    fun j hj => ?_⟩
  refine ⟨?_, fun _ => rfl, id, fun _ => rfl, id⟩
  rw [hnone]
  simp [hj.symm]

/-- The owner hands its frame to `Send`. -/
theorem handOver {requestID : String} (hK : Inv requestID s) (hown : s.owner = some i)
    (hnil : s.handed = []) (response : Response) (closeAfter : Bool) :
    Inv requestID { s with handed := s.handed ++ [response.frame requestID] } ∧
      CallInv i { s with handed := s.handed ++ [response.frame requestID] } (.sending closeAfter) ∧
      ∀ j, j ≠ i → Rely j s { s with handed := s.handed ++ [response.frame requestID] } := by
  refine ⟨⟨hK.sent_iff, fun _ => by simp [hown], by simp [hnil], ?_, hK.returned⟩, ?_, fun j hj => ?_⟩
  · simp [hnil, Response.frame]
  · exact
      { loaded := fun _ _ _ hl => by cases hl
        claims := fun _ => hown
        unsent := fun _ _ hc => by rcases hc with hc | hc <;> cases hc
        sent := fun _ => by simp
        owner := fun _ => .inl rfl
        returned := fun _ hc => by cases hc }
  · refine ⟨Iff.rfl, fun ho => ?_, fun _ => by simp, id, id⟩
    rw [hown] at ho
    exact absurd (Option.some.inj ho).symm hj

/-- One step of a call keeps the invariant and does not interfere with other calls. -/
theorem act_inv {β : Type} {encode : ControlFrame → Except Error β} {requestID : String}
    {a : CallAction} (hK : Inv requestID s) (h : CallInv i s c)
    (hstep : act encode requestID i s c a = some (s', c')) :
    Inv requestID s' ∧ CallInv i s' c' ∧ ∀ j, j ≠ i → Rely j s s' := by
  cases a with
  | respond response closeAfter =>
    simp only [act] at hstep
    split at hstep
    · cases hstep
      exact ⟨hK, .move (h.not_owner rfl (by simp)) rfl (by simp) (by simp), fun j _ => .refl j s⟩
    · cases hstep
  | answer =>
    simp only [act] at hstep
    split at hstep
    · cases hstep
      exact ⟨hK, .move (h.not_owner rfl (by simp)) rfl (by simp) (by simp), fun j _ => .refl j s⟩
    · cases hstep
  | check =>
    simp only [act] at hstep
    split at hstep
    · have hown := h.not_owner rfl (by simp)
      split_ifs at hstep with hclosing <;> cases hstep
      · exact ⟨hK, .move hown rfl (by simp) fun _ _ => .inr hclosing, fun j _ => .refl j s⟩
      · exact ⟨hK, .move hown rfl (by simp) (by simp), fun j _ => .refl j s⟩
    · cases hstep
  | load =>
    simp only [act] at hstep
    split at hstep
    · have hown := h.not_owner rfl (by simp)
      split_ifs at hstep with hsent <;> cases hstep
      · exact ⟨hK, .move hown rfl (by simp) fun _ _ => .inl hsent, fun j _ => .refl j s⟩
      · refine ⟨hK, .move hown rfl ?_ (by simp), fun j _ => .refl j s⟩
        rintro _ _ _ ⟨rfl⟩
        exact hsent
    · cases hstep
  | compareAndSwap =>
    simp only [act] at hstep
    split at hstep
    · next response closeAfter status =>
      have hown := h.not_owner rfl (by simp)
      split_ifs at hstep with hstatus <;> cases hstep
      · have hnotSent : s.status ≠ .sent := by
          rw [hstatus]
          exact h.loaded _ _ _ rfl
        exact claim hK hnotSent response closeAfter
      · exact ⟨hK, .move hown rfl (by simp) (by simp), fun j _ => .refl j s⟩
    · cases hstep
  | look =>
    simp only [act] at hstep
    split at hstep
    · next response closeAfter =>
      have hown := h.claims rfl
      split_ifs at hstep with hclosing <;> cases hstep
      · exact ⟨hK, .of_stopping hown fun herr => (by cases herr), fun j _ => .refl j s⟩
      · have hnil := h.unsent response closeAfter (.inl rfl)
        exact ⟨hK, .of_unsent hown hnil (.inr rfl), fun j _ => .refl j s⟩
    · cases hstep
  | send =>
    simp only [act] at hstep
    split at hstep
    · next response closeAfter =>
      have hown := h.claims rfl
      have hnil := h.unsent response closeAfter (.inr rfl)
      split at hstep <;> cases hstep
      · exact ⟨hK, .of_stopping hown fun herr => (by cases herr), fun j _ => .refl j s⟩
      · exact handOver hK hown hnil response closeAfter
    · cases hstep
  | sendReturns err =>
    simp only [act] at hstep
    split at hstep
    · cases hstep
      exact ⟨hK, .of_stopping (h.claims rfl) fun herr => (by cases herr), fun j _ => .refl j s⟩
    · cases hstep
      exact ⟨hK, .of_stopping (h.claims rfl) fun _ => h.sent (.inl ⟨true, rfl⟩), fun j _ => .refl j s⟩
    · cases hstep
      have hsent := hK.sent_iff.mpr (by rw [h.claims rfl]; rfl)
      exact ⟨hK, .of_returned hsent (.inl (h.sent (.inl ⟨false, rfl⟩))), fun j _ => .refl j s⟩
    · cases hstep
  | requestStop =>
    simp only [act] at hstep
    split at hstep
    · cases hstep
      have hsent := hK.sent_iff.mpr (by rw [h.claims rfl]; rfl)
      refine ⟨⟨hK.sent_iff, hK.handed, hK.at_most_one, hK.addressed, hK.returned⟩,
        .of_returned hsent (.inr rfl), fun j _ => ?_⟩
      exact ⟨Iff.rfl, fun _ => rfl, id, id, fun _ => rfl⟩
    · cases hstep

/-- The steps of everybody else. -/
theorem env_inv {requestID : String} {e : EnvAction} (hK : Inv requestID s) (hstep : env s e = some s') :
    Inv requestID s' ∧ ∀ j, Rely j s s' := by
  cases e with
  | handlerReturns err =>
    simp only [env] at hstep
    split at hstep <;> cases hstep
    · exact ⟨⟨hK.sent_iff, hK.handed, hK.at_most_one, hK.addressed, by simp⟩,
        fun j => ⟨Iff.rfl, fun _ => rfl, id, id, id⟩⟩
    · exact ⟨⟨hK.sent_iff, hK.handed, hK.at_most_one, hK.addressed, by simp⟩,
        fun j => ⟨Iff.rfl, fun _ => rfl, id, id, id⟩⟩
  | test =>
    simp only [env] at hstep
    split at hstep <;> cases hstep
    · refine ⟨⟨hK.sent_iff, hK.handed, hK.at_most_one, hK.addressed, ?_⟩,
        fun j => ⟨Iff.rfl, fun _ => rfl, id, id, id⟩⟩
      intro hphase
      dsimp only at hphase ⊢
      split_ifs at hphase with hsent
      rw [hsent]
      decide
    · refine ⟨⟨hK.sent_iff, hK.handed, hK.at_most_one, hK.addressed, ?_⟩,
        fun j => ⟨Iff.rfl, fun _ => rfl, id, id, id⟩⟩
      intro hphase
      dsimp only at hphase ⊢
      split_ifs at hphase with hunclaimed
      exact hunclaimed
  | deferResponse =>
    cases hstep
    by_cases hunclaimed : s.status = .unclaimed
    · simp only [hunclaimed, if_true]
      have hsent := hK.sent_iff
      rw [hunclaimed] at hsent
      refine ⟨⟨by simpa using hsent, hK.handed, hK.at_most_one, hK.addressed, by simp⟩,
        fun j => ⟨Iff.rfl, fun _ => rfl, id, fun hs => ?_, id⟩⟩
      rw [hunclaimed] at hs
      cases hs
    · simp only [if_neg hunclaimed]
      exact ⟨hK, fun j => .refl j s⟩
  | requestStop =>
    cases hstep
    exact ⟨⟨hK.sent_iff, hK.handed, hK.at_most_one, hK.addressed, hK.returned⟩,
      fun j => ⟨Iff.rfl, fun _ => rfl, id, id, fun _ => rfl⟩⟩
  | beginShutdown =>
    cases hstep
    exact ⟨⟨hK.sent_iff, hK.handed, hK.at_most_one, hK.addressed, hK.returned⟩,
      fun j => ⟨Iff.rfl, fun _ => rfl, id, id, fun _ => rfl⟩⟩

/-! ## Runs -/

theorem inv_start {requestID : String} (h : Start s) :
    Inv requestID s ∧ ∀ i, CallInv i s Call.idle := by
  obtain ⟨hstatus, hphase, hhanded, howner⟩ := h
  refine ⟨⟨by simp [hstatus, howner], by simp [hhanded], by simp [hhanded], by simp [hhanded],
    by simp [hphase]⟩, fun i => .idle (by simp [howner])⟩

/-- The reply has left `unclaimed` or the session is closing when `handleRequest` returns. -/
theorem not_unclaimed_of_handled {requestID : String} {s : State ι}
    (h : Threads.Holds (Inv requestID) CallInv s) (hhandled : s.handled) :
    s.shared.status ≠ .unclaimed ∨ s.shared.closing = true := by
  rcases hhandled with hphase | ⟨response, err, -, hreturned⟩
  · exact .inl (h.1.returned hphase)
  · rcases ((h.thread none).returned err hreturned).1 with hsent | hclosing
    · rw [hsent]
      exact .inl (by decide)
    · exact .inr hclosing

/-- In every state of every run the reply obligation is met. -/
theorem reply_obligation [DecidableEq ι] {β : Type} (encode : ControlFrame → Except Error β)
    (requestID : String) (s : State ι)
    (h : (threads encode requestID).machine.Reachable s) : s.Obligation requestID := by
  have hinv : Threads.Holds (Inv requestID) CallInv s := by
    refine Threads.reachable_invariant (fun s hs => inv_start hs) ?_ ?_ h
    · intro i s c a s' c' hK hc hstep
      obtain ⟨hK', hown, hothers⟩ := act_inv hK hc hstep
      exact ⟨hK', hown, fun j m hj hm => hm.rely (hothers j hj)⟩
    · intro s e s' hK hstep
      obtain ⟨hK', hothers⟩ := env_inv hK hstep
      exact ⟨hK', fun j m hm => hm.rely (hothers j)⟩
  refine ⟨hinv.1.at_most_one, hinv.1.addressed, fun hhandled => ?_⟩
  rcases not_unclaimed_of_handled hinv hhandled with hstatus | hclosing
  · cases hs : s.shared.status with
    | unclaimed => exact absurd hs hstatus
    | deferred => exact .inr (.inr (.inl rfl))
    | sent =>
      obtain ⟨i, hi⟩ := Option.isSome_iff_exists.mp (hinv.1.sent_iff.mp hs)
      rcases (hinv.thread i).owner hi with hclaims | ⟨err, hreturned⟩
      · exact .inr (.inl ⟨i, hclaims⟩)
      · rcases ((hinv.thread i).returned err hreturned).2 hi with hhanded | hclosing
        · exact .inl hhanded
        · exact .inr (.inr (.inr hclosing))
  · exact .inr (.inr (.inr hclosing))

/-- A request whose handler has just been called. -/
def taken : State Nat where
  shared := { status := .unclaimed, closing := false, phase := .handling, handed := [], owner := none }
  locals _ := .idle

/-- The handler defers the response and returns; two goroutines respond, and the slower one sees that the
reply is claimed. -/
def deferredRun : List (Threads.Action (Option Nat) CallAction EnvAction) :=
  [.env .deferResponse, .env (.handlerReturns none), .env .test,
    .act (some 0) (.respond ⟨.json (.string "a"), none⟩ false), .act (some 0) .check, .act (some 0) .load,
    .act (some 1) (.respond ⟨.json (.string "b"), none⟩ true), .act (some 1) .check,
    .act (some 1) .load, .act (some 0) .compareAndSwap, .act (some 0) .look,
    .act (some 1) .compareAndSwap, .act (some 1) .load, .act (some 0) .send,
    .act (some 0) (.sendReturns none)]

theorem deferredRun_obligation :
    ∃ s : State Nat, (threads (encodeWith (renderCodec .synthetic)) "r-1").machine.exec taken
        deferredRun = some s ∧ State.handled s ∧ s.shared.handed.length = 1 ∧ State.Obligation "r-1" s :=
  ⟨_, rfl, .inl rfl, rfl,
    reply_obligation (encodeWith (renderCodec .synthetic)) "r-1" _
      (@Machine.Reachable.of_exec _ _ (threads (encodeWith (renderCodec .synthetic)) "r-1").machine
        taken _ deferredRun ⟨⟨rfl, rfl, rfl, rfl⟩, rfl⟩ rfl)⟩

end Rtvbp.Go.Reply
