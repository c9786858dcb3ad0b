import Rtvbp.Isolation.Handlers
import Rtvbp.Envelope.Proofs.PeerProofs

/-!
# Proofs: handlers that fail

`handleRequest` answers a request exactly if the codec encodes the error. Only a wire error of the handler
can fail to be encoded, since the text of every other error starts with a fixed part.
`handleRequest_eq_of_quiet` connects the function to the runs of `Rust.Reply`: a run in which the handler
fails and nobody else answers ends as the function says.
-/

namespace Rtvbp.Rust.Isolation

open Rtvbp.Lib Rtvbp.Envelope.Rust Rtvbp.Rust.Reply
open Rtvbp.Envelope (EnvelopeSpec FrameSpec Peer errorResponse errorResponse_encodable)

/-! ## The reply to a failing handler -/

section Answers

variable (tables : Tables)

/-- The frame that answers a request. -/
def Failing.frame (request : Failing) : ControlFrame :=
  (Answer.error request.error.toWire).response.frame request.id

/-- The text that answers a request. -/
def reply (request : Failing) : Option Json := (encodeWith tables request.frame).toOption

/-- An encoder error does not say that the session is closed. -/
theorem isSessionClosed_encodeWith {frame : ControlFrame} {error : Error}
    (h : encodeWith tables frame = .error error) : error.isSessionClosed = false := by
  unfold encodeWith at h
  split at h
  · cases h
  · cases h
    rfl
  · cases h
    rfl

theorem answers_reply : Server.Answers (handleRequest tables) (reply tables) := by
  intro s request hs
  unfold handleRequest respondHandlerError sendFrame reply Failing.frame
  cases hencode : encodeWith tables ((Answer.error request.error.toWire).response.frame request.id) with
  | error error =>
    simp [isSessionClosed_encodeWith tables hencode, Except.toOption]
  | ok json => rfl

theorem reply_eq_some_iff {request : Failing} {json : Json} :
    reply tables request = some json ↔ tables.encode request.frame = .ok json := by
  unfold reply encodeWith
  cases tables.encode request.frame with
  | ok v => simp [Except.toOption]
  | error e => cases e <;> simp [Except.toOption]

end Answers

theorem append_ne_empty {a : String} (b : String) (h : a ≠ "") : a ++ b ≠ "" :=
  fun hab => h (String.append_eq_empty_iff.mp hab).1

/-- The text of an error is not empty. -/
theorem display_ne_empty (error : Error) : error.display ≠ "" := by
  cases error <;> first | exact append_ne_empty _ (by decide) | exact (by decide)

theorem toWire_of_ne_handler {error : Error} (h : ∀ wire, error ≠ .handler wire) :
    error.toWire = { code := 500, message := error.display, data := none } := by
  cases error with
  | handler wire => exact absurd rfl (h wire)
  | _ => rfl

theorem toWire_encodable_iff {error : Error} :
    error.toWire.Encodable ↔ ∀ wire, error = .handler wire → wire.code ≠ 0 ∧ wire.message ≠ "" := by
  by_cases h : ∃ wire, error = .handler wire
  · obtain ⟨wire, rfl⟩ := h
    constructor
    · rintro he wire' ⟨⟩
      exact he
    · intro he
      exact he wire rfl
  · have hne : ∀ wire, error ≠ .handler wire := fun wire hw => h ⟨wire, hw⟩
    rw [toWire_of_ne_handler hne]
    have hcode : (500 : Int64) ≠ 0 := by decide
    exact iff_of_true ⟨hcode, display_ne_empty error⟩ fun wire hw => absurd hw (hne wire)

variable {spec : EnvelopeSpec}

/-- A request is answered by a text that the peer accepts exactly if its error is deliverable. -/
theorem reply_accepted_iff (json : TypeScript.LosslessJson) (h : spec.WellFormed) (peer : Peer)
    (request : Failing) :
    (∃ text, reply (renderCodec spec) request = some text ∧
        peer.Accepts json spec request.id text) ↔
      request.Deliverable json spec peer := by
  obtain ⟨shape, hshape, hkind, hframe⟩ := h.exists_frame .response
  have hiff := @encode_eq_ok_iff spec h shape (errorResponse request.id request.error.toWire) hshape
    hkind hframe
  simp only [reply_eq_some_iff, Failing.Deliverable, ← toWire_encodable_iff]
  constructor
  · rintro ⟨text, hencode, haccepts⟩
    obtain ⟨hencodable, rfl⟩ := hiff.mp hencode
    have he := (errorResponse_encodable.1 hencodable).2
    exact ⟨he, (Peer.accepts_iff h hshape hkind request.id_ne he peer).mp haccepts⟩
  · rintro ⟨he, htakes⟩
    have hencodable := errorResponse_encodable.2 ⟨request.id_ne, he⟩
    refine ⟨_, hiff.mpr ⟨hencodable, rfl⟩, ?_⟩
    exact (Peer.accepts_iff h hshape hkind request.id_ne he peer).mpr htakes

/-- The requests of a queue are isolated exactly if their errors are deliverable. -/
theorem isolated_iff_deliverable (json : TypeScript.LosslessJson) (h : spec.WellFormed) (peer : Peer)
    {s : Server Json} (hs : s.stopped = false) (queue : List Failing) :
    Server.Isolated (fun request text => peer.Accepts json spec request.id text)
        (dispatchControl (renderCodec spec)) s queue ↔
      ∀ request ∈ queue, request.Deliverable json spec peer := by
  rw [dispatchControl, Server.isolated_iff (answers_reply (renderCodec spec)) hs]
  exact forall₂_congr fun request _ => reply_accepted_iff json h peer request

/-! ## The calls for such a request -/

section Quiet

variable {ι : Type} (tables : Tables) (request : Failing)

/-- The reply is not sent. -/
def Fresh (s : Shared (Option ι)) : Prop := s.status ≠ .sent ∧ s.handed = []

/-- The frame of the error is handed to `send`. -/
def Answered (s : Shared (Option ι)) : Prop :=
  (∃ json, encodeWith tables request.frame = .ok json) ∧ s.handed = [request.frame] ∧ s.stop = false

/-- The frame of the error is not encoded. -/
def Refused (s : Shared (Option ι)) : Prop :=
  (∃ error, encodeWith tables request.frame = .error error) ∧ s.handed = []

/-- What holds while the call of `handle_request` is at a point of its program. -/
def At (s : Shared (Option ι)) (c : Call) : Prop :=
  match s.phase, c with
  | .handling, .idle => Fresh s ∧ s.stop = false
  | .failed error, .idle => error = request.error ∧ Fresh s ∧ s.stop = false
  | .answering answer, .idle => answer = .error request.error.toWire ∧ Fresh s ∧ s.stop = false
  | .answering answer, .looking response => answer = .error request.error.toWire ∧
      response = answer.response ∧ Fresh s ∧ s.stop = false
  | .answering answer, .loaded response status => answer = .error request.error.toWire ∧
      response = answer.response ∧ status ≠ .sent ∧ Fresh s ∧ s.stop = false
  | .answering answer, .claimed response => answer = .error request.error.toWire ∧
      response = answer.response ∧ s.handed = [] ∧ s.stop = false
  | .answering answer, .encoding response => answer = .error request.error.toWire ∧
      response = answer.response ∧ s.handed = [] ∧ s.stop = false
  | .answering _, .sending closeAfter => closeAfter = false ∧ Answered tables request s
  | .answering _, .failing _ => Refused tables request s
  | .answering _, .returned none => Answered tables request s
  | .answering _, .returned (some _) => Refused tables request s ∧ s.stop = true
  | _, _ => False

/-- What holds of the flags: `closing` is not set without a stop. -/
def Flags (s : Shared (Option ι)) : Prop := s.closing = true → s.stop = true

variable {tables request} {s s' : Shared (Option ι)} {c c' : Call}

/-- The call of `handle_request` moves only once `handle_request` answers. -/
theorem At.answering {a : CallAction} (h : At tables request s c)
    (hstep : act (encodeWith tables) request.id none s c a = some (s', c')) :
    ∃ answer, s.phase = .answering answer := by
  obtain ⟨status, closing, stop, phase, handed, owner⟩ := s
  cases phase with
  | answering answer => exact ⟨answer, rfl⟩
  | replied => cases c <;> cases h
  | finished => cases c <;> cases h
  | returned => cases c <;> cases h
  | handling =>
    cases c with
    | idle => cases a <;> cases hstep
    | _ => cases h
  | failed error =>
    cases c with
    | idle => cases a <;> cases hstep
    | _ => cases h

theorem At.act {a : CallAction} (hflags : Flags s) (h : At tables request s c)
    (hquiet : QuietCall none s c a)
    (hstep : act (encodeWith tables) request.id none s c a = some (s', c')) :
    Flags s' ∧ At tables request s' c' := by
  obtain ⟨answer, hphase⟩ := h.answering hstep
  obtain ⟨status, closing, stop, phase, handed, owner⟩ := s
  subst hphase
  cases a with
  | respond => cases hstep
  | detached => cases hstep
  | drop => cases hquiet
  | answer =>
    cases c with
    | idle =>
      cases hstep
      exact ⟨hflags, h.1, rfl, h.2⟩
    | _ => cases hstep
  | load =>
    cases c with
    | looking response =>
      obtain ⟨hanswer, hresponse, hfresh, hstop⟩ := h
      simp only [Reply.act, if_neg hfresh.1, Option.some.injEq, Prod.mk.injEq] at hstep
      obtain ⟨rfl, rfl⟩ := hstep
      exact ⟨hflags, hanswer, hresponse, hfresh.1, hfresh, hstop⟩
    | _ => cases hstep
  | compareExchange =>
    cases c with
    | loaded response loaded =>
      obtain ⟨hanswer, hresponse, -, hfresh, hstop⟩ := h
      simp only [Reply.act] at hstep
      split_ifs at hstep
      · cases hstep
        exact ⟨hflags, hanswer, hresponse, hfresh.2, hstop⟩
      · cases hstep
        exact ⟨hflags, hanswer, hresponse, hfresh, hstop⟩
    | _ => cases hstep
  | look =>
    cases c with
    | claimed response =>
      obtain ⟨hanswer, hresponse, hnil, hstop⟩ := h
      obtain rfl : stop = false := hstop
      obtain rfl : closing = false := by
        cases closing with
        | false => rfl
        | true => cases hflags rfl
      cases hstep
      exact ⟨hflags, hanswer, hresponse, hnil, rfl⟩
    | _ => cases hstep
  | send =>
    cases c with
    | encoding response =>
      obtain ⟨rfl, rfl, hnil, hstop⟩ := h
      obtain rfl : handed = [] := hnil
      have hframe : (Answer.error request.error.toWire).response.frame request.id = request.frame := rfl
      simp only [Reply.act, hframe] at hstep
      cases hencode : encodeWith tables request.frame with
      | error error =>
        have hreport := isSessionClosed_encodeWith tables hencode
        rw [hencode] at hstep
        simp only [Call.error, reported, Answer.reports, hreport, Bool.not_false, if_true] at hstep
        cases hstep
        exact ⟨hflags, ⟨error, hencode⟩, rfl⟩
      | ok json =>
        rw [hencode] at hstep
        cases hstep
        exact ⟨hflags, rfl, ⟨json, hencode⟩, rfl, hstop⟩
    | _ => cases hstep
  | sendReturns error =>
    obtain rfl : error = none := hquiet.2
    cases c with
    | sending closeAfter =>
      obtain ⟨rfl, hanswered⟩ := h
      cases hstep
      exact ⟨hflags, hanswered⟩
    | _ => cases hstep
  | wake =>
    cases c with
    | sleeping => cases h
    | _ => cases hstep
  | requestFailure =>
    cases c with
    | failing error =>
      cases hstep
      exact ⟨fun _ => rfl, h, rfl⟩
    | _ => cases hstep

theorem At.env {a : EnvAction} (h : At tables request s c) (hquiet : QuietEnv request s a)
    (hstep : env s a = some s') : At tables request s' c := by
  obtain ⟨status, closing, stop, phase, handed, owner⟩ := s
  cases a with
  | handlerReturns outcome =>
    obtain rfl : outcome = .error request.error := hquiet
    cases phase with
    | handling =>
      cases hstep
      cases c with
      | idle => exact ⟨rfl, h⟩
      | _ => cases h
    | _ => cases hstep
  | test =>
    cases phase with
    | failed error =>
      cases c with
      | idle =>
        obtain ⟨rfl, hfresh, hstop⟩ := h
        simp only [Reply.env, if_neg hfresh.1, Option.some.injEq] at hstep
        subst hstep
        exact ⟨rfl, hfresh, hstop⟩
      | _ => cases h
    | replied => cases c <;> cases h
    | finished => cases c <;> cases h
    | _ => cases hstep
  | deferResponse =>
    cases hstep
    -- a deferral changes the status of an unclaimed reply only, and never to `sent`
    have hfresh : ∀ s : Shared (Option ι), Fresh s →
        Fresh { s with status := if s.status = .unclaimed then .deferred else s.status } := by
      rintro t ⟨hstatus, hrest⟩
      refine ⟨?_, hrest⟩
      dsimp only
      split_ifs
      · exact nofun
      · exact hstatus
    cases phase with
    | handling =>
      cases c with
      | idle => exact ⟨hfresh _ h.1, h.2⟩
      | _ => cases h
    | failed error =>
      cases c with
      | idle => exact ⟨h.1, hfresh _ h.2.1, h.2.2⟩
      | _ => cases h
    | answering answer =>
      cases c with
      | idle => exact ⟨h.1, hfresh _ h.2.1, h.2.2⟩
      | looking => exact ⟨h.1, h.2.1, hfresh _ h.2.2.1, h.2.2.2⟩
      | loaded => exact ⟨h.1, h.2.1, h.2.2.1, hfresh _ h.2.2.2.1, h.2.2.2.2⟩
      | returned error => cases error <;> exact h
      | _ => exact h
    | replied => cases c <;> cases h
    | finished => cases c <;> cases h
    | returned => cases c <;> cases h
  | requestStop => cases hquiet
  | beginShutdown => cases hquiet

theorem Flags.env {a : EnvAction} (h : Flags s) (hquiet : QuietEnv request s a)
    (hstep : env s a = some s') : Flags s' := by
  obtain ⟨status, closing, stop, phase, handed, owner⟩ := s
  cases a with
  | handlerReturns outcome =>
    cases phase with
    | handling => cases outcome <;> (cases hstep; exact h)
    | _ => cases hstep
  | test =>
    cases phase <;> first | (cases hstep; exact h) | cases hstep
  | deferResponse =>
    cases hstep
    exact h
  | requestStop => cases hquiet
  | beginShutdown => cases hquiet

/-- The invariant of the quiet runs: the other calls do not start. -/
def CallAt (tables : Tables) (request : Failing) (i : Option ι) (s : Shared (Option ι)) (c : Call) :
    Prop :=
  i = none → At tables request s c

/-- A request whose handler fails, when nobody else answers it, comes out as `handleRequest` says. -/
theorem handleRequest_eq_of_quiet [DecidableEq ι] {s₀ t : State ι} (sent : List Json)
    (hstart : (threads (ι := ι) (encodeWith tables) request.id).machine.Start s₀)
    (hopen : s₀.shared.stop = false)
    (hrun : (threads (encodeWith tables) request.id).machine.Steps
      (Threads.When QuietCall (QuietEnv request)) s₀ t)
    (hhandled : t.handled) :
    handleRequest tables ⟨false, sent⟩ request =
      ⟨t.shared.stop,
        sent ++ t.shared.handed.filterMap fun frame => (encodeWith tables frame).toOption⟩ := by
  obtain ⟨⟨hstatus, hphase, hhanded, -, hclosing⟩, hlocals⟩ := hstart
  have hfirst : Threads.Holds Flags (CallAt tables request) s₀ := by
    refine ⟨hclosing, fun i hi => ?_⟩
    subst hi
    unfold At
    rw [hlocals, hphase]
    exact ⟨⟨by rw [hstatus]; exact nofun, hhanded⟩, hopen⟩
  have hlast : Threads.Holds Flags (CallAt tables request) t := by
    refine hrun.invariant (I := Threads.Holds Flags (CallAt tables request)) ?_ hfirst
    intro u a v hu hquiet hstep
    refine hu.step ?_ ?_ hquiet hstep
    · intro i s c a s' c' hK hJ hq hact
      obtain rfl : i = none := by
        cases a with
        | sendReturns => exact hq.1
        | drop => cases hq
        | _ => exact hq
      obtain ⟨hK', hJ'⟩ := (hJ rfl).act hK hq hact
      exact ⟨hK', fun _ => hJ', fun j m hj _ hnone => absurd hnone hj⟩
    · intro s e s' hK hq henv
      exact ⟨hK.env hq henv, fun j m hJ hj => (hJ hj).env hq henv⟩
  have hat := hlast.2 none rfl
  unfold At at hat
  rw [answers_reply tables ⟨false, sent⟩ request rfl, reply]
  rcases hhandled with hphase | ⟨answer, error, hphase, hreturned⟩
  · rw [hphase] at hat
    exact hat.elim
  · rw [hphase, hreturned] at hat
    cases error with
    | none =>
      obtain ⟨⟨json, hjson⟩, hframe, hstop⟩ := hat
      rw [hjson, hframe, hstop]
      simp [Except.toOption, hjson, Server.send]
    | some error =>
      obtain ⟨⟨⟨e, he⟩, hnil⟩, hstop⟩ := hat
      rw [he, hnil, hstop]
      simp [Except.toOption, Server.stop]

end Quiet

end Rtvbp.Rust.Isolation
