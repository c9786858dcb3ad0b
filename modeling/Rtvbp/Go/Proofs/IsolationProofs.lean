import Rtvbp.Isolation.Handlers
import Rtvbp.Envelope.Proofs.PeerProofs

/-!
# Proofs: handlers that fail

`handleRequest` answers a request exactly if the codec encodes the error, which it does for the encodable
errors with JSON data. `handleRequest_eq_of_quiet` connects the function to the runs of `Go.Reply`: a run
in which the handler fails and nobody else answers ends as the function says.
-/

namespace Rtvbp.Go.Isolation

open Rtvbp.Lib Rtvbp.Envelope.Go Rtvbp.Go.Reply

/-! ## The reply to a failing handler -/

section Answers

variable (tables : Tables)

/-- The text that answers a request. -/
def reply (request : Failing) : Option Json :=
  (encodeWith tables ((Response.ofError request.err).frame request.id)).toOption

theorem answers_reply : Server.Answers (handleRequest tables) (reply tables) := by
  intro s request hs
  have hne : ¬ s.stopped = true := by simp [hs]
  unfold handleRequest respond sendResponse reply
  rw [if_neg hne, if_neg hne]
  cases encodeWith tables ((Response.ofError request.err).frame request.id) with
  | error err => rfl
  | ok json => rfl

theorem reply_eq_some_iff {request : Failing} {json : Json} :
    reply tables request = some json ↔
      tables.encode ((Response.ofError request.err).frame request.id) = .ok json := by
  unfold reply encodeWith
  cases tables.encode ((Response.ofError request.err).frame request.id) with
  | ok v => simp [Except.toOption]
  | error e => cases e <;> simp [Except.toOption]

end Answers

/-- The wire error of a failure with proper data. -/
theorem wireErrorFrom_err {request : Failing} {error : Envelope.WireError}
    (h : request.error = some error) : wireErrorFrom request.err = .ofError error := by
  obtain ⟨id, hid, message, handlerError⟩ := request
  cases handlerError with
  | none =>
    cases h
    rfl
  | some e =>
    obtain ⟨code, text, data⟩ := e
    cases data with
    | absent =>
      cases h
      rfl
    | invalid => cases h
    | json v =>
      cases h
      rfl

/-- The frame of the answer to a failure with proper data. -/
theorem frame_ofError {request : Failing} {error : Envelope.WireError}
    (h : request.error = some error) :
    (Response.ofError request.err).frame request.id =
      .ofFrame (Envelope.errorResponse request.id error) := by
  unfold Response.ofError Response.frame
  rw [wireErrorFrom_err h]
  rfl

theorem encodeError_invalid (tables : Tables) {wire : WireError} (h : wire.Data = .invalid)
    (json : RawMessage) : tables.encodeError wire ≠ .ok json := by
  unfold Tables.encodeError
  split_ifs
  · exact nofun
  · exact nofun
  · rw [h]
    exact nofun

theorem wireErrorFrom_invalid {request : Failing} (h : request.error = none) :
    (wireErrorFrom request.err).Data = .invalid := by
  obtain ⟨id, hid, message, handlerError⟩ := request
  cases handlerError with
  | none => cases h
  | some e =>
    obtain ⟨code, text, data⟩ := e
    cases data with
    | absent => cases h
    | invalid => rfl
    | json v => cases h

variable {spec : Envelope.EnvelopeSpec} {shape : Envelope.FrameSpec}

/-- What is encoded has an encoded error. -/
theorem exists_appendError {tables : Tables} {shape : FrameSpec} {frame : ControlFrame} {json : Json}
    (hshape : tables.frameForKind frame.Kind = some shape) (h : tables.encode frame = .ok json) :
    ∃ fields encoded, tables.appendError fields shape frame = .ok encoded := by
  unfold Tables.encode at h
  rw [hshape] at h
  dsimp only [bind, Except.bind] at h
  split at h
  · cases h
  · split at h
    · cases h
    · next fields hfields =>
      split at h
      · cases h
      · next encoded hencoded => exact ⟨fields, encoded, hencoded⟩

/-- Data that is not JSON is not encoded. -/
theorem encode_ne_ok_of_invalid (h : spec.WellFormed) (hshape : shape ∈ spec.frames)
    (hkind : shape.kind = .response) (hframe : spec.frame .response = .ok shape) {request : Failing}
    (herror : request.error = none) (json : Json) :
    (renderCodec spec).encode ((Response.ofError request.err).frame request.id) ≠ .ok json := by
  have hvalid := h.frame_valid shape hshape
  obtain ⟨field, hfield⟩ := hvalid.error_some hkind
  have hname : field.name ≠ "" :=
    hvalid.names_nonempty field (Envelope.FrameSpec.mem_wireFields.2 (by simp [hfield]))
  intro hok
  obtain ⟨fields, encoded, happend⟩ := exists_appendError (frameForKind_renderCodec hframe) hok
  cases hencode : (renderCodec spec).encodeError (wireErrorFrom request.err) with
  | ok raw => exact encodeError_invalid (renderCodec spec) (wireErrorFrom_invalid herror) raw hencode
  | error e =>
    simp [Tables.appendError, renderFrame, hfield, hname, Response.ofError, Response.frame, hencode,
      bind, Except.bind] at happend

/-- A request is answered by a text that the peer accepts exactly if its error is deliverable. -/
theorem reply_accepted_iff (json : TypeScript.LosslessJson) (h : spec.WellFormed)
    (peer : Envelope.Peer) (request : Failing) :
    (∃ text, reply (renderCodec spec) request = some text ∧
        peer.Accepts json spec request.id text) ↔
      request.Deliverable json spec peer := by
  obtain ⟨shape, hshape, hkind, hframe⟩ := h.exists_frame .response
  simp only [reply_eq_some_iff, Failing.Deliverable]
  cases herror : request.error with
  | none =>
    refine iff_of_false ?_ nofun
    rintro ⟨text, hencode, -⟩
    exact encode_ne_ok_of_invalid h hshape hkind hframe herror text hencode
  | some error =>
    have hiff := @encode_eq_ok_iff spec h shape (Envelope.errorResponse request.id error) hshape hkind
      hframe
    rw [frame_ofError herror]
    constructor
    · rintro ⟨text, hencode, haccepts⟩
      obtain ⟨hencodable, rfl⟩ := hiff.mp hencode
      have he := (Envelope.errorResponse_encodable.1 hencodable).2
      exact ⟨error, rfl, he, (Envelope.Peer.accepts_iff h hshape hkind request.id_ne he peer).mp haccepts⟩
    · rintro ⟨error', heq, he, htakes⟩
      obtain rfl := Option.some.inj heq
      have hencodable := Envelope.errorResponse_encodable.2 ⟨request.id_ne, he⟩
      refine ⟨_, hiff.mpr ⟨hencodable, rfl⟩, ?_⟩
      exact (Envelope.Peer.accepts_iff h hshape hkind request.id_ne he peer).mpr htakes

/-- The requests of a queue are isolated exactly if their errors are deliverable. -/
theorem isolated_iff_deliverable (json : TypeScript.LosslessJson) (h : spec.WellFormed)
    (peer : Envelope.Peer) {s : Server Json} (hs : s.stopped = false) (queue : List Failing) :
    Server.Isolated (fun request text => peer.Accepts json spec request.id text)
        (dispatchControl (renderCodec spec)) s queue ↔
      ∀ request ∈ queue, request.Deliverable json spec peer := by
  rw [dispatchControl, Server.isolated_iff (answers_reply (renderCodec spec)) hs]
  exact forall₂_congr fun request _ => reply_accepted_iff json h peer request

/-! ## The calls for such a request -/

section Quiet

variable {ι : Type} (tables : Tables) (request : Failing)

/-- The reply is not sent. -/
def Fresh (s : Shared (Option ι)) : Prop := s.status ≠ .sent ∧ s.handed = [] ∧ s.closing = false

/-- The frame of the error is handed to `Send`. -/
def Answered (s : Shared (Option ι)) : Prop :=
  (∃ json, encodeWith tables ((Response.ofError request.err).frame request.id) = .ok json) ∧
    s.handed = [(Response.ofError request.err).frame request.id] ∧ s.closing = false

/-- The frame of the error is not encoded. -/
def Refused (s : Shared (Option ι)) : Prop :=
  (∃ err, encodeWith tables ((Response.ofError request.err).frame request.id) = .error err) ∧
    s.handed = []

/-- What holds while the call of `handleRequest` is at a point of its program. -/
def At (s : Shared (Option ι)) (c : Call) : Prop :=
  match s.phase, c with
  | .handling, .idle => Fresh s
  | .failed err, .idle => err = request.err ∧ Fresh s
  | .answering response, .idle => response = .ofError request.err ∧ Fresh s
  | .answering _, .entered response closeAfter => response = .ofError request.err ∧
      closeAfter = false ∧ Fresh s
  | .answering _, .looking response closeAfter => response = .ofError request.err ∧
      closeAfter = false ∧ Fresh s
  | .answering _, .loaded response closeAfter status => response = .ofError request.err ∧
      closeAfter = false ∧ status ≠ .sent ∧ Fresh s
  | .answering _, .claimed response closeAfter => response = .ofError request.err ∧
      closeAfter = false ∧ s.handed = [] ∧ s.closing = false
  | .answering _, .encoding response closeAfter => response = .ofError request.err ∧
      closeAfter = false ∧ s.handed = [] ∧ s.closing = false
  | .answering _, .sending closeAfter => closeAfter = false ∧ Answered tables request s
  | .answering _, .stopping err => err.isSome = true ∧ Refused tables request s
  | .answering _, .returned none => Answered tables request s
  | .answering _, .returned (some _) => Refused tables request s ∧ s.closing = true
  | _, _ => False

variable {tables request} {s s' : Shared (Option ι)} {c c' : Call}

/-- The call of `handleRequest` moves only once `handleRequest` answers. -/
theorem At.answering {a : CallAction} (h : At tables request s c)
    (hstep : act (encodeWith tables) request.id none s c a = some (s', c')) :
    ∃ response, s.phase = .answering response := by
  obtain ⟨status, closing, phase, handed, owner⟩ := s
  cases phase with
  | answering response => exact ⟨response, rfl⟩
  | finished => cases c <;> cases h
  | returned => cases c <;> cases h
  | handling =>
    cases c with
    | idle => cases a <;> cases hstep
    | _ => cases h
  | failed err =>
    cases c with
    | idle => cases a <;> cases hstep
    | _ => cases h

theorem At.act {a : CallAction} (h : At tables request s c) (hquiet : QuietCall none s c a)
    (hstep : act (encodeWith tables) request.id none s c a = some (s', c')) :
    At tables request s' c' := by
  obtain ⟨answer, hphase⟩ := h.answering hstep
  obtain ⟨status, closing, phase, handed, owner⟩ := s
  subst hphase
  cases a with
  | respond => cases hstep
  | answer =>
    cases c with
    | idle =>
      cases hstep
      exact ⟨h.1, rfl, h.2⟩
    | _ => cases hstep
  | check =>
    cases c with
    | entered response closeAfter =>
      obtain ⟨hresponse, hclose, hfresh⟩ := h
      obtain rfl : closing = false := hfresh.2.2
      cases hstep
      exact ⟨hresponse, hclose, hfresh⟩
    | _ => cases hstep
  | load =>
    cases c with
    | looking response closeAfter =>
      obtain ⟨hresponse, hclose, hfresh⟩ := h
      simp only [Reply.act, if_neg hfresh.1, Option.some.injEq, Prod.mk.injEq] at hstep
      obtain ⟨rfl, rfl⟩ := hstep
      exact ⟨hresponse, hclose, hfresh.1, hfresh⟩
    | _ => cases hstep
  | compareAndSwap =>
    cases c with
    | loaded response closeAfter loaded =>
      obtain ⟨hresponse, hclose, -, hfresh⟩ := h
      simp only [Reply.act] at hstep
      split_ifs at hstep
      · cases hstep
        exact ⟨hresponse, hclose, hfresh.2⟩
      · cases hstep
        exact ⟨hresponse, hclose, hfresh⟩
    | _ => cases hstep
  | look =>
    cases c with
    | claimed response closeAfter =>
      obtain ⟨hresponse, hclose, hnil, hopen⟩ := h
      obtain rfl : closing = false := hopen
      cases hstep
      exact ⟨hresponse, hclose, hnil, rfl⟩
    | _ => cases hstep
  | send =>
    cases c with
    | encoding response closeAfter =>
      obtain ⟨rfl, hclose, hnil, hopen⟩ := h
      obtain rfl : handed = [] := hnil
      simp only [Reply.act] at hstep
      cases hencode : encodeWith tables ((Response.ofError request.err).frame request.id) with
      | error err =>
        rw [hencode] at hstep
        cases hstep
        exact ⟨rfl, ⟨err, hencode⟩, rfl⟩
      | ok json =>
        rw [hencode] at hstep
        cases hstep
        exact ⟨hclose, ⟨json, hencode⟩, rfl, hopen⟩
    | _ => cases hstep
  | sendReturns err =>
    obtain rfl : err = none := hquiet.2
    cases c with
    | sending closeAfter =>
      obtain ⟨rfl, hanswered⟩ := h
      cases hstep
      exact hanswered
    | _ => cases hstep
  | requestStop =>
    cases c with
    | stopping err =>
      obtain ⟨hsome, hrefused⟩ := h
      obtain ⟨err, rfl⟩ := Option.isSome_iff_exists.mp hsome
      cases hstep
      exact ⟨hrefused, rfl⟩
    | _ => cases hstep

theorem At.env {a : EnvAction} (h : At tables request s c) (hquiet : QuietEnv request s a)
    (hstep : env s a = some s') : At tables request s' c := by
  obtain ⟨status, closing, phase, handed, owner⟩ := s
  cases a with
  | handlerReturns err =>
    obtain rfl : err = some request.err := hquiet
    cases phase with
    | handling =>
      cases hstep
      cases c with
      | idle => exact ⟨rfl, h⟩
      | _ => cases h
    | _ => cases hstep
  | test =>
    cases phase with
    | failed err =>
      cases c with
      | idle =>
        obtain ⟨rfl, hfresh⟩ := h
        simp only [Reply.env, if_neg hfresh.1, Option.some.injEq] at hstep
        subst hstep
        exact ⟨rfl, hfresh⟩
      | _ => cases h
    | finished => cases c <;> cases h
    | _ => cases hstep
  | deferResponse =>
    cases hstep
    -- a deferral changes the status of an unclaimed reply only, and never to `sent`
    have hfresh : ∀ s : Shared (Option ι), Fresh s →
        Fresh { s with status := if s.status = .unclaimed then .deferred else s.status } := by
      rintro t ⟨hstatus, hrest⟩
      refine ⟨?_, hrest⟩
      dsimp only
      split_ifs
      · exact nofun
      · exact hstatus
    cases phase with
    | handling =>
      cases c with
      | idle => exact hfresh _ h
      | _ => cases h
    | failed err =>
      cases c with
      | idle => exact ⟨h.1, hfresh _ h.2⟩
      | _ => cases h
    | answering response =>
      cases c with
      | idle => exact ⟨h.1, hfresh _ h.2⟩
      | entered => exact ⟨h.1, h.2.1, hfresh _ h.2.2⟩
      | looking => exact ⟨h.1, h.2.1, hfresh _ h.2.2⟩
      | loaded => exact ⟨h.1, h.2.1, h.2.2.1, hfresh _ h.2.2.2⟩
      | returned err => cases err <;> exact h
      | _ => exact h
    | finished => cases c <;> cases h
    | returned => cases c <;> cases h
  | requestStop => cases hquiet
  | beginShutdown => cases hquiet

/-- The invariant of the quiet runs: the other calls do not start. -/
def CallAt (tables : Tables) (request : Failing) (i : Option ι) (s : Shared (Option ι)) (c : Call) :
    Prop :=
  i = none → At tables request s c

/-- A request whose handler fails, when nobody else answers it, comes out as `handleRequest` says. -/
theorem handleRequest_eq_of_quiet [DecidableEq ι] {s₀ t : State ι} (sent : List Json)
    (hstart : (threads (ι := ι) (encodeWith tables) request.id).machine.Start s₀)
    (hopen : s₀.shared.closing = false)
    (hrun : (threads (encodeWith tables) request.id).machine.Steps
      (Threads.When QuietCall (QuietEnv request)) s₀ t)
    (hhandled : t.handled) :
    handleRequest tables ⟨false, sent⟩ request =
      ⟨t.shared.closing,
        sent ++ t.shared.handed.filterMap fun frame => (encodeWith tables frame).toOption⟩ := by
  obtain ⟨⟨hstatus, hphase, hhanded, -⟩, hlocals⟩ := hstart
  have hfirst : Threads.Holds (fun _ => True) (CallAt tables request) s₀ := by
    refine ⟨trivial, fun i hi => ?_⟩
    subst hi
    unfold At
    rw [hlocals, hphase]
    exact ⟨by rw [hstatus]; exact nofun, hhanded, hopen⟩
  have hlast : Threads.Holds (fun _ => True) (CallAt tables request) t := by
    refine hrun.invariant (I := Threads.Holds (fun _ => True) (CallAt tables request)) ?_ hfirst
    intro u a v hu hquiet hstep
    refine hu.step ?_ ?_ hquiet hstep
    · intro i s c a s' c' _ hJ hq hact
      obtain rfl : i = none := by
        cases a with
        | sendReturns => exact hq.1
        | _ => exact hq
      refine ⟨trivial, fun _ => (hJ rfl).act hq hact, fun j m hj _ hnone => absurd hnone hj⟩
    · intro s e s' _ hq henv
      exact ⟨trivial, fun j m hJ hj => (hJ hj).env hq henv⟩
  have hat := hlast.2 none rfl
  unfold At at hat
  rw [answers_reply tables ⟨false, sent⟩ request rfl, reply]
  rcases hhandled with hphase | ⟨response, err, hphase, hreturned⟩
  · rw [hphase] at hat
    exact hat.elim
  · rw [hphase, hreturned] at hat
    cases err with
    | none =>
      obtain ⟨⟨json, hjson⟩, hframe, hclosing⟩ := hat
      rw [hjson, hframe, hclosing]
      simp [Except.toOption, hjson, Server.send]
    | some err =>
      obtain ⟨⟨⟨e, he⟩, hnil⟩, hclosing⟩ := hat
      rw [he, hnil, hclosing]
      simp [Except.toOption, Server.stop]

end Quiet

end Rtvbp.Go.Isolation
