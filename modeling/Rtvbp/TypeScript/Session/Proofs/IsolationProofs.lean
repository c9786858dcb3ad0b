import Rtvbp.Isolation.Handlers
import Rtvbp.Envelope.Proofs.PeerProofs

/-!
# Proofs: handlers that fail

`handleRequest` answers a request exactly if the codec encodes the error. The data of a wire error is an
arbitrary JavaScript value here, so that the text is first given for the JSON value that the encoder makes
of it (`errorObject`), and then compared with the wire object of an error response.
`handleRequest_eq_of_quiet` connects the function to the runs of `TypeScript.Reply`: a run in which the
handler throws and nobody else answers ends as the function says.
-/

namespace Rtvbp.TypeScript

open Rtvbp.Lib
open Rtvbp.Envelope (EnvelopeSpec FrameSpec FieldSpec WireFields serializeOptional)

/-! ## Encoding the entries of an object -/

/-- Encode one entry. -/
def encodeEntry (entry : String × WireEncodable) : Except String (String × Json) :=
  (encodeValue entry.2).map (Prod.mk entry.1)

/-- Entries with distinct keys are encoded one by one. -/
theorem encodeEntries_eq_mapM (seen : List String) : (entries : Entries) →
    (entries.map Prod.fst).Nodup → (∀ key ∈ seen, key ∉ entries.map Prod.fst) →
    encodeEntries seen entries = entries.mapM encodeEntry
  | [], _, _ => rfl
  | (key, entry) :: entries, hnodup, hseen => by
    simp only [List.map_cons, List.nodup_cons] at hnodup hseen
    have hnew : key ∉ seen := fun h => hseen key h (by simp)
    have hrest : ∀ other ∈ key :: seen, other ∉ entries.map Prod.fst := by
      intro other hother
      rcases List.mem_cons.mp hother with rfl | hother
      · exact hnodup.1
      · exact fun h => hseen other hother (by simp [h])
    rw [encodeEntries, if_neg hnew, encodeEntries_eq_mapM (key :: seen) entries hnodup.2 hrest,
      List.mapM_cons, encodeEntry]
    cases encodeValue entry with
    | error text => rfl
    | ok json => rfl

/-- The optional data of an error, encoded. -/
def encodeData : Option WireEncodable → Except String (Option Json)
  | none => .ok none
  | some data => (encodeWireJson data).map some

/-- An optional field of a JSON object. -/
def optionalField (field : FieldSpec) : Option Json → WireFields
  | some json => [(field.name, json)]
  | none => if field.omitWhenNone then [] else [(field.name, .null)]

theorem mapM_pushOptional (field : FieldSpec) (data : Option WireEncodable) :
    (pushOptional field data).mapM encodeEntry = (encodeData data).map (optionalField field) := by
  cases data with
  | none => cases h : field.omitWhenNone <;> simp [pushOptional, h, encodeEntry, encodeValue, encodeData,
      optionalField, Except.map, bind, Except.bind, pure, Except.pure]
  | some data =>
    simp only [pushOptional, List.mapM_cons, List.mapM_nil, encodeEntry, encodeData, encodeWireJson]
    cases encodeValue data with
    | error text => rfl
    | ok json => rfl

theorem mapM_constants (constants : List (String × String)) :
    (constants.map fun c => (c.1, WireEncodable.string c.2)).mapM encodeEntry =
      .ok (constants.map fun c => (c.1, Json.string c.2)) := by
  induction constants with
  | nil => rfl
  | cons c cs ih =>
    rw [List.map_cons, List.mapM_cons, ih]
    rfl

theorem keys_pushOptional_sublist (field : FieldSpec) (data : Option WireEncodable) :
    ((pushOptional field data).map Prod.fst).Sublist [field.name] := by
  cases data with
  | some data => simp [pushOptional]
  | none => cases h : field.omitWhenNone <;> simp [pushOptional, h]

/-! ## The text of an error response -/

/-- The fields of an error. -/
def errorJson (spec : EnvelopeSpec) (n : Int) (message : String) (data : Option Json) : WireFields :=
  [(spec.error.code.name, .number (.int n)), (spec.error.message.name, .string message)] ++
    optionalField spec.error.data data

/-- The fields of an error response. -/
def errorObject (spec : EnvelopeSpec) (shape : FrameSpec) (field : FieldSpec) (requestId : String)
    (n : Int) (message : String) (data : Option Json) : WireFields :=
  spec.constantFields ++ [(shape.discriminator.name, .string requestId)] ++
    serializeOptional shape.payload none ++ [(field.name, .object (errorJson spec n message data))]

variable {spec : EnvelopeSpec} {shape : FrameSpec} {field : FieldSpec}

/-- For data that a JSON library can hold, this is the wire object of the error response. -/
theorem errorObject_eq_wireObject (hid : shape.id = none) (hfield : shape.error = some field)
    {requestId message : String} {code : Int64} {data : Option Value} :
    errorObject spec shape field requestId code.toInt message (data.map Subtype.val) =
      spec.wireObject shape (Envelope.errorResponse requestId ⟨code, message, data⟩) := by
  rw [Envelope.errorResponse, EnvelopeSpec.wireObject_response hid hfield]
  cases data <;> rfl

/-- The encoder writes the error when it can write its data. -/
theorem encodeValue_error (h : spec.WellFormed) {n : Int} (hn : Json.isSafeInteger n = true)
    (message : String) (data : Option WireEncodable) :
    encodeValue (.ordered
        ([(spec.error.code.name, .number (.integer n)), (spec.error.message.name, .string message)] ++
          pushOptional spec.error.data data)) =
      (encodeData data).map fun json => .object (errorJson spec n message json) := by
  have hkeys : ((([(spec.error.code.name, .number (.integer n)),
      (spec.error.message.name, .string message)] ++ pushOptional spec.error.data data :
        Entries)).map Prod.fst).Nodup := by
    refine h.error_nodup.sublist ?_
    simpa using keys_pushOptional_sublist spec.error.data data
  rw [encodeValue, encodeEntries_eq_mapM [] _ hkeys (by simp), List.mapM_append, mapM_pushOptional]
  cases encodeData data with
  | error text => simp [encodeEntry, encodeValue, hn, Except.map, bind, Except.bind, pure, Except.pure]
  | ok json =>
    simp [encodeEntry, encodeValue, hn, errorJson, Except.map, bind, Except.bind, pure, Except.pure]

/-- The entries of an error response, before the encoder sees them. -/
def responseEntries (spec : EnvelopeSpec) (shape : FrameSpec) (field : FieldSpec) (requestId : String)
    (wire : WireErrorValue) : Entries :=
  [(shape.discriminator.name, .string requestId)] ++ pushOptional shape.payload none ++
    [(field.name, .ordered
      ([(spec.error.code.name, .number wire.code), (spec.error.message.name, .string wire.message)] ++
        pushOptional spec.error.data wire.data))]

theorem keys_responseEntries_nodup (h : spec.WellFormed) (hshape : shape ∈ spec.frames)
    (hid : shape.id = none) (hfield : shape.error = some field) (requestId : String)
    (wire : WireErrorValue) :
    ((((renderEnvelope spec).constants.map fun c => (c.1, WireEncodable.string c.2)) ++
      responseEntries spec shape field requestId wire).map Prod.fst).Nodup := by
  -- the keys do not depend on the error
  have hwell := EnvelopeSpec.wireObject_wellFormed h hshape
    (Envelope.errorResponse requestId ⟨0, "", none⟩)
  have hnodup := (Json.wellFormed_object.1 hwell).1
  rw [Envelope.errorResponse, EnvelopeSpec.wireObject_response hid hfield] at hnodup
  refine Eq.subst (motive := List.Nodup) ?_ hnodup
  cases ho : shape.payload.omitWhenNone <;>
    simp [responseEntries, EnvelopeSpec.constantFields, renderEnvelope, serializeOptional, pushOptional, ho]

theorem frameEntries_error_eq_ok_iff (hfield : shape.error = some field) {requestId : String}
    (hrequest : requestId ≠ "") {wire : WireErrorValue} {entries : Entries} :
    (renderEnvelope spec).frameEntries shape (.response requestId none (some wire)) = .ok entries ↔
      (nonZeroSafeInteger wire.code = true ∧ wire.message ≠ "") ∧
        entries = responseEntries spec shape field requestId wire := by
  simp only [EnvelopeDescriptor.frameEntries, if_neg hrequest, EnvelopeDescriptor.errorEntries, hfield]
  by_cases hcode : nonZeroSafeInteger wire.code = true
  · by_cases hmessage : wire.message = ""
    · simp [hcode, hmessage, bind, Except.bind]
    · simp [hcode, hmessage, bind, Except.bind, pure, Except.pure, responseEntries, renderEnvelope,
        eq_comm]
  · simp [hcode, bind, Except.bind]

/-- The encoder accepts the errors with a non-zero safe code, a message and data that it can write. -/
theorem encode_error_eq_ok_iff (h : spec.WellFormed) (hshape : shape ∈ spec.frames)
    (hkind : shape.kind = .response) (hframe : spec.frame .response = .ok shape)
    (hfield : shape.error = some field) {requestId : String} (hrequest : requestId ≠ "")
    {wire : WireErrorValue} {text : Json} :
    (renderEnvelope spec).encode (.response requestId none (some wire)) = .ok text ↔
      ∃ n json, wire.code = .integer n ∧ Json.isSafeInteger n = true ∧ n ≠ 0 ∧ wire.message ≠ "" ∧
        encodeData wire.data = .ok json ∧
        text = .object (errorObject spec shape field requestId n wire.message json) := by
  have hid := (h.frame_valid shape hshape).id_none hkind
  have hentries := @frameEntries_error_eq_ok_iff spec shape field hfield requestId hrequest wire
  have hspec : (renderEnvelope spec).frameSpec .response = .ok shape := frameSpec_renderEnvelope hframe
  unfold EnvelopeDescriptor.encode
  simp only [ControlFrame.kind, hspec, bind, Except.bind]
  cases hres : (renderEnvelope spec).frameEntries shape (.response requestId none (some wire)) with
  | error e =>
    refine iff_of_false (by simp) ?_
    rintro ⟨n, json, hcode, hsafe, hzero, hmessage, -⟩
    have hok := hentries.mpr ⟨⟨by simp [hcode, nonZeroSafeInteger, hsafe, hzero], hmessage⟩, rfl⟩
    rw [hres] at hok
    cases hok
  | ok entries =>
    obtain ⟨⟨hcode, hmessage⟩, rfl⟩ := hentries.mp hres
    obtain ⟨n, hn, hsafe, hzero⟩ : ∃ n, wire.code = .integer n ∧ Json.isSafeInteger n = true ∧ n ≠ 0 := by
      unfold nonZeroSafeInteger at hcode
      split at hcode
      · next n hn =>
        simp only [Bool.and_eq_true, bne_iff_ne] at hcode
        exact ⟨n, hn, hcode⟩
      · cases hcode
    have hkeys := keys_responseEntries_nodup h hshape hid hfield requestId wire
    have hinner := encodeValue_error h hsafe wire.message wire.data
    have hencode : encodeWireJson (.ordered
        (((renderEnvelope spec).constants.map fun c => (c.1, WireEncodable.string c.2)) ++
          responseEntries spec shape field requestId wire)) =
        (encodeData wire.data).map fun json =>
          .object (errorObject spec shape field requestId n wire.message json) := by
      rw [encodeWireJson, encodeValue, encodeEntries_eq_mapM [] _ hkeys (by simp), List.mapM_append,
        mapM_constants, responseEntries, List.mapM_append, List.mapM_append, mapM_pushOptional, hn]
      simp only [List.mapM_cons, List.mapM_nil, encodeEntry, hinner]
      cases hdata : encodeData wire.data with
      | error e => simp [encodeValue, encodeData, Except.map, bind, Except.bind, pure, Except.pure]
      | ok json =>
        cases ho : shape.payload.omitWhenNone <;>
          simp [encodeValue, encodeData, optionalField, serializeOptional, ho, errorObject,
            EnvelopeSpec.constantFields, renderEnvelope, Except.map, bind, Except.bind, pure, Except.pure]
    simp only [hencode]
    cases hdata : encodeData wire.data with
    | error e =>
      refine iff_of_false (fun herror => ?_) ?_
      · cases herror
      · rintro ⟨_, json, -, -, -, -, hjson, -⟩
        cases hjson
    | ok json =>
      constructor
      · rintro ⟨⟩
        exact ⟨n, json, hn, hsafe, hzero, hmessage, rfl, rfl⟩
      · rintro ⟨n', json', hn', -, -, -, hjson, rfl⟩
        cases hn.symm.trans hn'
        cases hjson
        rfl

end Rtvbp.TypeScript

namespace Rtvbp.TypeScript.Isolation

open Rtvbp.Lib Rtvbp.TypeScript.Reply
open Rtvbp.Envelope (EnvelopeSpec FrameSpec FieldSpec Peer errorResponse)

/-! ## The reply to a failing handler -/

section Answers

variable (envelope : EnvelopeDescriptor)

/-- The text that answers a request. -/
def reply (request : Failing) : Option Json :=
  match request.raised with
  | .thrown error =>
    (envelope.encode ((Response.respondError (responseError error)).frame request.id)).toOption
  | .unprintable _ => none

theorem answers_reply : Server.Answers (handleRequest envelope) (reply envelope) := by
  intro s request hs
  have hne : ¬ s.stopped = true := by simp [hs]
  unfold handleRequest reply
  cases request.raised with
  | unprintable failure =>
    dsimp only
    rw [if_neg hne]
    rfl
  | thrown error =>
    simp only [respondError, sendFrame, if_neg hne]
    cases envelope.encode ((Response.respondError (responseError error)).frame request.id) with
    | error e =>
      dsimp only
      rw [if_neg hne]
      rfl
    | ok json => rfl

end Answers

/-! ## The envelope error of a thrown value -/

theorem errorData_eq_some_iff {data : Option WireEncodable} {value : Option Value} :
    errorData data = some value ↔ encodeData data = .ok (value.map Subtype.val) := by
  cases data with
  | none => cases value <;> simp [errorData, encodeData]
  | some data =>
    simp only [errorData, encodeData]
    cases encodeWireJson data with
    | error text => simp [Except.map]
    | ok json =>
      by_cases hw : json.wellFormed = true
      · cases value with
        | none => simp [hw, Except.map]
        | some v => simp [hw, Except.map, Subtype.ext_iff]
      · cases value with
        | none => simp [hw, Except.map]
        | some v =>
          refine iff_of_false (by simp [hw]) fun heq => hw ?_
          have hval : json = v.val := Option.some.inj (Except.ok.inj heq)
          rw [hval]
          exact v.property

theorem envelopeError_eq_some_iff {wire : WireErrorValue} {error : Envelope.WireError} :
    envelopeError wire = some error ↔ wire.code = .integer error.code.toInt ∧
      Json.isSafeInteger error.code.toInt = true ∧ wire.message = error.message ∧
      encodeData wire.data = .ok (error.data.map Subtype.val) := by
  obtain ⟨code, message, data⟩ := error
  rw [← errorData_eq_some_iff]
  unfold envelopeError
  cases hcode : wire.code with
  | integer n =>
    by_cases hsafe : Json.isSafeInteger n = true
    · have hrange := Json.isSafeInteger_iff.1 hsafe
      have hint : (Int64.ofInt n).toInt = n :=
        Int64.toInt_ofInt_of_le (by simp; omega) (by simp; omega)
      simp only [hsafe, if_true, Option.map_eq_some_iff, JsNumber.integer.injEq]
      constructor
      · rintro ⟨value, hvalue, ⟨⟩⟩
        rw [hint]
        exact ⟨rfl, hsafe, rfl, hvalue⟩
      · rintro ⟨rfl, -, rfl, hvalue⟩
        refine ⟨data, hvalue, ?_⟩
        rw [Int64.ofInt_toInt]
    · simp only [hsafe]
      refine iff_of_false (by simp) ?_
      rintro ⟨heq, hsafe', -⟩
      exact hsafe (JsNumber.integer.inj heq ▸ hsafe')
  | _ => simp

theorem error_thrown {request : Failing} {thrown : Thrown} (h : request.raised = .thrown thrown) :
    request.error = envelopeError (responseError thrown) := by
  obtain ⟨message, wire⟩ := thrown
  unfold Failing.error
  rw [h]
  cases wire with
  | none => rfl
  | some wire => rfl

variable {spec : EnvelopeSpec} {shape : FrameSpec} {field : FieldSpec}

/-- The data in a text that a JSON library can hold is a value that it can hold. -/
theorem exists_value_of_wellFormed {requestId message : String} {n : Int} {data : Option Json}
    (h : (Json.object (errorObject spec shape field requestId n message data)).wellFormed = true) :
    ∃ value : Option Value, data = value.map Subtype.val := by
  cases data with
  | none => exact ⟨none, rfl⟩
  | some json =>
    have herror := (Json.wellFormed_object.1 h).2
      (field.name, .object (errorJson spec n message (some json))) (by simp [errorObject])
    have hjson := (Json.wellFormed_object.1 herror).2 (spec.error.data.name, json)
      (by simp [errorJson, optionalField])
    exact ⟨some ⟨json, hjson⟩, rfl⟩

/-- A request is answered by a text that the peer accepts exactly if its error is deliverable. -/
theorem reply_accepted_iff (json : LosslessJson) (h : spec.WellFormed) (peer : Peer)
    (request : Failing) :
    (∃ text, reply (renderEnvelope spec) request = some text ∧
        peer.Accepts json spec request.id text) ↔
      request.Deliverable json spec peer := by
  obtain ⟨shape, hshape, hkind, hframe⟩ := h.exists_frame .response
  have hvalid := h.frame_valid shape hshape
  obtain ⟨field, hfield⟩ := hvalid.error_some hkind
  have hid := hvalid.id_none hkind
  cases hraised : request.raised with
  | unprintable failure => simp [reply, Failing.Deliverable, Failing.error, hraised]
  | thrown thrown =>
    set wire := responseError thrown with hwire
    have hreply : ∀ text, reply (renderEnvelope spec) request = some text ↔
        (renderEnvelope spec).encode (.response request.id none (some wire)) = .ok text := by
      intro text
      simp only [reply, hraised, Response.frame, Response.respondError, ← hwire]
      cases (renderEnvelope spec).encode (.response request.id none (some wire)) <;>
        simp [Except.toOption]
    simp only [hreply, encode_error_eq_ok_iff h hshape hkind hframe hfield request.id_ne,
      Failing.Deliverable, error_thrown hraised, envelopeError_eq_some_iff, ← hwire]
    constructor
    · rintro ⟨text, ⟨n, data, hcode, hsafe, hzero, hmessage, hdata, rfl⟩, haccepts⟩
      obtain ⟨value, rfl⟩ := exists_value_of_wellFormed haccepts.wellFormed
      have hrange := Json.isSafeInteger_iff.1 hsafe
      have hint : (Int64.ofInt n).toInt = n :=
        Int64.toInt_ofInt_of_le (by simp; omega) (by simp; omega)
      have hne : Int64.ofInt n ≠ 0 := by
        rw [Ne, ← Int64.toInt_inj, hint, Int64.toInt_zero]
        exact hzero
      rw [← hint, errorObject_eq_wireObject hid hfield] at haccepts
      refine ⟨⟨Int64.ofInt n, wire.message, value⟩, ?_, ⟨hne, hmessage⟩, ?_⟩
      · rw [hint]
        exact ⟨hcode, hsafe, rfl, hdata⟩
      · exact (Peer.accepts_iff h hshape hkind request.id_ne ⟨hne, hmessage⟩ peer).mp haccepts
    · rintro ⟨⟨code, message, value⟩, ⟨hcode, hsafe, hmessage, hdata⟩, ⟨hne, hnonempty⟩, htakes⟩
      have hzero : code.toInt ≠ 0 := by
        rw [Ne, ← Int64.toInt_zero, Int64.toInt_inj]
        exact hne
      refine ⟨_, ⟨code.toInt, value.map Subtype.val, hcode, hsafe, hzero, hmessage ▸ hnonempty, hdata,
        rfl⟩, ?_⟩
      rw [errorObject_eq_wireObject hid hfield, hmessage]
      exact (Peer.accepts_iff h hshape hkind request.id_ne ⟨hne, hnonempty⟩ peer).mpr htakes

/-- The requests of a queue are isolated exactly if what their handlers throw is deliverable. -/
theorem isolated_iff_deliverable (json : LosslessJson) (h : spec.WellFormed) (peer : Peer)
    {s : Server Json} (hs : s.stopped = false) (queue : List Failing) :
    Server.Isolated (fun request text => peer.Accepts json spec request.id text)
        (dispatchControl (renderEnvelope spec)) s queue ↔
      ∀ request ∈ queue, request.Deliverable json spec peer := by
  rw [dispatchControl, Server.isolated_iff (answers_reply (renderEnvelope spec)) hs]
  exact forall₂_congr fun request _ => reply_accepted_iff json h peer request

/-! ## The runs of such a request -/

section Quiet

variable (envelope : EnvelopeDescriptor) (requestId : String) (error : Thrown)

/-- The frame of the error response. -/
def errorFrame : ControlFrame := (Response.respondError (responseError error)).frame requestId

/-- The session is up. -/
def Up (s : State) : Prop :=
  (s.life.state = .connecting ∨ s.life.state = .active) ∧ s.life.aborted = false

/-- The error response is handed to `control.send`. -/
def Answered (s : State) : Prop :=
  Up s ∧ ∃ json, envelope.encode (errorFrame requestId error) = .ok json ∧ s.handed = [json]

/-- The error response is not encoded. -/
def Refused (s : State) : Prop :=
  (∃ e, envelope.encode (errorFrame requestId error) = .error e) ∧ s.handed = []

/-- What holds in each phase of `#handleRequest`. -/
def At (s : State) : Prop :=
  match s.phase with
  | .handling => Up s ∧ s.status ≠ .sent ∧ s.handed = []
  | .caught thrown => thrown = error ∧ Up s ∧ s.status ≠ .sent ∧ s.handed = []
  | .respondingError => Answered envelope requestId error s
  | .failing _ => Refused envelope requestId error s ∧ Up s
  | .returned => Answered envelope requestId error s ∨
      (Refused envelope requestId error s ∧ s.life.aborted = true)
  | .dispatched _ | .responding _ => False

variable {envelope requestId error} {s t : State}

theorem Up.not_ended (h : Up s) : s.ended = false := by
  unfold State.ended
  rcases h.1 with hs | hs <;> rw [hs]

theorem Up.requestStop_aborted (h : Up s) (cause : Option Thrown) (failed : Bool) :
    (s.life.requestStop cause failed).aborted = true := by
  simp [Lifecycle.requestStop, h.2]

/-- The `catch` block answers, or is about to stop the session. -/
theorem at_afterCatch (hup : Up s) (hstatus : s.status ≠ .sent) (hnil : s.handed = []) :
    At envelope requestId error (s.afterCatch envelope requestId error) := by
  have hended : State.ended { s with status := .sent } = false := hup.not_ended
  simp only [State.afterCatch, if_neg hstatus, State.respond, hup.not_ended, State.sendFrame, hup.2,
    hended, Bool.false_or, Bool.false_eq_true, if_false]
  cases hencode : envelope.encode ((Response.respondError (responseError error)).frame requestId) with
  | error e => exact ⟨⟨⟨e, hencode⟩, hnil⟩, hup⟩
  | ok json =>
    refine ⟨hup, json, hencode, ?_⟩
    simp [hnil]

theorem At.step {a : Action} (h : At envelope requestId error s) (hquiet : Quiet error s a)
    (hstep : step envelope requestId s a = some t) : At envelope requestId error t := by
  obtain ⟨life, status, phase, handed⟩ := s
  cases a with
  | call => cases hquiet
  | handlerReturns => cases hquiet
  | stop => cases hquiet
  | finish => cases hquiet
  | deferResponse =>
    cases hstep
    unfold State.deferResponse
    split_ifs with hended hstatus
    · exact h
    · -- the reply was not claimed, so nothing has been answered or it stays as it is
      cases phase with
      | handling => exact ⟨h.1, nofun, h.2.2⟩
      | caught thrown => exact ⟨h.1, h.2.1, nofun, h.2.2.2⟩
      | _ => exact h
    · exact h
  | handlerThrows thrown =>
    obtain rfl : thrown = error := hquiet
    cases phase with
    | handling =>
      cases hstep
      exact ⟨rfl, h⟩
    | _ => cases hstep
  | resume =>
    cases phase with
    | dispatched => cases h
    | caught thrown =>
      obtain ⟨rfl, hup, hstatus, hnil⟩ := h
      cases hstep
      exact at_afterCatch hup hstatus hnil
    | failing failure =>
      obtain ⟨hrefused, hup⟩ := h
      cases hstep
      refine .inr ⟨hrefused, ?_⟩
      have haborted : life.aborted = false := hup.2
      simp only [State.afterFailure, haborted, Bool.false_eq_true, if_false]
      exact hup.requestStop_aborted _ _
    | _ => cases hstep
  | sendSettles failure =>
    obtain rfl : failure = none := hquiet
    cases phase with
    | respondingError =>
      cases hstep
      exact .inl h
    | responding => cases h
    | _ => cases hstep
  | activate =>
    simp only [Reply.step] at hstep
    split_ifs at hstep with hstate
    cases hstep
    cases phase with
    | handling => exact ⟨⟨.inr rfl, h.1.2⟩, h.2⟩
    | caught thrown => exact ⟨h.1, ⟨.inr rfl, h.2.1.2⟩, h.2.2⟩
    | respondingError => exact ⟨⟨.inr rfl, h.1.2⟩, h.2⟩
    | failing failure => exact ⟨h.1, .inr rfl, h.2.2⟩
    | returned =>
      rcases h with h | h
      · exact .inl ⟨⟨.inr rfl, h.1.2⟩, h.2⟩
      · exact .inr h
    | dispatched => cases h
    | responding => cases h

/-- A request whose handler throws, when nobody else answers it, comes out as `handleRequest` says. -/
theorem handleRequest_eq_of_quiet {s₀ t : State} {request : Failing}
    (hraised : request.raised = .thrown error) (sent : List Json) (hstart : Start s₀)
    (hrun : (machine envelope request.id).Steps (Quiet error) s₀ t) (hreturned : t.phase = .returned) :
    handleRequest envelope ⟨false, sent⟩ request = ⟨t.life.aborted, sent ++ t.handed⟩ := by
  obtain ⟨hstate, haborted, hstatus, hhanded, hphase⟩ := hstart
  have hfirst : At envelope request.id error s₀ := by
    unfold At
    rw [hphase]
    exact ⟨⟨hstate, haborted⟩, by rw [hstatus]; exact nofun, hhanded⟩
  have hlast := hrun.invariant (I := At envelope request.id error)
    (fun u a v hu hquiet hstep => hu.step hquiet hstep) hfirst
  unfold At at hlast
  rw [hreturned] at hlast
  rw [answers_reply envelope ⟨false, sent⟩ request rfl, reply, hraised]
  rcases hlast with ⟨hup, json, hjson, hsent⟩ | ⟨⟨⟨e, he⟩, hnil⟩, hstopped⟩
  · rw [errorFrame] at hjson
    simp [hjson, Except.toOption, Server.send, hup.2, hsent]
  · rw [errorFrame] at he
    simp [he, Except.toOption, Server.stop, hstopped, hnil]

end Quiet

end Rtvbp.TypeScript.Isolation
