import Rtvbp.Envelope.Proofs.AgreementProofs
import Rtvbp.Envelope.GoCodec
import Rtvbp.Envelope.RustCodec
import Rtvbp.TypeScript.EnvelopeCodec

/-!
# The decoder of the peer

What a peer makes of a text that an encoder has written. The peer runs one of the three SDKs, with the
codec of the same declaration.
-/

namespace Rtvbp.Envelope

/-- The SDK of the peer. -/
inductive Peer where
  | go
  | rust
  | typescript

namespace Peer

variable (json : TypeScript.LosslessJson) (spec : EnvelopeSpec)

/-- The decoder of the peer reads the text as an error response to the request. -/
def Accepts (requestId : String) (text : Json) : Peer → Prop
  | .go => ∃ object : JsonMap, text = .object object.val ∧ ∃ frame err,
      (Go.renderCodec spec).decode object = .ok frame ∧ frame.Kind = .response ∧
        frame.CorrelID = requestId ∧ frame.Err = some err
  | .rust => ∃ object : JsonMap, text = .object object.val ∧ ∃ frame error,
      (Rust.renderCodec spec).decode object = .ok frame ∧ frame.kind = .response ∧
        frame.correlationId = requestId ∧ frame.error = some error
  | .typescript => ∃ object : JsonMap, text = .object object.val ∧ ∃ result error,
      (TypeScript.renderEnvelope spec).decode json ⟨.object object.val, object.property⟩ =
        .ok (.response requestId result (some error))

/-- What the decoder of the peer asks of the response of an error that can be encoded. The Go decoder
refuses all frames of a declaration with an empty constant, and the TypeScript decoder the numbers that
JavaScript cannot hold. -/
def Takes (error : WireError) : Peer → Prop
  | .go => ∀ c ∈ spec.constants, c.value ≠ ""
  | .rust => True
  | .typescript => Json.isSafeInteger error.code.toInt = true ∧
      ∀ v, error.data = some v → v.val.everywhere json.acceptsNumber = true

end Peer

end Rtvbp.Envelope

/-!
## Error responses

Every encoder writes the response of an encodable error as the wire object of one frame. The decoders of
the three SDKs read it as an error response to the same request, exactly under the conditions of
`Peer.Takes`.
-/

namespace Rtvbp.Envelope

/-- The frame of an error response. -/
def errorResponse (requestId : String) (error : WireError) : ControlFrame :=
  .response requestId none (some error)

theorem errorResponse_encodable {requestId : String} {error : WireError} :
    (errorResponse requestId error).Encodable ↔ requestId ≠ "" ∧ error.Encodable := by
  simp [errorResponse, ControlFrame.Encodable]

namespace EnvelopeSpec

variable {spec : EnvelopeSpec} {shape : FrameSpec} {requestId : String} {error : WireError}

/-- What an encoder of an unambiguous declaration has written is read as a frame with the same identities. -/
theorem exists_decodeUnvalidated_wireMap (hs : spec.structureIssues = []) (hu : spec.Unambiguous) {frame : ControlFrame}
    (hshape : shape ∈ spec.frames) (hkind : shape.kind = frame.kind) (hframe : spec.frame frame.kind = .ok shape)
    (hen : frame.Encodable) :
    ∃ decoded, spec.decodeUnvalidated (wireMap (wellFormed_of_structureIssues hs) hshape frame) = .ok decoded ∧
      decoded.kind = frame.kind ∧ decoded.identity = frame.identity ∧ decoded.subject = frame.subject := by
  obtain ⟨decoded, hdecoded, hsame⟩ := roundTrips_of_unambiguous JsonText.trees hs hu frame
    (.object (spec.wireObject shape frame)) ((encode_eq_ok_iff JsonText.trees hs hshape hkind hframe).mpr ⟨hen, rfl⟩)
  refine ⟨decoded, ?_, hsame.1.symm, hsame.2.1.symm, hsame.2.2.1.symm⟩
  have hframes := decode_serialize_wireObject JsonText.trees hs hshape frame
  have hconstants : decodeConstants (wireMap (wellFormed_of_structureIssues hs) hshape frame) spec.constants = .ok () :=
    decodeConstants_eq_ok fun c hc => List.mem_append_left _ (List.mem_map.mpr ⟨c, hc, rfl⟩)
  rw [decodeUnvalidated, hconstants]
  exact hframes.symm.trans hdecoded

theorem everywhere_serializeOptional_iff {p : Json → Bool} (hnull : p .null = true) {field : FieldSpec}
    {value : Option Value} :
    (∀ f ∈ serializeOptional field value, f.2.everywhere p = true) ↔
      ∀ v, value = some v → v.val.everywhere p = true := by
  cases value with
  | some v => simp [serializeOptional]
  | none => cases ho : field.omitWhenNone <;> simp [serializeOptional, ho, Json.everywhere, hnull]

theorem everywhere_encodedError_iff (json : TypeScript.LosslessJson) :
    (Json.object (spec.encodedError error)).everywhere json.acceptsNumber = true ↔
      Json.isSafeInteger error.code.toInt = true ∧
        ∀ v, error.data = some v → v.val.everywhere json.acceptsNumber = true := by
  have hdata := @everywhere_serializeOptional_iff json.acceptsNumber rfl spec.error.data error.data
  rw [Json.everywhere_object, encodedError, List.forall_mem_append, hdata]
  simp [Json.everywhere, TypeScript.LosslessJson.acceptsNumber]

/-- The numbers in the wire object of an error response are those of the error. -/
theorem everywhere_wireObject_iff (json : TypeScript.LosslessJson)
    (hvalid : shape.Valid spec.constantNames) (hkind : shape.kind = .response) :
    (Json.object (spec.wireObject shape (errorResponse requestId error))).everywhere
        json.acceptsNumber = true ↔
      Json.isSafeInteger error.code.toInt = true ∧
        ∀ v, error.data = some v → v.val.everywhere json.acceptsNumber = true := by
  obtain ⟨field, hfield⟩ := hvalid.error_some hkind
  have hid := hvalid.id_none hkind
  have hpayload := @everywhere_serializeOptional_iff json.acceptsNumber rfl shape.payload none
  rw [errorResponse, wireObject_response hid hfield, Json.everywhere_object, List.forall_mem_append,
    List.forall_mem_append, List.forall_mem_append, hpayload, List.forall_mem_singleton,
    List.forall_mem_singleton, everywhere_encodedError_iff]
  constructor
  · exact fun h => h.2.2
  · refine fun h => ⟨rfl, ⟨⟨?_, rfl⟩, nofun⟩, h⟩
    intro f hf
    obtain ⟨c, -, rfl⟩ := List.mem_map.mp hf
    rfl

/-- The code in the wire object of an error response is an integer literal. -/
theorem safeCode_wireMap (h : spec.WellFormed) (hshape : shape ∈ spec.frames)
    (hkind : shape.kind = .response) (hcode : Json.isSafeInteger error.code.toInt = true) :
    TypeScript.SafeCode spec (wireMap h hshape (errorResponse requestId error)) := by
  have hvalid := h.frame_valid shape hshape
  obtain ⟨field, hfield⟩ := hvalid.error_some hkind
  have hid := hvalid.id_none hkind
  intro name raw object v hraw hobject hv
  have hmem := JsonMap.get_eq_some_iff_mem.1 hraw
  rw [Value.asObject_val hobject] at hmem
  -- the error is the only object among the fields
  have hfields : object.val = spec.encodedError error := by
    have hall : (name, Json.object object.val) ∈
        spec.wireObject shape (errorResponse requestId error) := hmem
    rw [errorResponse, wireObject_response hid hfield, List.mem_append, List.mem_append,
      List.mem_append] at hall
    rcases hall with ((hc | hd) | hp) | he
    · obtain ⟨c, -, hc⟩ := List.mem_map.mp hc
      cases congrArg Prod.snd hc
    · cases congrArg Prod.snd (List.mem_singleton.mp hd)
    · obtain ⟨-, ⟨v, hv, -⟩ | ⟨-, -, hnull⟩⟩ := mem_serializeOptional.1 hp
      · cases hv
      · cases hnull
    · exact Json.object.inj (congrArg Prod.snd (List.mem_singleton.mp he))
  have hcodeMem := JsonMap.get_eq_some_iff_mem.1 hv
  have hnodup := (Json.wellFormed_object.1 object.property).1
  have hfirst : (spec.error.code.name, Json.number (.int error.code.toInt)) ∈ object.val := by
    rw [hfields]
    simp [encodedError]
  have hval : v.val = .number (.int error.code.toInt) := by
    have hlookup := Lib.lookup_eq_some_iff_mem hnodup |>.mpr hcodeMem
    rw [Lib.lookup_eq_some_iff_mem hnodup |>.mpr hfirst] at hlookup
    exact (Option.some.inj hlookup).symm
  rw [hval]
  exact hcode

/-- The reference decoder reads an error response to the same request. -/
theorem exists_decodeUnvalidated_errorResponse (h : spec.WellFormed) (hshape : shape ∈ spec.frames)
    (hkind : shape.kind = .response) (hid : requestId ≠ "") (he : error.Encodable) :
    ∃ result e, spec.decodeUnvalidated (wireMap h hshape (errorResponse requestId error)) =
      .ok (.response requestId result (some e)) := by
  obtain ⟨decoded, hdecoded, hk, -, hsubject, -, herror⟩ :=
    decodeUnvalidated_errorResponse h hshape hkind hid he
  cases decoded with
  | request => cases hk
  | event => cases hk
  | response correlationId result decodedError =>
    cases decodedError with
    | none => cases herror
    | some e =>
      obtain rfl : requestId = correlationId := hsubject
      exact ⟨result, e, hdecoded⟩

end EnvelopeSpec

namespace Peer

open EnvelopeSpec

variable {json : TypeScript.LosslessJson} {spec : EnvelopeSpec} {shape : FrameSpec}
  {requestId : String} {error : WireError}

/-- A text that a peer accepts is one that its JSON library can hold. -/
theorem Accepts.wellFormed {peer : Peer} {text : Json} (h : Accepts json spec requestId text peer) :
    text.wellFormed = true := by
  cases peer with
  | go =>
    obtain ⟨object, rfl, -⟩ := h
    exact object.property
  | rust =>
    obtain ⟨object, rfl, -⟩ := h
    exact object.property
  | typescript =>
    obtain ⟨object, rfl, -⟩ := h
    exact object.property

theorem accepts_go_iff (h : spec.WellFormed) (hshape : shape ∈ spec.frames)
    (hkind : shape.kind = .response) (hid : requestId ≠ "") (he : error.Encodable) :
    Accepts json spec requestId (.object (spec.wireObject shape (errorResponse requestId error))) .go ↔
      Takes json spec error .go := by
  constructor
  · rintro ⟨object, -, frame, err, hdecode, -⟩ c hc
    unfold Go.Tables.decode at hdecode
    cases hconstants : Go.Tables.decodeConstants object (Go.renderCodec spec).constants with
    | error e =>
      rw [hconstants] at hdecode
      cases hdecode
    | ok u => exact Go.ne_empty_of_decodeConstants hconstants _ (List.mem_map.mpr ⟨c, hc, rfl⟩)
  · intro hconstants
    obtain ⟨result, e, hdecoded⟩ := exists_decodeUnvalidated_errorResponse h hshape hkind hid he
    have hgo := (Go.decode_agree h hconstants _).eq_ok hdecoded
    exact ⟨_, rfl, _, _, hgo, rfl, rfl, rfl⟩

theorem accepts_rust (h : spec.WellFormed) (hshape : shape ∈ spec.frames)
    (hkind : shape.kind = .response) (hid : requestId ≠ "") (he : error.Encodable) :
    Accepts json spec requestId (.object (spec.wireObject shape (errorResponse requestId error)))
      .rust := by
  obtain ⟨result, e, hdecoded⟩ := exists_decodeUnvalidated_errorResponse h hshape hkind hid he
  have hrust := (Rust.decode_agree _).eq_ok hdecoded
  exact ⟨_, rfl, _, _, hrust, rfl, rfl, rfl⟩

theorem accepts_typescript_iff (h : spec.WellFormed) (hshape : shape ∈ spec.frames)
    (hkind : shape.kind = .response) (hid : requestId ≠ "") (he : error.Encodable) :
    Accepts json spec requestId (.object (spec.wireObject shape (errorResponse requestId error)))
        .typescript ↔ Takes json spec error .typescript := by
  have hnumbers := @everywhere_wireObject_iff spec shape requestId error json
    (h.frame_valid shape hshape) hkind
  constructor
  · rintro ⟨object, htext, result, err, hdecode⟩
    refine hnumbers.mp ?_
    rw [htext]
    unfold TypeScript.EnvelopeDescriptor.decode TypeScript.LosslessJson.decodeWireJson at hdecode
    by_contra hne
    rw [if_neg hne] at hdecode
    cases hdecode
  · intro htakes
    obtain ⟨result, e, hdecoded⟩ := exists_decodeUnvalidated_errorResponse h hshape hkind hid he
    have hcode := @safeCode_wireMap spec shape requestId error h hshape hkind htakes.1
    have hts := (TypeScript.decode_agree_of_acceptsNumber json (hnumbers.mpr htakes) hcode).eq_ok
      hdecoded
    exact ⟨_, rfl, _, _, hts⟩

/-- The decoder of a peer reads the response of an encodable error exactly if it takes the error. -/
theorem accepts_iff (h : spec.WellFormed) (hshape : shape ∈ spec.frames)
    (hkind : shape.kind = .response) (hid : requestId ≠ "") (he : error.Encodable) (peer : Peer) :
    Accepts json spec requestId (.object (spec.wireObject shape (errorResponse requestId error))) peer ↔
      Takes json spec error peer := by
  cases peer with
  | go => exact accepts_go_iff h hshape hkind hid he
  | rust => exact iff_of_true (accepts_rust h hshape hkind hid he) trivial
  | typescript => exact accepts_typescript_iff h hshape hkind hid he

end Peer

end Rtvbp.Envelope
