import Rtvbp.Envelope.GoCodec
import Rtvbp.Envelope.RustCodec
import Rtvbp.Envelope.Proofs.EncodeProofs
import Rtvbp.Lib.Agree

/-!
# The codec templates

The codecs that are generated from a declaration against the reference codec: they accept the same
frames and write the same wire object, and they decode alike. The Go template reads the constant fields
with `requiredString`, which refuses the empty string, so that its decoding agrees only for constants
that are not empty.
-/

namespace Rtvbp.Envelope

open Rtvbp.Lib

/-! ## The wire fields by kind -/

namespace EnvelopeSpec

variable {spec : EnvelopeSpec} {shape : FrameSpec} {field : FieldSpec}

/-- The identity and payload fields of a request or an event. -/
def identityFields (spec : EnvelopeSpec) (shape : FrameSpec) (field : FieldSpec) (id method : String)
    (payload : Option Value) : WireFields :=
  spec.constantFields ++ [(field.name, .string id), (shape.discriminator.name, .string method)] ++
    serializeOptional shape.payload payload

theorem wireObject_request (hid : shape.id = some field) (herror : shape.error = none)
    {id method : String} {params : Option Value} :
    spec.wireObject shape (.request id method params) =
      spec.identityFields shape field id method params := by
  simp [wireObject, bodyFields, errorFields, identityFields, hid, herror, ControlFrame.identity,
    ControlFrame.subject, ControlFrame.payload]

theorem wireObject_event (hid : shape.id = some field) (herror : shape.error = none)
    {id name : String} {data : Option Value} :
    spec.wireObject shape (.event id name data) =
      spec.identityFields shape field id name data := by
  simp [wireObject, bodyFields, errorFields, identityFields, hid, herror, ControlFrame.identity,
    ControlFrame.subject, ControlFrame.payload]

theorem wireObject_response (hid : shape.id = none) (herror : shape.error = some field)
    {correlationId : String} {result : Option Value} {error : Option WireError} :
    spec.wireObject shape (.response correlationId result error) =
      spec.constantFields ++ [(shape.discriminator.name, .string correlationId)] ++
        serializeOptional shape.payload result ++
        (match error with
          | some e => [(field.name, .object (spec.encodedError e))]
          | none => serializeOptional field none) := by
  cases error <;>
    simp [wireObject, bodyFields, errorFields, hid, herror, ControlFrame.subject,
      ControlFrame.payload, ControlFrame.error]

end EnvelopeSpec

/-! ## The Rust template -/

namespace Rust

variable {spec : EnvelopeSpec}

theorem validateWireError_eq_ok {error : WireError} :
    validateWireError error = .ok () ↔ error.Encodable := by
  unfold validateWireError WireError.Encodable
  split_ifs with h
  · simpa using fun hc => h.resolve_left hc
  · simpa using h

theorem frameSpec_renderCodec {kind : FrameKind} {shape : FrameSpec}
    (h : spec.frame kind = .ok shape) : (renderCodec spec).frameSpec kind = .ok shape := by
  unfold EnvelopeSpec.frame at h
  unfold Tables.frameSpec renderCodec
  cases hfind : spec.frames.find? fun frame => frame.kind = kind with
  | none => simp [hfind] at h
  | some found => simpa [hfind] using h

theorem encodedError_renderCodec (error : WireError) :
    (renderCodec spec).encodedError error = spec.encodedError error := by
  obtain ⟨code, message, data⟩ := error
  cases data <;> rfl

theorem constants_renderCodec :
    ((renderCodec spec).constants.map fun c => (c.1, Json.string c.2)) = spec.constantFields := by
  simp [renderCodec, EnvelopeSpec.constantFields, Function.comp_def]

/-- The Rust template accepts the encodable frames and writes their wire object. -/
theorem encode_eq_ok_iff (h : spec.WellFormed) {shape : FrameSpec} {frame : Envelope.ControlFrame}
    (hshape : shape ∈ spec.frames) (hkind : shape.kind = frame.kind)
    (hframe : spec.frame frame.kind = .ok shape) {json : Json} :
    (renderCodec spec).encode (.ofFrame frame) = .ok json ↔
      frame.Encodable ∧ json = .object (spec.wireObject shape frame) := by
  have hvalid := h.frame_valid shape hshape
  have hspec := frameSpec_renderCodec hframe
  cases frame with
  | request id method params =>
    obtain ⟨idField, hid⟩ := hvalid.id_some (by rw [hkind]; simp [Envelope.ControlFrame.kind])
    have herror := hvalid.error_none (by rw [hkind]; simp [Envelope.ControlFrame.kind])
    rw [Envelope.ControlFrame.kind] at hspec
    rw [EnvelopeSpec.wireObject_request hid herror]
    by_cases h1 : id = "" <;> by_cases h2 : method = "" <;>
      simp [Tables.encode, validateFrame, ControlFrame.ofFrame, ControlFrame.request, hspec, hid,
        h1, h2, constants_renderCodec, Envelope.ControlFrame.Encodable, bind, Except.bind,
        pure, Except.pure, EnvelopeSpec.identityFields, eq_comm]
  | response correlationId result error =>
    obtain ⟨errorField, herror⟩ := hvalid.error_some (by rw [hkind]; rfl)
    have hid := hvalid.id_none (by rw [hkind]; rfl)
    rw [Envelope.ControlFrame.kind] at hspec
    rw [EnvelopeSpec.wireObject_response hid herror]
    by_cases h1 : correlationId = ""
    · simp [Tables.encode, validateFrame, ControlFrame.ofFrame, ControlFrame.response, h1,
        Envelope.ControlFrame.Encodable, bind, Except.bind]
    · cases error with
      | none =>
        cases homit : errorField.omitWhenNone <;>
          simp [Tables.encode, validateFrame, ControlFrame.ofFrame, ControlFrame.response, h1, hspec,
            herror, constants_renderCodec, Envelope.ControlFrame.Encodable, bind, Except.bind, pure,
            Except.pure, serializeOptional, homit]
        all_goals exact eq_comm
      | some e =>
        cases hv : validateWireError e with
        | error x =>
          have hne : ¬ e.Encodable := fun hen => by simp [validateWireError_eq_ok.2 hen] at hv
          simp [Tables.encode, validateFrame, ControlFrame.ofFrame, ControlFrame.response, h1, hspec,
            herror, hv, hne, Envelope.ControlFrame.Encodable, bind, Except.bind]
        | ok u =>
          simp [Tables.encode, validateFrame, ControlFrame.ofFrame, ControlFrame.response, h1, hspec,
            herror, hv, validateWireError_eq_ok.1 hv, constants_renderCodec,
            encodedError_renderCodec, Envelope.ControlFrame.Encodable, bind, Except.bind, pure,
            Except.pure, eq_comm]
  | event id name data =>
    obtain ⟨idField, hid⟩ := hvalid.id_some (by rw [hkind]; simp [Envelope.ControlFrame.kind])
    have herror := hvalid.error_none (by rw [hkind]; simp [Envelope.ControlFrame.kind])
    rw [Envelope.ControlFrame.kind] at hspec
    rw [EnvelopeSpec.wireObject_event hid herror]
    by_cases h1 : id = "" <;> by_cases h2 : name = "" <;>
      simp [Tables.encode, validateFrame, ControlFrame.ofFrame, ControlFrame.event, hspec, hid,
        h1, h2, constants_renderCodec, Envelope.ControlFrame.Encodable, bind, Except.bind,
        pure, Except.pure, EnvelopeSpec.identityFields, eq_comm]

theorem decodeConstants_agree (object : JsonMap) (constants : List ConstantField) :
    Agree id (EnvelopeSpec.decodeConstants object constants)
      (Tables.decodeConstants object (constants.map fun c => (c.name, c.value))) := by
  induction constants with
  | nil => exact .ok ()
  | cons c cs ih =>
    simp only [EnvelopeSpec.decodeConstants, List.map_cons, Tables.decodeConstants]
    split_ifs
    · exact ih
    · exact .error _ _

theorem decodeError_agree (object : JsonMap) (shape : FrameSpec) :
    Agree id (spec.decodeResponseError object shape)
      ((renderCodec spec).decodeError object shape) := by
  unfold EnvelopeSpec.decodeResponseError Tables.decodeError
  cases shape.error.bind fun field => object.get field.name with
  | none => exact .ok none
  | some value =>
    dsimp only
    by_cases hnull : value.isNull = true
    · rw [if_pos hnull, if_pos hnull]
      exact .ok none
    · rw [if_neg hnull, if_neg hnull]
      unfold EnvelopeSpec.decodeError
      cases value.asObject with
      | none => exact .error _ _
      | some error =>
        simp only [renderCodec]
        cases (error.get spec.error.code.name).bind Value.asI64 with
        | none => exact .error _ _
        | some code =>
          by_cases hcode : code = 0
          · cases nonEmptyString error spec.error.message.name <;> simp [hcode, Option.filter]
          · cases nonEmptyString error spec.error.message.name <;> simp [hcode, Option.filter]

theorem requiredId_agree (object : JsonMap) (shape : FrameSpec) (kind : String) :
    Agree id (requiredFrameId object shape kind) (requiredId object shape kind) := by
  unfold requiredFrameId requiredId
  cases shape.id with
  | none => exact .error _ _
  | some field =>
    dsimp only
    cases nonEmptyString object field.name with
    | none => exact .error _ _
    | some id => exact .ok id

theorem decodeShape_agree (object : JsonMap) (shape : FrameSpec) (discriminator : String) :
    Agree ControlFrame.ofFrame (spec.decodeShape object shape discriminator)
      ((renderCodec spec).decodeShape object shape discriminator) := by
  unfold EnvelopeSpec.decodeShape Tables.decodeShape
  cases shape.kind with
  | request => exact (requiredId_agree object shape _).bind fun id => .ok _
  | event => exact (requiredId_agree object shape _).bind fun id => .ok _
  | response => exact (decodeError_agree object shape).bind fun error => .ok _

theorem decodeFrames_agree (object : JsonMap) (frames : List FrameSpec) :
    Agree ControlFrame.ofFrame (spec.decodeFrames object frames)
      ((renderCodec spec).decodeFrames object frames) := by
  induction frames with
  | nil => exact .error _ _
  | cons shape shapes ih =>
    unfold EnvelopeSpec.decodeFrames Tables.decodeFrames
    cases nonEmptyString object shape.discriminator.name with
    | none => exact ih
    | some discriminator => exact decodeShape_agree object shape discriminator

theorem decode_agree (object : JsonMap) :
    Agree ControlFrame.ofFrame (spec.decodeUnvalidated object)
      ((renderCodec spec).decode object) :=
  (decodeConstants_agree object spec.constants).bind fun _ => decodeFrames_agree object spec.frames

end Rust

/-! ## The Go template -/

namespace Go

variable {spec : EnvelopeSpec}

theorem discriminatorString_eq (object : JsonMap) (name : String) :
    discriminatorString object name = nonEmptyString object name := by
  unfold discriminatorString nonEmptyString
  cases object.get name with
  | none => rfl
  | some raw =>
    obtain ⟨raw, hraw⟩ := raw
    cases raw <;> simp [unmarshalString, Value.asStr, Option.filter]

theorem requiredString_eq_ok_iff {object : JsonMap} {name value : String} :
    requiredString object name = .ok value ↔ nonEmptyString object name = some value := by
  rw [← discriminatorString_eq]
  unfold requiredString discriminatorString
  cases object.get name with
  | none => simp
  | some raw =>
    dsimp only
    cases unmarshalString raw with
    | none => simp
    | some text =>
      dsimp only
      split_ifs <;> simp

theorem requiredString_eq_error {object : JsonMap} {name : String}
    (h : nonEmptyString object name = none) : ∃ e, requiredString object name = .error e := by
  cases hr : requiredString object name with
  | error e => exact ⟨e, rfl⟩
  | ok value => simp [requiredString_eq_ok_iff.1 hr] at h

theorem optionalRaw_eq (object : JsonMap) (field : FieldSpec) :
    optionalRaw object field.name = .ofValue (optionalValue object field) := by
  unfold optionalRaw optionalValue RawMessage.ofValue
  cases object.get field.name <;> rfl

theorem foldl_appendValue (fields : WireFields) (constants : List ConstantSpec) :
    constants.foldl (fun fields c => appendValue fields c.name (.string c.value)) fields =
      fields ++ constants.map fun c => (c.name, .string c.value) := by
  induction constants generalizing fields with
  | nil => simp
  | cons c cs ih =>
    rw [List.foldl_cons, ih]
    simp [appendValue]

theorem constants_renderCodec :
    (renderCodec spec).constants.foldl (fun fields c => appendValue fields c.name (.string c.value)) []
      = spec.constantFields := by
  simp [foldl_appendValue, renderCodec, EnvelopeSpec.constantFields]

theorem appendRaw_ofValue (tables : Tables) (fields : WireFields) (field : FieldSpec)
    (value : Option Value) :
    tables.appendRaw fields field.name (.ofValue value) field.omitWhenNone =
      .ok (fields ++ serializeOptional field value) := by
  cases value with
  | some v => rfl
  | none => cases h : field.omitWhenNone <;> simp [RawMessage.ofValue, Tables.appendRaw, serializeOptional, h]

theorem appendRaw_json (tables : Tables) (fields : WireFields) (name : String) (v : Json)
    (omitWhenNone : Bool) :
    tables.appendRaw fields name (.json v) omitWhenNone = .ok (fields ++ [(name, v)]) := rfl

theorem frameForKind_renderCodec {kind : FrameKind} {shape : Envelope.FrameSpec}
    (h : spec.frame kind = .ok shape) :
    (renderCodec spec).frameForKind kind = some (renderFrame shape) := by
  unfold EnvelopeSpec.frame at h
  have hfind : (spec.frames.find? fun frame => frame.kind = kind) = some shape := by
    cases hfind : spec.frames.find? fun frame => frame.kind = kind with
    | none => simp [hfind] at h
    | some found => simpa [hfind] using h
  simp only [Tables.frameForKind, renderCodec, List.find?_map, Function.comp_def]
  rw [show (fun frame => decide ((renderFrame frame).kind = kind)) =
    fun frame : Envelope.FrameSpec => decide (frame.kind = kind) from rfl, hfind]
  rfl

theorem encodeError_ofError (error : Envelope.WireError) (json : RawMessage) :
    (renderCodec spec).encodeError (.ofError error) = .ok json ↔
      error.Encodable ∧ json = .json (.object (spec.encodedError error)) := by
  have happend := appendRaw_ofValue (renderCodec spec)
    [(spec.error.code.name, .number (.int error.code.toInt)),
      (spec.error.message.name, .string error.message)] spec.error.data error.data
  unfold Tables.encodeError Envelope.WireError.Encodable EnvelopeSpec.encodedError
  by_cases h1 : error.code = 0
  · simp [WireError.ofError, h1]
  · by_cases h2 : error.message = ""
    · simp [WireError.ofError, h1, h2]
    · simp only [WireError.ofError, h1, h2, if_false, appendValue, List.nil_append]
      simp only [renderCodec, List.cons_append, List.nil_append] at happend ⊢
      rw [happend]
      simp only [ne_eq, h1, h2, not_false_eq_true, true_and]
      exact ⟨fun heq => by cases heq; rfl, fun heq => by rw [heq]; rfl⟩

/-- The Go template accepts the encodable frames and writes their wire object. -/
theorem encode_eq_ok_iff (h : spec.WellFormed) {shape : Envelope.FrameSpec}
    {frame : Envelope.ControlFrame} (hshape : shape ∈ spec.frames) (hkind : shape.kind = frame.kind)
    (hframe : spec.frame frame.kind = .ok shape) {json : Json} :
    (renderCodec spec).encode (.ofFrame frame) = .ok json ↔
      frame.Encodable ∧ json = .object (spec.wireObject shape frame) := by
  have hvalid := h.frame_valid shape hshape
  have hspec := frameForKind_renderCodec hframe
  cases frame with
  | request id method params =>
    obtain ⟨idField, hid⟩ := hvalid.id_some (by rw [hkind]; simp [Envelope.ControlFrame.kind])
    have herror := hvalid.error_none (by rw [hkind]; simp [Envelope.ControlFrame.kind])
    rw [Envelope.ControlFrame.kind] at hspec
    rw [EnvelopeSpec.wireObject_request hid herror]
    simp only [Tables.encode, ControlFrame.ofFrame, hspec, constants_renderCodec]
    by_cases h1 : id = "" <;> by_cases h2 : method = "" <;>
      simp [Tables.appendIdentity, Tables.appendError, renderFrame, hid, herror, h1, h2,
        Envelope.ControlFrame.Encodable, bind, Except.bind, appendRaw_ofValue, appendValue,
        pure, Except.pure, EnvelopeSpec.identityFields, eq_comm]
  | response correlationId result error =>
    obtain ⟨errorField, herror⟩ := hvalid.error_some (by rw [hkind]; rfl)
    have hid := hvalid.id_none (by rw [hkind]; rfl)
    have hname : errorField.name ≠ "" :=
      hvalid.names_nonempty errorField (FrameSpec.mem_wireFields.2 (by simp [herror]))
    rw [Envelope.ControlFrame.kind] at hspec
    rw [EnvelopeSpec.wireObject_response hid herror]
    simp only [Tables.encode, ControlFrame.ofFrame, hspec, constants_renderCodec]
    by_cases h1 : correlationId = ""
    · simp [Tables.appendIdentity, h1, Envelope.ControlFrame.Encodable, bind, Except.bind]
    · cases error with
      | none =>
        have happend := fun fields => appendRaw_ofValue (renderCodec spec) fields errorField none
        simp only [RawMessage.ofValue] at happend
        simp [Tables.appendIdentity, Tables.appendError, renderFrame, h1, herror, hname, happend,
          Envelope.ControlFrame.Encodable, bind, Except.bind, appendRaw_ofValue, appendValue,
          pure, Except.pure]
        exact eq_comm
      | some e =>
        cases hv : (renderCodec spec).encodeError (.ofError e) with
        | error x =>
          have hne : ¬ e.Encodable := fun hen => by
            rw [(encodeError_ofError e _).mpr ⟨hen, rfl⟩] at hv
            cases hv
          simp [Tables.appendIdentity, Tables.appendError, renderFrame, h1, herror, hname, hv, hne,
            Envelope.ControlFrame.Encodable, bind, Except.bind, appendRaw_ofValue, appendValue]
        | ok raw =>
          obtain ⟨hen, rfl⟩ := (encodeError_ofError e _).mp hv
          simp [Tables.appendIdentity, Tables.appendError, renderFrame, h1, herror, hname, hv, hen,
            appendRaw_json, Envelope.ControlFrame.Encodable, bind, Except.bind, appendRaw_ofValue,
            appendValue, pure, Except.pure]
          exact eq_comm
  | event id name data =>
    obtain ⟨idField, hid⟩ := hvalid.id_some (by rw [hkind]; simp [Envelope.ControlFrame.kind])
    have herror := hvalid.error_none (by rw [hkind]; simp [Envelope.ControlFrame.kind])
    rw [Envelope.ControlFrame.kind] at hspec
    rw [EnvelopeSpec.wireObject_event hid herror]
    simp only [Tables.encode, ControlFrame.ofFrame, hspec, constants_renderCodec]
    by_cases h1 : id = "" <;> by_cases h2 : name = "" <;>
      simp [Tables.appendIdentity, Tables.appendError, renderFrame, hid, herror, h1, h2,
        Envelope.ControlFrame.Encodable, bind, Except.bind, appendRaw_ofValue, appendValue,
        pure, Except.pure, EnvelopeSpec.identityFields, eq_comm]

/-- The constants are checked alike if none of them is empty. -/
theorem decodeConstants_agree (object : JsonMap) {constants : List ConstantField}
    (h : ∀ c ∈ constants, c.value ≠ "") :
    Agree id (EnvelopeSpec.decodeConstants object constants)
      (Tables.decodeConstants object (constants.map fun c => { name := c.name, value := c.value })) := by
  induction constants with
  | nil => exact .ok ()
  | cons c cs ih =>
    have hc : c.value ≠ "" := h c (by simp)
    have hcs := ih fun d hd => h d (by simp [hd])
    have hread : (object.get c.name).bind Value.asStr = some c.value ↔
        requiredString object c.name = .ok c.value := by
      rw [requiredString_eq_ok_iff, nonEmptyString, Option.filter_eq_some_iff]
      simp [hc]
    simp only [EnvelopeSpec.decodeConstants, List.map_cons, Tables.decodeConstants]
    cases hr : requiredString object c.name with
    | error e =>
      rw [if_neg (by rw [hread, hr]; simp)]
      exact .error _ _
    | ok value =>
      by_cases hv : value = c.value
      · rw [if_pos (by rw [hread, hr, hv])]
        simpa [hv] using hcs
      · rw [if_neg (by rw [hread, hr]; simpa using hv)]
        simp [hv]

/-- Constants that the Go template accepts are not empty. -/
theorem ne_empty_of_decodeConstants {object : JsonMap} {constants : List ConstantSpec}
    (h : Tables.decodeConstants object constants = .ok ()) : ∀ c ∈ constants, c.value ≠ "" := by
  induction constants with
  | nil => simp
  | cons c cs ih =>
    unfold Tables.decodeConstants at h
    cases hr : requiredString object c.name with
    | error e => simp [hr] at h
    | ok value =>
      simp only [hr] at h
      split_ifs at h with hv
      have hne := (Option.filter_eq_some_iff.mp (requiredString_eq_ok_iff.1 hr)).2
      simp only [bne_iff_ne] at hne
      exact List.forall_mem_cons.mpr ⟨hv ▸ hne, ih h⟩

/-- The code of an error is read alike, except that Go reads `null` as zero. -/
theorem unmarshalInt_cases (raw : Value) :
    unmarshalInt raw = raw.asI64 ∨ (unmarshalInt raw = some 0 ∧ raw.asI64 = none) := by
  obtain ⟨raw, hraw⟩ := raw
  cases raw with
  | number n => cases n <;> exact Or.inl rfl
  | null => exact Or.inr ⟨rfl, rfl⟩
  | _ => exact Or.inl rfl

theorem decodeError_agree (value : Value) :
    Agree WireError.ofError (spec.decodeError value) ((renderCodec spec).decodeError value) := by
  unfold EnvelopeSpec.decodeError Tables.decodeError
  cases value.asObject with
  | none => exact .error _ _
  | some object =>
    simp only [renderCodec]
    cases object.get spec.error.code.name with
    | none => exact .error _ _
    | some raw =>
      simp only [Option.bind_some]
      rcases unmarshalInt_cases raw with hcode | ⟨hcode, hnone⟩
      · rw [hcode]
        cases raw.asI64 with
        | none => exact .error _ _
        | some code =>
          cases hm : nonEmptyString object spec.error.message.name with
          | none =>
            obtain ⟨e, he⟩ := requiredString_eq_error hm
            by_cases h0 : code = 0 <;> simp [h0, he]
          | some message =>
            have hr := requiredString_eq_ok_iff.2 hm
            by_cases h0 : code = 0 <;> simp [h0, hr, WireError.ofError, optionalRaw_eq]
      · rw [hcode, hnone]
        exact .error _ _

variable {shape : Envelope.FrameSpec} {constants : List String}

theorem decodeFrameError_agree (h : shape.Valid constants) (object : JsonMap) :
    Agree (Option.map WireError.ofError) (spec.decodeResponseError object shape)
      ((renderCodec spec).decodeFrameError object (renderFrame shape)) := by
  unfold EnvelopeSpec.decodeResponseError Tables.decodeFrameError
  cases herror : shape.error with
  | none => simp [renderFrame, herror]
  | some field =>
    have hname : field.name ≠ "" :=
      h.names_nonempty field (FrameSpec.mem_wireFields.2 (by simp [herror]))
    simp only [renderFrame, herror, Option.elim_some, hname, if_false, Option.bind_some]
    cases object.get field.name with
    | none => exact .ok none
    | some raw =>
      dsimp only
      by_cases hnull : raw.isNull = true
      · rw [if_pos hnull, if_pos hnull]
        exact .ok none
      · rw [if_neg hnull, if_neg hnull]
        exact (decodeError_agree raw).map fun e => rfl

theorem requiredFrameId_agree (h : shape.Valid constants) (hk : shape.kind ≠ .response)
    (object : JsonMap) (kind : String) :
    Agree id (requiredFrameId object shape kind) (requiredString object (renderFrame shape).id) := by
  obtain ⟨field, hid⟩ := h.id_some hk
  unfold requiredFrameId
  simp only [hid, renderFrame, Option.elim_some]
  cases hn : nonEmptyString object field.name with
  | some id => simp [requiredString_eq_ok_iff.2 hn]
  | none =>
    obtain ⟨e, he⟩ := requiredString_eq_error hn
    simp [he]

theorem decodeFrameError_eq_none (h : shape.Valid constants) (hk : shape.kind ≠ .response)
    (object : JsonMap) :
    (renderCodec spec).decodeFrameError object (renderFrame shape) = .ok none := by
  simp [Tables.decodeFrameError, renderFrame, h.error_none hk]

theorem decodeShape_agree (h : shape.Valid constants) (object : JsonMap) (discriminator : String) :
    Agree ControlFrame.ofFrame (spec.decodeShape object shape discriminator)
      ((renderCodec spec).decodeShape object (renderFrame shape) discriminator) := by
  have hkind : (renderFrame shape).kind = shape.kind := rfl
  unfold EnvelopeSpec.decodeShape Tables.decodeShape
  rw [hkind]
  cases hk : shape.kind with
  | response =>
    simp only [if_true]
    refine (decodeFrameError_agree h object).bind fun error => ?_
    simp [pure, Except.pure, ControlFrame.ofFrame, renderFrame, optionalRaw_eq]
  | request =>
    have hne : shape.kind ≠ .response := by simp [hk]
    rw [if_neg (by simp), decodeFrameError_eq_none h hne, bind_assoc]
    refine (requiredFrameId_agree h hne object _).bind fun id => ?_
    simp [bind, Except.bind, pure, Except.pure, ControlFrame.ofFrame, renderFrame, optionalRaw_eq]
  | event =>
    have hne : shape.kind ≠ .response := by simp [hk]
    rw [if_neg (by simp), decodeFrameError_eq_none h hne, bind_assoc]
    refine (requiredFrameId_agree h hne object _).bind fun id => ?_
    simp [bind, Except.bind, pure, Except.pure, ControlFrame.ofFrame, renderFrame, optionalRaw_eq]

theorem decodeFrames_agree {frames : List Envelope.FrameSpec}
    (h : ∀ shape ∈ frames, shape.Valid constants) (object : JsonMap) :
    Agree ControlFrame.ofFrame (spec.decodeFrames object frames)
      ((renderCodec spec).decodeFrames object (frames.map renderFrame)) := by
  induction frames with
  | nil => exact .error _ _
  | cons shape shapes ih =>
    have hrest := ih fun s hs => h s (by simp [hs])
    have hname : (renderFrame shape).discriminator = shape.discriminator.name := rfl
    rw [List.map_cons]
    unfold EnvelopeSpec.decodeFrames Tables.decodeFrames
    rw [hname, discriminatorString_eq]
    cases nonEmptyString object shape.discriminator.name with
    | none => exact hrest
    | some discriminator => exact decodeShape_agree (h shape (by simp)) object discriminator

theorem decode_agree (h : spec.WellFormed) (hconstants : ∀ c ∈ spec.constants, c.value ≠ "")
    (object : JsonMap) :
    Agree ControlFrame.ofFrame (spec.decodeUnvalidated object)
      ((renderCodec spec).decode object) :=
  (decodeConstants_agree object hconstants).bind fun _ => decodeFrames_agree h.frame_valid object

end Go

end Rtvbp.Envelope
