import Rtvbp.Envelope.Proofs.TemplateProofs
import Rtvbp.Envelope.Proofs.RoundTripProofs
import Rtvbp.TypeScript.EnvelopeCodec

/-!
# The four codecs

The reference codec, the Go and Rust templates and the TypeScript codec interpret one declaration. They
write the same fields for the same frames, and read the same frames from the same objects, exactly for
the declarations without an empty constant.
-/

namespace Rtvbp.Envelope

open Rtvbp.Lib

/-- The numbers of an error are integers in the safe range. -/
def WireError.safeNumbers (error : WireError) : Prop :=
  Json.isSafeInteger error.code.toInt = true ∧ ∀ v, error.data = some v → v.val.safeNumbers = true

/-- The numbers of a frame are integers in the safe range. -/
def ControlFrame.safeNumbers (frame : ControlFrame) : Prop :=
  (∀ v, frame.payload = some v → v.val.safeNumbers = true) ∧
    ∀ e, frame.error = some e → e.safeNumbers

/-- The codecs of a declaration write the same ordered wire fields for the same frames and read
corresponding frames from the same objects. -/
structure CodecsAgree (json : TypeScript.LosslessJson) (spec : EnvelopeSpec) : Prop where
  go_encode : ∀ frame : ControlFrame, frame.safeNumbers →
    Agree Json.object (spec.encodeUnvalidated frame)
      ((Go.renderCodec spec).encode (.ofFrame frame))
  rust_encode : ∀ frame : ControlFrame, frame.safeNumbers →
    Agree Json.object (spec.encodeUnvalidated frame)
      ((Rust.renderCodec spec).encode (.ofFrame frame))
  typescript_encode : ∀ frame : ControlFrame, frame.safeNumbers →
    Agree Json.object (spec.encodeUnvalidated frame)
      ((TypeScript.renderEnvelope spec).encode (.ofFrame TypeScript.wireValue frame))
  go_decode : ∀ object : JsonMap, (Json.object object.val).safeNumbers = true →
    Agree Go.ControlFrame.ofFrame (spec.decodeUnvalidated object)
      ((Go.renderCodec spec).decode object)
  rust_decode : ∀ object : JsonMap, (Json.object object.val).safeNumbers = true →
    Agree Rust.ControlFrame.ofFrame (spec.decodeUnvalidated object)
      ((Rust.renderCodec spec).decode object)
  typescript_decode : ∀ object : JsonMap, (Json.object object.val).safeNumbers = true →
    Agree (TypeScript.ControlFrame.ofFrame TypeScript.parsed) (spec.decodeUnvalidated object)
      ((TypeScript.renderEnvelope spec).decode json ⟨.object object.val, object.property⟩)

/-! ## The TypeScript codec -/

end Rtvbp.Envelope

namespace Rtvbp.TypeScript

open Rtvbp.Lib
open Rtvbp.Envelope (EnvelopeSpec FrameSpec FieldSpec WireFields nonEmptyString optionalValue
  serializeOptional)

theorem wireFields_eq_map (fields : List (String × Json)) :
    wireFields fields = fields.map fun f => (f.1, wireValue f.2) := by
  induction fields with
  | nil => rfl
  | cons f fs ih => simp [wireFields, ih]

mutual

/-- A value with safe numbers and distinct keys is written as it is. -/
theorem encodeValue_wireValue : (v : Json) → v.wellFormed = true → v.safeNumbers = true →
    encodeValue (wireValue v) = .ok v
  | .null, _, _ => rfl
  | .bool _, _, _ => rfl
  | .string _, _, _ => rfl
  | .number (.int n), _, hs => by
    have hn : Json.isSafeInteger n = true := hs
    simp [wireValue, JsNumber.ofJson, encodeValue, hn]
  | .number (.float bits), _, hs => by cases hs
  | .array items, hw, hs => by
    simp only [Json.wellFormed, Json.safeNumbers, Json.everywhere_array] at hw hs
    rw [wireValue, encodeValue, encodeItems_wireItems items hw.2 hs.2]
    rfl
  | .object fields, hw, hs => by
    simp only [Json.safeNumbers, Json.everywhere_object] at hs
    rw [Json.wellFormed_object] at hw
    rw [wireValue, encodeValue, encodeEntries_wireFields [] fields hw.1 (by simp) hw.2 hs.2]
    rfl

theorem encodeItems_wireItems : (items : List Json) → (∀ v ∈ items, v.wellFormed = true) →
    (∀ v ∈ items, v.safeNumbers = true) → encodeItems (wireItems items) = .ok items
  | [], _, _ => rfl
  | v :: vs, hw, hs => by
    rw [wireItems, encodeItems, encodeValue_wireValue v (hw v (by simp)) (hs v (by simp)),
      encodeItems_wireItems vs (fun w h => hw w (by simp [h])) (fun w h => hs w (by simp [h]))]
    rfl

theorem encodeEntries_wireFields (seen : List String) : (fields : List (String × Json)) →
    (fields.map Prod.fst).Nodup → (∀ name ∈ seen, name ∉ fields.map Prod.fst) →
    (∀ f ∈ fields, f.2.wellFormed = true) → (∀ f ∈ fields, f.2.safeNumbers = true) →
    encodeEntries seen (wireFields fields) = .ok fields
  | [], _, _, _, _ => rfl
  | (name, v) :: fs, hnd, hseen, hw, hs => by
    simp only [List.map_cons, List.nodup_cons] at hnd hseen
    have hnew : name ∉ seen := fun h => hseen name h (by simp)
    rw [wireFields, encodeEntries, if_neg hnew,
      encodeValue_wireValue v (hw (name, v) (by simp)) (hs (name, v) (by simp)),
      encodeEntries_wireFields (name :: seen) fs hnd.2 ?_ (fun w h => hw w (by simp [h]))
        (fun w h => hs w (by simp [h]))]
    · rfl
    · intro other hother
      rcases List.mem_cons.mp hother with rfl | hother
      · exact hnd.1
      · exact fun h => hseen other hother (by simp [h])

end

variable {spec : EnvelopeSpec} {shape : FrameSpec}

theorem frameSpec_renderEnvelope {kind : Envelope.FrameKind} (h : spec.frame kind = .ok shape) :
    (renderEnvelope spec).frameSpec kind = .ok shape := by
  unfold EnvelopeSpec.frame at h
  unfold EnvelopeDescriptor.frameSpec renderEnvelope
  cases hfind : spec.frames.find? fun frame => frame.kind = kind with
  | none => simp [hfind] at h
  | some found => simpa [hfind] using h

theorem pushOptional_wireValue (field : FieldSpec) (value : Option Value) :
    pushOptional field (value.map fun v => wireValue v.val) =
      wireFields (serializeOptional field value) := by
  cases value with
  | some v => rfl
  | none => cases h : field.omitWhenNone <;> simp [pushOptional, serializeOptional, h, wireFields, wireValue]

theorem constants_renderEnvelope :
    ((renderEnvelope spec).constants.map fun c => (c.1, WireEncodable.string c.2)) =
      wireFields spec.constantFields := by
  simp [renderEnvelope, EnvelopeSpec.constantFields, wireFields_eq_map, wireValue]

theorem nonZeroSafeInteger_toInt {code : Int64} (h : Json.isSafeInteger code.toInt = true) :
    nonZeroSafeInteger (.integer code.toInt) = true ↔ code ≠ 0 := by
  have hzero : code.toInt = 0 ↔ code = 0 := by
    rw [← Int64.toInt_inj, Int64.toInt_zero]
  simp [nonZeroSafeInteger, h, hzero]

theorem errorEntries_eq_ok_iff {field : FieldSpec} (herror : shape.error = some field)
    {error : Option Envelope.WireError} (hsafe : ∀ e, error = some e → e.safeNumbers)
    {entries : Entries} :
    (renderEnvelope spec).errorEntries shape (error.map (.ofError wireValue)) = .ok entries ↔
      (∀ e, error = some e → e.Encodable) ∧ entries = wireFields (spec.errorFields shape error) := by
  unfold EnvelopeDescriptor.errorEntries
  cases error with
  | none =>
    have hpush := pushOptional_wireValue field none
    simp only [Option.map_none] at hpush
    simp [herror, EnvelopeSpec.errorFields, hpush, eq_comm]
  | some e =>
    have hcode := nonZeroSafeInteger_toInt (hsafe e rfl).1
    have hdata := pushOptional_wireValue spec.error.data e.data
    by_cases h1 : e.code = 0
    · have hzero : nonZeroSafeInteger (.integer 0) = false := rfl
      simp [herror, WireErrorValue.ofError, hzero, Envelope.WireError.Encodable, h1]
    · by_cases h2 : e.message = ""
      · simp [herror, WireErrorValue.ofError, hcode.mpr h1, Envelope.WireError.Encodable, h2]
      · simp only [herror, Option.map_some, WireErrorValue.ofError, hcode.mpr h1, h2, renderEnvelope,
          hdata, EnvelopeSpec.errorFields, Option.elim_some, Envelope.WireError.Encodable]
        simp [h1, h2, wireFields_eq_map, wireValue, EnvelopeSpec.encodedError, JsNumber.ofJson]
        exact eq_comm

/-- The TypeScript codec accepts the encodable frames and lists the entries of their wire object. -/
theorem frameEntries_eq_ok_iff (hvalid : shape.Valid spec.constantNames)
    {frame : Envelope.ControlFrame} (hkind : shape.kind = frame.kind) (hsafe : frame.safeNumbers)
    {entries : Entries} :
    (renderEnvelope spec).frameEntries shape (.ofFrame wireValue frame) = .ok entries ↔
      frame.Encodable ∧ entries = wireFields (spec.bodyFields shape frame) := by
  cases frame with
  | request id method params =>
    obtain ⟨idField, hid⟩ := hvalid.id_some (by rw [hkind]; simp [Envelope.ControlFrame.kind])
    have herror := hvalid.error_none (by rw [hkind]; simp [Envelope.ControlFrame.kind])
    simp only [ControlFrame.ofFrame, EnvelopeDescriptor.frameEntries,
      EnvelopeDescriptor.identityEntries, hid, pushOptional_wireValue]
    by_cases h1 : id = "" <;> by_cases h2 : method = "" <;>
      simp [h1, h2, Envelope.ControlFrame.Encodable, EnvelopeSpec.bodyFields, hid, herror,
        EnvelopeSpec.errorFields, wireFields_eq_map, wireValue, Envelope.ControlFrame.identity,
        Envelope.ControlFrame.subject, Envelope.ControlFrame.payload, eq_comm]
  | response correlationId result error =>
    obtain ⟨errorField, herror⟩ := hvalid.error_some (by rw [hkind]; rfl)
    have hid := hvalid.id_none (by rw [hkind]; rfl)
    have hiff := @errorEntries_eq_ok_iff spec shape errorField herror error hsafe.2
    simp only [ControlFrame.ofFrame, EnvelopeDescriptor.frameEntries, pushOptional_wireValue]
    by_cases h1 : correlationId = ""
    · simp [h1, Envelope.ControlFrame.Encodable]
    · rw [if_neg h1]
      cases hen : (renderEnvelope spec).errorEntries shape (error.map (.ofError wireValue)) with
      | error x =>
        have hne : ¬ ∀ e, error = some e → e.Encodable := fun hall => by
          rw [hiff.mpr ⟨hall, rfl⟩] at hen
          cases hen
        simp [Envelope.ControlFrame.Encodable, hne, bind, Except.bind]
      | ok errorEntries =>
        obtain ⟨hall, rfl⟩ := hiff.mp hen
        simp [h1, Envelope.ControlFrame.Encodable, EnvelopeSpec.bodyFields, hid, bind,
          Except.bind, pure, Except.pure, wireFields_eq_map, wireValue,
          Envelope.ControlFrame.subject, Envelope.ControlFrame.payload, Envelope.ControlFrame.error]
        exact ⟨fun heq => ⟨hall, heq.symm⟩, fun heq => heq.2.symm⟩
  | event id name data =>
    obtain ⟨idField, hid⟩ := hvalid.id_some (by rw [hkind]; simp [Envelope.ControlFrame.kind])
    have herror := hvalid.error_none (by rw [hkind]; simp [Envelope.ControlFrame.kind])
    simp only [ControlFrame.ofFrame, EnvelopeDescriptor.frameEntries,
      EnvelopeDescriptor.identityEntries, hid, pushOptional_wireValue]
    by_cases h1 : id = "" <;> by_cases h2 : name = "" <;>
      simp [h1, h2, Envelope.ControlFrame.Encodable, EnvelopeSpec.bodyFields, hid, herror,
        EnvelopeSpec.errorFields, wireFields_eq_map, wireValue, Envelope.ControlFrame.identity,
        Envelope.ControlFrame.subject, Envelope.ControlFrame.payload, eq_comm]

theorem serializeOptional_safeNumbers {field : FieldSpec} {value : Option Value}
    (h : ∀ v, value = some v → v.val.safeNumbers = true) :
    ∀ p ∈ serializeOptional field value, p.2.safeNumbers = true := by
  intro p hp
  rcases (Envelope.mem_serializeOptional.1 hp).2 with ⟨v, hv, hpv⟩ | ⟨-, -, hnull⟩
  · rw [hpv]
    exact h v hv
  · rw [hnull]
    rfl

/-- The wire object of a frame with safe numbers has safe numbers. -/
theorem wireObject_safeNumbers {frame : Envelope.ControlFrame} (h : frame.safeNumbers) :
    (Json.object (spec.wireObject shape frame)).safeNumbers = true := by
  simp only [Json.safeNumbers, Json.everywhere_object]
  refine ⟨rfl, fun p hp => ?_⟩
  rcases List.mem_append.mp hp with hp | hp
  · obtain ⟨c, -, rfl⟩ := List.mem_map.mp hp
    rfl
  · rcases EnvelopeSpec.mem_bodyFields.1 hp with ⟨field, -, rfl⟩ | rfl | hp | hp
    · rfl
    · rfl
    · exact serializeOptional_safeNumbers h.1 p hp
    · obtain ⟨field, -, -, ⟨e, he, hpe⟩ | ⟨-, -, hnull⟩⟩ := EnvelopeSpec.mem_errorFields.1 hp
      · obtain ⟨hcode, hdata⟩ := h.2 e he
        rw [hpe, Json.everywhere_object]
        refine ⟨rfl, fun q hq => ?_⟩
        simp only [EnvelopeSpec.encodedError, List.mem_append, List.mem_cons, List.not_mem_nil,
          or_false] at hq
        rcases hq with (rfl | rfl) | hq
        · exact hcode
        · rfl
        · exact serializeOptional_safeNumbers hdata q hq
      · rw [hnull]
        rfl

/-- The TypeScript codec accepts the encodable frames and writes their wire object. -/
theorem encode_eq_ok_iff (h : spec.WellFormed) {frame : Envelope.ControlFrame}
    (hshape : shape ∈ spec.frames) (hkind : shape.kind = frame.kind)
    (hframe : spec.frame frame.kind = .ok shape) (hsafe : frame.safeNumbers) {json : Json} :
    (renderEnvelope spec).encode (.ofFrame wireValue frame) = .ok json ↔
      frame.Encodable ∧ json = .object (spec.wireObject shape frame) := by
  have hentries := @frameEntries_eq_ok_iff spec shape (h.frame_valid shape hshape) frame hkind hsafe
  have hencode := encodeValue_wireValue (.object (spec.wireObject shape frame))
    (EnvelopeSpec.wireObject_wellFormed h hshape frame) (wireObject_safeNumbers hsafe)
  have hk : (ControlFrame.ofFrame wireValue frame).kind = frame.kind := by cases frame <;> rfl
  unfold EnvelopeDescriptor.encode
  rw [hk, frameSpec_renderEnvelope hframe, constants_renderEnvelope]
  cases hen : (renderEnvelope spec).frameEntries shape (.ofFrame wireValue frame) with
  | error x =>
    have hne : ¬ frame.Encodable := fun he => by
      rw [hentries.mpr ⟨he, rfl⟩] at hen
      cases hen
    simp [hne, hen, bind, Except.bind]
  | ok entries =>
    obtain ⟨he, rfl⟩ := hentries.mp hen
    have happend : wireFields spec.constantFields ++ wireFields (spec.bodyFields shape frame) =
        wireFields (spec.wireObject shape frame) := by
      simp [wireFields_eq_map, EnvelopeSpec.wireObject]
    rw [wireValue] at hencode
    simp [hen, he, happend, encodeWireJson, hencode, bind, Except.bind, pure, Except.pure]
    exact eq_comm

theorem decodeWireJson_eq_ok_iff (json : LosslessJson) {value : Value} :
    json.decodeWireJson value = .ok value ↔ value.val.everywhere json.acceptsNumber = true := by
  unfold LosslessJson.decodeWireJson
  split_ifs with h
  · simp [h]
  · simp [h]

/-- Every parser accepts the integer literals in the safe range. -/
theorem everywhere_acceptsNumber (json : LosslessJson) {value : Json}
    (h : value.safeNumbers = true) : value.everywhere json.acceptsNumber = true := by
  refine Json.everywhere_mono (fun v hv => ?_) h
  cases v with
  | number n =>
    cases n with
    | int n => exact hv
    | float bits => cases hv
  | _ => rfl

theorem decodeConstants_agree (object : JsonMap) (constants : List Envelope.ConstantField) :
    Agree id (EnvelopeSpec.decodeConstants object constants)
      ((renderEnvelope spec).decodeConstants object (constants.map fun c => (c.name, c.value))) := by
  induction constants with
  | nil => exact .ok ()
  | cons c cs ih =>
    simp only [EnvelopeSpec.decodeConstants, List.map_cons, EnvelopeDescriptor.decodeConstants]
    split_ifs
    · exact ih
    · exact .error _ _

theorem decodeId_agree (object : JsonMap) (shape : FrameSpec) (kind : String) :
    Agree id (Envelope.requiredFrameId object shape kind)
      ((renderEnvelope spec).decodeId object shape kind) := by
  unfold Envelope.requiredFrameId EnvelopeDescriptor.decodeId
  cases shape.id with
  | none => exact .error _ _
  | some field =>
    dsimp only
    cases nonEmptyString object field.name with
    | none => exact .error _ _
    | some id => exact .ok id

/-- A code in the safe range is read as the same number. -/
theorem code_agree {object : JsonMap} {name : String}
    (h : ∀ v, object.get name = some v → v.val.numberSafe = true) :
    (EnvelopeDescriptor.numberProperty object name).filter nonZeroSafeInteger =
      (((object.get name).bind Value.asI64).filter fun code => code != 0).map
        fun code => .integer code.toInt := by
  unfold EnvelopeDescriptor.numberProperty
  cases hget : object.get name with
  | none => rfl
  | some v =>
    have hv := h v hget
    obtain ⟨v, hw⟩ := v
    cases v with
    | number n =>
      cases n with
      | float bits => cases hv
      | int n =>
        have hn : Json.isSafeInteger n = true := hv
        have hrange := Json.isSafeInteger_iff.1 hn
        have hint : (Int64.ofInt n).toInt = n :=
          Int64.toInt_ofInt_of_le (by simp; omega) (by simp; omega)
        have hzero : Int64.ofInt n = 0 ↔ n = 0 := by
          rw [← Int64.toInt_inj, hint, Int64.toInt_zero]
        have h64 : -2 ^ 63 ≤ n ∧ n < 2 ^ 63 := by omega
        simp only [Option.map_some, Option.bind_some, Value.asI64, if_pos h64]
        by_cases h0 : n = 0
        · simp [Option.filter, JsNumber.ofJson, nonZeroSafeInteger, h0]
        · simp [Option.filter, JsNumber.ofJson, nonZeroSafeInteger, hn, h0, hzero, hint]
    | _ => rfl

/-- The code of the error in an object is an integer literal in the safe range. -/
def SafeCode (spec : EnvelopeSpec) (object : JsonMap) : Prop :=
  ∀ name raw error v, object.get name = some raw → raw.asObject = some error →
    error.get spec.error.code.name = some v → v.val.numberSafe = true

theorem safeCode_of_safeNumbers {object : JsonMap}
    (h : (Json.object object.val).safeNumbers = true) : SafeCode spec object := by
  intro name raw error v hraw herror hv
  have hsafe := JsonMap.everywhere_get h hraw
  rw [Value.asObject_val herror] at hsafe
  exact Json.everywhere_self (JsonMap.everywhere_get hsafe hv)

theorem decodeError_agree {object : JsonMap} (h : SafeCode spec object) (shape : FrameSpec) :
    Agree (Option.map (.ofError parsed)) (spec.decodeResponseError object shape)
      ((renderEnvelope spec).decodeError object shape) := by
  unfold EnvelopeSpec.decodeResponseError EnvelopeDescriptor.decodeError
  cases hraw : shape.error.bind fun field => object.get field.name with
  | none => exact .ok none
  | some raw =>
    obtain ⟨field, -, hget⟩ := Option.bind_eq_some_iff.mp hraw
    dsimp only
    by_cases hnull : raw.isNull = true
    · rw [if_pos hnull, if_pos hnull]
      exact .ok none
    · rw [if_neg hnull, if_neg hnull]
      unfold EnvelopeSpec.decodeError
      cases hobj : raw.asObject with
      | none => exact .error _ _
      | some error =>
        simp only [renderEnvelope, code_agree fun v hv => h field.name raw error v hget hobj hv]
        cases (error.get spec.error.code.name).bind Value.asI64 with
        | none => exact .error _ _
        | some code =>
          by_cases hcode : code = 0
          · cases nonEmptyString error spec.error.message.name <;> simp [hcode, Option.filter]
          · cases nonEmptyString error spec.error.message.name <;>
              simp [hcode, Option.filter, WireErrorValue.ofError]

theorem decodeShape_agree {object : JsonMap} (h : SafeCode spec object) (shape : FrameSpec)
    (discriminator : String) :
    Agree (ControlFrame.ofFrame parsed) (spec.decodeShape object shape discriminator)
      ((renderEnvelope spec).decodeShape object shape discriminator) := by
  unfold EnvelopeSpec.decodeShape EnvelopeDescriptor.decodeShape
  cases shape.kind with
  | request => exact (decodeId_agree object shape _).bind fun id => .ok _
  | event => exact (decodeId_agree object shape _).bind fun id => .ok _
  | response => exact (decodeError_agree h shape).bind fun error => .ok _

theorem decodeFrames_agree {object : JsonMap} (h : SafeCode spec object) (frames : List FrameSpec) :
    Agree (ControlFrame.ofFrame parsed) (spec.decodeFrames object frames)
      ((renderEnvelope spec).decodeFrames object frames) := by
  induction frames with
  | nil => exact .error _ _
  | cons shape shapes ih =>
    unfold EnvelopeSpec.decodeFrames EnvelopeDescriptor.decodeFrames
    cases nonEmptyString object shape.discriminator.name with
    | none => exact ih
    | some discriminator => exact decodeShape_agree h shape discriminator

/-- The decoders agree on an object whose numbers the parser accepts, when the code of its error is an
integer literal. -/
theorem decode_agree_of_acceptsNumber (json : LosslessJson) {object : JsonMap}
    (hnumbers : (Json.object object.val).everywhere json.acceptsNumber = true)
    (hcode : SafeCode spec object) :
    Agree (ControlFrame.ofFrame parsed) (spec.decodeUnvalidated object)
      ((renderEnvelope spec).decode json ⟨.object object.val, object.property⟩) := by
  unfold EnvelopeDescriptor.decode
  rw [(decodeWireJson_eq_ok_iff json).mpr hnumbers]
  exact (decodeConstants_agree object spec.constants).bind fun _ =>
    decodeFrames_agree hcode spec.frames

theorem decode_agree (json : LosslessJson) {object : JsonMap}
    (h : (Json.object object.val).safeNumbers = true) :
    Agree (ControlFrame.ofFrame parsed) (spec.decodeUnvalidated object)
      ((renderEnvelope spec).decode json ⟨.object object.val, object.property⟩) :=
  decode_agree_of_acceptsNumber json (everywhere_acceptsNumber json h) (safeCode_of_safeNumbers h)

end Rtvbp.TypeScript

namespace Rtvbp.Envelope

open Rtvbp.Lib

variable {spec : EnvelopeSpec}

/-- A codec that writes the wire object of exactly the encodable frames agrees with the reference
codec. -/
theorem encode_agree {ε : Type} (h : spec.WellFormed) {frame : ControlFrame}
    {encoded : Except ε Json}
    (hiff : ∀ shape ∈ spec.frames, shape.kind = frame.kind → spec.frame frame.kind = .ok shape →
      ∀ json, encoded = .ok json ↔
        frame.Encodable ∧ json = .object (spec.wireObject shape frame)) :
    Agree Json.object (spec.encodeUnvalidated frame) encoded := by
  obtain ⟨shape, hshape, hkind, hframe⟩ := h.exists_frame frame.kind
  exact Agree.of_eq_ok_iff
    (fun _ => EnvelopeSpec.encodeUnvalidated_eq_ok_iff h hshape hkind hframe)
    (hiff shape hshape hkind hframe)

theorem codecsAgree_of_constants (json : TypeScript.LosslessJson) (h : spec.WellFormed)
    (hconstants : ∀ c ∈ spec.constants, c.value ≠ "") : CodecsAgree json spec where
  go_encode _ _ := encode_agree h fun _ hshape hkind hframe _ =>
    Go.encode_eq_ok_iff h hshape hkind hframe
  rust_encode _ _ := encode_agree h fun _ hshape hkind hframe _ =>
    Rust.encode_eq_ok_iff h hshape hkind hframe
  typescript_encode _ hsafe := encode_agree h fun _ hshape hkind hframe _ =>
    TypeScript.encode_eq_ok_iff h hshape hkind hframe hsafe
  go_decode object _ := Go.decode_agree h hconstants object
  rust_decode object _ := Rust.decode_agree object
  typescript_decode _ hsafe := TypeScript.decode_agree json hsafe

/-- The wire object of the probe of the first shape is accepted by the reference codec. -/
theorem decodeUnvalidated_probe (h : spec.WellFormed) {shape : FrameSpec} {shapes : List FrameSpec}
    (hframes : spec.frames = shape :: shapes) :
    ∃ object : JsonMap, (Json.object object.val).safeNumbers = true ∧
      ∃ decoded, spec.decodeUnvalidated object = .ok decoded := by
  have hshape : shape ∈ spec.frames := by simp [hframes]
  have hkind := EnvelopeSpec.probe_kind "a" shape.kind
  have hencodable := EnvelopeSpec.probe_encodable (show ("a" : String) ≠ "" by decide) shape.kind
  have hsafe : (EnvelopeSpec.probe "a" shape.kind).safeNumbers := by
    cases shape.kind <;>
      simp [EnvelopeSpec.probe, ControlFrame.safeNumbers, ControlFrame.payload, ControlFrame.error,
        Value.string, Json.safeNumbers, Json.everywhere, Json.numberSafe]
  obtain ⟨decoded, hdecoded, -⟩ := EnvelopeSpec.decodeShape_wireMap h hshape hkind.symm hencodable
  refine ⟨EnvelopeSpec.wireMap h hshape (EnvelopeSpec.probe "a" shape.kind),
    TypeScript.wireObject_safeNumbers hsafe, decoded, ?_⟩
  have hconstants : EnvelopeSpec.decodeConstants
      (EnvelopeSpec.wireMap h hshape (EnvelopeSpec.probe "a" shape.kind)) spec.constants = .ok () :=
    EnvelopeSpec.decodeConstants_eq_ok fun c hc =>
      List.mem_append_left _ (List.mem_map.mpr ⟨c, hc, rfl⟩)
  have hsubject := EnvelopeSpec.wireMap_discriminator h hshape (EnvelopeSpec.probe "a" shape.kind)
    (EnvelopeSpec.ControlFrame.Encodable.subject_ne hencodable)
  unfold EnvelopeSpec.decodeUnvalidated
  rw [hconstants, hframes, ← hdecoded]
  exact EnvelopeSpec.decodeFrames_eq_decodeShape (List.forall_mem_nil _) hsubject

/-- For every declaration without structural issues, the four codecs agree exactly when no constant
field has the empty string as its value. -/
theorem codecsAgree_iff (json : TypeScript.LosslessJson) (spec : EnvelopeSpec)
    (h : spec.structureIssues = []) :
    CodecsAgree json spec ↔ ∀ c ∈ spec.constants, c.value ≠ "" := by
  have hwf := EnvelopeSpec.wellFormed_of_structureIssues h
  refine ⟨fun hagree => ?_, codecsAgree_of_constants json hwf⟩
  obtain ⟨shape, hshape, -⟩ := hwf.exists_frame .request
  obtain ⟨first, rest, hframes⟩ := List.exists_cons_of_ne_nil (List.ne_nil_of_mem hshape)
  obtain ⟨object, hsafe, decoded, hdecoded⟩ := decodeUnvalidated_probe hwf hframes
  have hgo := (hagree.go_decode object hsafe).eq_ok hdecoded
  have hconstants : Go.Tables.decodeConstants object (Go.renderCodec spec).constants = .ok () := by
    unfold Go.Tables.decode at hgo
    cases hc : Go.Tables.decodeConstants object (Go.renderCodec spec).constants with
    | ok u => rfl
    | error e =>
      rw [hc] at hgo
      cases hgo
  intro c hc
  exact Go.ne_empty_of_decodeConstants hconstants _ (List.mem_map.mpr ⟨c, hc, rfl⟩)

theorem synthetic_codecsAgree :
    EnvelopeSpec.synthetic.structureIssues = [] ∧
      CodecsAgree TypeScript.LosslessJson.binary64 EnvelopeSpec.synthetic :=
  ⟨by decide, (codecsAgree_iff TypeScript.LosslessJson.binary64 EnvelopeSpec.synthetic
    (by decide)).mpr (by decide)⟩

/-- A declaration with an empty constant. -/
def EnvelopeSpec.unversioned : EnvelopeSpec :=
  { EnvelopeSpec.synthetic with constants := [{ name := "protocol", value := "" }] }

/-- The validator accepts `unversioned`, and the request that its own encoders write is refused by the
Go decoder only. -/
theorem unversioned_not_codecsAgree :
    EnvelopeSpec.unversioned.structureIssues = [] ∧
      ¬ CodecsAgree TypeScript.LosslessJson.binary64 EnvelopeSpec.unversioned := by
  refine ⟨by decide, fun hagree => ?_⟩
  have hgo := hagree.go_decode ⟨[("protocol", .string ""), ("command", .string "ping"),
    ("request_id", .string "r-1"), ("arguments", .null)], rfl⟩ rfl
  have haccepts := hgo.eq_ok (a := .request "r-1" "ping" (some Value.null)) rfl
  have hrefuses : (Go.renderCodec EnvelopeSpec.unversioned).decode
      ⟨[("protocol", .string ""), ("command", .string "ping"), ("request_id", .string "r-1"),
        ("arguments", .null)], rfl⟩ = .error (.mustEqual "protocol" "") := rfl
  rw [hrefuses] at haccepts
  cases haccepts

end Rtvbp.Envelope
