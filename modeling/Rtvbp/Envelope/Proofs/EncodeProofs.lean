import Rtvbp.Envelope.Proofs.StructureProofs

/-!
# The wire object of an encoded frame

For a well-formed declaration the reference encoder accepts exactly the frames with non-empty
identities and proper errors (`Encodable`), and the object it writes consists of the constants and the
`bodyFields` of the shape of the frame's kind. Its keys are distinct, so it is a `JsonMap`.
-/

namespace Rtvbp.Envelope

open Rtvbp.Lib

namespace ControlFrame

/-- The text carried by the discriminator. -/
def subject : ControlFrame → String
  | .request _ method _ => method
  | .response correlationId _ _ => correlationId
  | .event _ name _ => name

/-- The id of a request or an event. -/
def identity : ControlFrame → String
  | .request id _ _ => id
  | .response .. => ""
  | .event id _ _ => id

/-- The payload. -/
def payload : ControlFrame → Option Value
  | .request _ _ params => params
  | .response _ result _ => result
  | .event _ _ data => data

/-- The error of a response. -/
def error : ControlFrame → Option WireError
  | .request .. => none
  | .response _ _ error => error
  | .event .. => none

end ControlFrame

/-- The error can be sent: a non-zero code and a message. -/
def WireError.Encodable (error : WireError) : Prop := error.code ≠ 0 ∧ error.message ≠ ""

/-- The frame can be sent: its identities are non-empty and its error is proper. -/
def ControlFrame.Encodable : ControlFrame → Prop
  | .request id method _ => id ≠ "" ∧ method ≠ ""
  | .response correlationId _ error =>
    correlationId ≠ "" ∧ ∀ e, error = some e → e.Encodable
  | .event id name _ => id ≠ "" ∧ name ≠ ""

theorem requireNonEmpty_eq_ok {label value : String} :
    requireNonEmpty label value = .ok () ↔ value ≠ "" := by
  unfold requireNonEmpty
  split_ifs with h <;> simp [h]

theorem validateWireError_eq_ok {error : WireError} :
    validateWireError error = .ok () ↔ error.Encodable := by
  unfold validateWireError WireError.Encodable
  split_ifs with h
  · simp [h]
  · simp [h, requireNonEmpty_eq_ok]

theorem mem_serializeOptional {field : FieldSpec} {value : Option Value} {p : String × Json} :
    p ∈ serializeOptional field value ↔
      p.1 = field.name ∧ ((∃ v, value = some v ∧ p.2 = v.val) ∨
        (value = none ∧ field.omitWhenNone = false ∧ p.2 = .null)) := by
  obtain ⟨name, v⟩ := p
  cases value with
  | some w => simp [serializeOptional]
  | none => cases h : field.omitWhenNone <;> simp [serializeOptional, h]

namespace EnvelopeSpec

variable (spec : EnvelopeSpec)

/-- The fields of the error of a response. -/
def errorFields (shape : FrameSpec) (error : Option WireError) : WireFields :=
  shape.error.elim [] fun field =>
    match error with
    | some e => [(field.name, .object (spec.encodedError e))]
    | none => serializeOptional field none

/-- The fields of a frame after the constants. -/
def bodyFields (shape : FrameSpec) (frame : ControlFrame) : WireFields :=
  (shape.id.elim [] fun field => [(field.name, .string frame.identity)]) ++
    [(shape.discriminator.name, .string frame.subject)] ++
    serializeOptional shape.payload frame.payload ++ spec.errorFields shape frame.error

/-- All wire fields of a frame. -/
def wireObject (shape : FrameSpec) (frame : ControlFrame) : WireFields :=
  spec.constantFields ++ spec.bodyFields shape frame

variable {spec}

/-- The encoder accepts exactly the encodable frames, and writes the wire object of the shape of the
frame's kind. -/
theorem encodeUnvalidated_eq_ok_iff (h : spec.WellFormed) {shape : FrameSpec} {frame : ControlFrame}
    (hshape : shape ∈ spec.frames) (hkind : shape.kind = frame.kind)
    (hframe : spec.frame frame.kind = .ok shape) {fields : WireFields} :
    spec.encodeUnvalidated frame = .ok fields ↔
      frame.Encodable ∧ fields = spec.wireObject shape frame := by
  have hvalid := h.frame_valid shape hshape
  cases frame with
  | request id method params =>
    obtain ⟨idField, hid⟩ := hvalid.id_some (by rw [hkind]; simp [ControlFrame.kind])
    have herror := hvalid.error_none (by rw [hkind]; simp [ControlFrame.kind])
    rw [ControlFrame.kind] at hframe
    simp only [encodeUnvalidated, requireNonEmpty, hframe, hid, herror, ControlFrame.Encodable,
      wireObject, bodyFields, errorFields, ControlFrame.identity, ControlFrame.subject,
      ControlFrame.payload]
    by_cases h1 : id = "" <;> by_cases h2 : method = "" <;>
      simp [h1, h2, hid, bind, Except.bind, pure, Except.pure, eq_comm]
  | response correlationId result error =>
    obtain ⟨errorField, herror⟩ := hvalid.error_some (by rw [hkind]; rfl)
    have hid := hvalid.id_none (by rw [hkind]; rfl)
    rw [ControlFrame.kind] at hframe
    simp only [encodeUnvalidated, requireNonEmpty, hframe, herror, hid, ControlFrame.Encodable,
      wireObject, bodyFields, errorFields, ControlFrame.subject, ControlFrame.payload,
      ControlFrame.error]
    by_cases h1 : correlationId = ""
    · simp [h1, bind, Except.bind]
    · cases error with
      | none => simp [h1, herror, bind, Except.bind, pure, Except.pure, eq_comm]
      | some e =>
        have he : validateWireError e = .ok () ↔ e.Encodable := validateWireError_eq_ok
        cases hv : validateWireError e with
        | error x =>
          have hne : ¬ e.Encodable := fun hen => by simp [he.mpr hen] at hv
          simp [h1, herror, hv, hne, bind, Except.bind]
        | ok u =>
          simp [h1, herror, hv, he.mp hv, bind, Except.bind, pure, Except.pure, eq_comm]
  | event id event data =>
    obtain ⟨idField, hid⟩ := hvalid.id_some (by rw [hkind]; simp [ControlFrame.kind])
    have herror := hvalid.error_none (by rw [hkind]; simp [ControlFrame.kind])
    rw [ControlFrame.kind] at hframe
    simp only [encodeUnvalidated, requireNonEmpty, hframe, hid, herror, ControlFrame.Encodable,
      wireObject, bodyFields, errorFields, ControlFrame.identity, ControlFrame.subject,
      ControlFrame.payload]
    by_cases h1 : id = "" <;> by_cases h2 : event = "" <;>
      simp [h1, h2, hid, bind, Except.bind, pure, Except.pure, eq_comm]

/-! ## The keys and values of the wire object -/

theorem mem_constantFields {p : String × Json} (h : p ∈ spec.constantFields) :
    p.1 ∈ spec.constantNames := by
  obtain ⟨c, hc, rfl⟩ := List.mem_map.mp h
  exact List.mem_map.mpr ⟨c, hc, rfl⟩

theorem mem_errorFields {shape : FrameSpec} {error : Option WireError} {p : String × Json} :
    p ∈ spec.errorFields shape error ↔ ∃ field, shape.error = some field ∧ p.1 = field.name ∧
      ((∃ e, error = some e ∧ p.2 = .object (spec.encodedError e)) ∨
        (error = none ∧ field.omitWhenNone = false ∧ p.2 = .null)) := by
  obtain ⟨name, v⟩ := p
  cases hf : shape.error with
  | none => simp [errorFields, hf]
  | some field =>
    cases error with
    | some e => simp [errorFields, hf]
    | none => simp [errorFields, hf, mem_serializeOptional]

theorem mem_bodyFields {shape : FrameSpec} {frame : ControlFrame} {p : String × Json} :
    p ∈ spec.bodyFields shape frame ↔
      (∃ field, shape.id = some field ∧ p = (field.name, .string frame.identity)) ∨
      p = (shape.discriminator.name, .string frame.subject) ∨
      p ∈ serializeOptional shape.payload frame.payload ∨
      p ∈ spec.errorFields shape frame.error := by
  cases hf : shape.id <;> simp [bodyFields, hf]

/-- The keys of the body are names of wire fields of the shape. -/
theorem bodyFields_key_mem {shape : FrameSpec} {frame : ControlFrame} {p : String × Json}
    (h : p ∈ spec.bodyFields shape frame) : ∃ field ∈ shape.wireFields, p.1 = field.name := by
  simp only [FrameSpec.mem_wireFields]
  rcases mem_bodyFields.1 h with ⟨field, hf, rfl⟩ | rfl | hp | hp
  · exact ⟨field, Or.inr (Or.inl hf), rfl⟩
  · exact ⟨_, Or.inl rfl, rfl⟩
  · exact ⟨_, Or.inr (Or.inr (Or.inl rfl)), (mem_serializeOptional.1 hp).1⟩
  · obtain ⟨field, hf, hname, -⟩ := mem_errorFields.1 hp
    exact ⟨field, Or.inr (Or.inr (Or.inr hf)), hname⟩

theorem serializeOptional_keys_sublist (field : FieldSpec) (value : Option Value) :
    ((serializeOptional field value).map Prod.fst).Sublist [field.name] := by
  cases value with
  | some v => simp [serializeOptional]
  | none => cases h : field.omitWhenNone <;> simp [serializeOptional, h]

theorem bodyFields_keys_nodup {constants : List String} {shape : FrameSpec}
    (h : shape.Valid constants) (frame : ControlFrame) :
    ((spec.bodyFields shape frame).map Prod.fst).Nodup := by
  have hnames : ((shape.id.toList ++ [shape.discriminator] ++ [shape.payload] ++
      shape.error.toList).map FieldSpec.name).Nodup := by
    refine (List.Perm.nodup_iff ?_).mp h.names_nodup
    refine List.Perm.map _ ?_
    unfold FrameSpec.wireFields
    cases shape.id <;> cases shape.error <;> simp [List.reduceOption, List.Perm.swap]
  refine hnames.sublist ?_
  simp only [bodyFields, List.map_append]
  refine List.Sublist.append (List.Sublist.append (List.Sublist.append ?_ ?_) ?_) ?_
  · cases shape.id <;> simp
  · simp
  · exact serializeOptional_keys_sublist _ _
  · cases hf : shape.error with
    | none => simp [errorFields, hf]
    | some field =>
      cases frame.error with
      | some e => simp [errorFields, hf]
      | none => simpa [errorFields, hf] using serializeOptional_keys_sublist field none

theorem serializeOptional_wellFormed {field : FieldSpec} {value : Option Value} {p : String × Json}
    (h : p ∈ serializeOptional field value) : p.2.wellFormed = true := by
  rcases (mem_serializeOptional.1 h).2 with ⟨v, -, hv⟩ | ⟨-, -, hv⟩
  · rw [hv]; exact v.property
  · rw [hv]; exact Json.wellFormed_null

/-- The object of a wire error is well formed. -/
theorem encodedError_wellFormed (h : spec.WellFormed) (e : WireError) :
    (Json.object (spec.encodedError e)).wellFormed = true := by
  rw [Json.wellFormed_object]
  refine ⟨h.error_nodup.sublist ?_, ?_⟩
  · have hdata := serializeOptional_keys_sublist spec.error.data e.data
    simpa [encodedError] using hdata
  · intro p hp
    simp only [encodedError, List.mem_append, List.mem_cons, List.not_mem_nil, or_false] at hp
    rcases hp with (rfl | rfl) | hp
    · exact Json.wellFormed_i64 e.code
    · simp
    · exact serializeOptional_wellFormed hp

/-- The wire object of a frame is well formed. -/
theorem wireObject_wellFormed (h : spec.WellFormed) {shape : FrameSpec} (hshape : shape ∈ spec.frames)
    (frame : ControlFrame) : (Json.object (spec.wireObject shape frame)).wellFormed = true := by
  have hvalid := h.frame_valid shape hshape
  rw [Json.wellFormed_object]
  refine ⟨?_, ?_⟩
  · rw [wireObject, List.map_append]
    refine List.Nodup.append ?_ (bodyFields_keys_nodup hvalid frame) ?_
    · have hc := h.constants_nodup
      simpa [constantFields, constantNames, Function.comp_def] using hc
    · intro name hn hb
      obtain ⟨p, hp, rfl⟩ := List.mem_map.mp hn
      obtain ⟨q, hq, hqp⟩ := List.mem_map.mp hb
      obtain ⟨field, hf, hname⟩ := bodyFields_key_mem hq
      exact hvalid.names_fresh field hf (by rw [← hname, hqp]; exact mem_constantFields hp)
  · intro p hp
    rcases List.mem_append.mp hp with hp | hp
    · obtain ⟨c, -, rfl⟩ := List.mem_map.mp hp
      simp
    · rcases mem_bodyFields.1 hp with ⟨field, -, rfl⟩ | rfl | hp | hp
      · simp
      · simp
      · exact serializeOptional_wellFormed hp
      · obtain ⟨field, -, -, ⟨e, -, he⟩ | ⟨-, -, he⟩⟩ := mem_errorFields.1 hp
        · rw [he]; exact encodedError_wellFormed h e
        · rw [he]; exact Json.wellFormed_null

end EnvelopeSpec

end Rtvbp.Envelope
