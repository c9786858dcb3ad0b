import Rtvbp.Envelope.Codec

/-!
# The Rust codec template

The codec that `emit/rust/envelope.rs` generates (`CODEC_IMPL`) over its constant tables, which
`render_codec` copies from the declaration, and the flat control frame of the Rust SDK
(`sdk/rust/src/frame.rs`).
-/

namespace Rtvbp.Envelope.Rust

/-- The constant tables of a generated codec. -/
structure Tables where
  envelopeName : String
  constants : List (String × String)
  frames : List FrameSpec
  error : ErrorSpec

/-- The tables that `render_codec` writes. -/
def renderCodec (spec : EnvelopeSpec) : Tables where
  envelopeName := spec.id
  constants := spec.constants.map fun c => (c.name, c.value)
  frames := spec.frames
  error := spec.error

/-- `crate::ControlFrame`, without the receive time, which no codec reads. -/
structure ControlFrame where
  kind : FrameKind
  id : String
  correlationId : String
  method : String
  payload : Option Value
  error : Option WireError

namespace ControlFrame

/-- `ControlFrame::request`. -/
def request (id method : String) (payload : Option Value) : ControlFrame :=
  { kind := .request, id := id, correlationId := "", method := method, payload := payload,
    error := none }

/-- `ControlFrame::response`. -/
def response (correlationId : String) (payload : Option Value) (error : Option WireError) :
    ControlFrame :=
  { kind := .response, id := "", correlationId := correlationId, method := "", payload := payload,
    error := error }

/-- `ControlFrame::event`. -/
def event (id event : String) (payload : Option Value) : ControlFrame :=
  { kind := .event, id := id, correlationId := "", method := event, payload := payload,
    error := none }

/-- The SDK value of a frame. -/
def ofFrame : Envelope.ControlFrame → ControlFrame
  | .request id method params => request id method params
  | .response correlationId result error => response correlationId result error
  | .event id name data => event id name data

end ControlFrame

/-- A codec error; the text of `mustEqual` quotes the expected value. -/
inductive CodecError where
  | message (text : String)
  | mustEqual (name value : String)

/-- `validate_frame`. -/
def validateFrame (frame : ControlFrame) : Except CodecError Unit :=
  match frame.kind with
  | .request | .event =>
    if frame.id = "" ∨ frame.method = "" then
      .error (.message "request/event id and method are required")
    else .ok ()
  | .response =>
    if frame.correlationId = "" then .error (.message "response correlation id is required")
    else .ok ()

/-- `validate_wire_error`. -/
def validateWireError (error : WireError) : Except CodecError Unit :=
  if error.code = 0 ∨ error.message = "" then
    .error (.message "error code must be non-zero and message is required")
  else .ok ()

/-- `required_id`. -/
def requiredId (object : JsonMap) (shape : FrameSpec) (kind : String) : Except CodecError String :=
  match shape.id with
  | none => .error (.message s!"{kind} id mapping is missing")
  | some field =>
    match nonEmptyString object field.name with
    | some id => .ok id
    | none => .error (.message s!"{kind} id is required")

namespace Tables

variable (tables : Tables)

/-- `frame_spec`. -/
def frameSpec (kind : FrameKind) : Except CodecError FrameSpec :=
  match tables.frames.find? fun frame => frame.kind = kind with
  | some frame => .ok frame
  | none => .error (.message "frame mapping is missing")

/-- The object of an error. -/
def encodedError (error : WireError) : WireFields :=
  [(tables.error.code.name, .number (.int error.code.toInt)),
    (tables.error.message.name, .string error.message)] ++
  (match error.data with
    | some data => [(tables.error.data.name, data.val)]
    | none => if tables.error.data.omitWhenNone then [] else [(tables.error.data.name, .null)])

/-- `encode`. -/
def encode (frame : ControlFrame) : Except CodecError Json := do
  validateFrame frame
  let constants : WireFields := tables.constants.map fun c => (c.1, .string c.2)
  let shape ← tables.frameSpec frame.kind
  match frame.kind with
  | .request | .event =>
    match shape.id with
    | none => .error (.message "frame id mapping is missing")
    | some id =>
      return .object (constants ++
        [(id.name, .string frame.id), (shape.discriminator.name, .string frame.method)] ++
        serializeOptional shape.payload frame.payload)
  | .response =>
    let fields := constants ++ [(shape.discriminator.name, .string frame.correlationId)] ++
      serializeOptional shape.payload frame.payload
    match shape.error with
    | none => .error (.message "response error mapping is missing")
    | some errorField =>
      match frame.error with
      | some error => do
        validateWireError error
        return .object (fields ++ [(errorField.name, .object (tables.encodedError error))])
      | none =>
        return .object
          (if errorField.omitWhenNone then fields else fields ++ [(errorField.name, .null)])

/-- `decode_error`. -/
def decodeError (object : JsonMap) (shape : FrameSpec) : Except CodecError (Option WireError) :=
  match shape.error.bind fun field => object.get field.name with
  | none => .ok none
  | some value =>
    if value.isNull then .ok none
    else
      match value.asObject with
      | none => .error (.message "error must be an object")
      | some error =>
        match ((error.get tables.error.code.name).bind Value.asI64).filter fun code => code != 0 with
        | none => .error (.message "error code must be a non-zero integer")
        | some code =>
          match nonEmptyString error tables.error.message.name with
          | none => .error (.message "error message is required")
          | some message =>
            .ok (some { code := code, message := message,
                        data := optionalValue error tables.error.data })

/-- `decode`, once a shape is selected. -/
def decodeShape (object : JsonMap) (shape : FrameSpec) (discriminator : String) :
    Except CodecError ControlFrame :=
  match shape.kind with
  | .request => do
    let id ← requiredId object shape "request"
    return .request id discriminator (optionalValue object shape.payload)
  | .event => do
    let id ← requiredId object shape "event"
    return .event id discriminator (optionalValue object shape.payload)
  | .response => do
    let error ← tables.decodeError object shape
    return .response discriminator (optionalValue object shape.payload) error

/-- The loop over the shapes in `decode`. -/
def decodeFrames (object : JsonMap) : List FrameSpec → Except CodecError ControlFrame
  | [] => .error (.message "envelope has no recognized frame discriminator")
  | shape :: shapes =>
    match nonEmptyString object shape.discriminator.name with
    | none => decodeFrames object shapes
    | some discriminator => tables.decodeShape object shape discriminator

/-- The loop over the constants in `decode`. -/
def decodeConstants (object : JsonMap) : List (String × String) → Except CodecError Unit
  | [] => .ok ()
  | (name, expected) :: constants =>
    if (object.get name).bind Value.asStr = some expected then decodeConstants object constants
    else .error (.mustEqual name expected)

/-- `decode` on the object that the text parses to. -/
def decode (object : JsonMap) : Except CodecError ControlFrame := do
  decodeConstants object tables.constants
  tables.decodeFrames object tables.frames

end Tables

end Rtvbp.Envelope.Rust
