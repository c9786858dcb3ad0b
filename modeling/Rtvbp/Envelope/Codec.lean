import Rtvbp.Envelope.Spec

/-!
# The reference codec

`EnvelopeSpec::encode` and `EnvelopeSpec::decode` of `rtvbp-spec-model/src/envelope.rs`. Encoding
produces the ordered list of wire fields of a frame (`encodeUnvalidated`), which is then written as one
JSON object; decoding works on the object that the text parses to (`decodeUnvalidated`).
-/

namespace Rtvbp.Envelope

/-- A reference codec failure. `constantMismatch` is the `InvalidFrame` error of a constant field,
whose text quotes the expected value. -/
inductive CodecError where
  | invalidSpec (issues : List EnvelopeValidationError)
  | invalidMapping (message : String)
  | missingFrameSpec (kind : FrameKind)
  | invalidControlFrame (message : String)
  | invalidFrame (message : String)
  | constantMismatch (name value : String)
  | json

/-- The wire fields of a JSON object, in order. -/
abbrev WireFields := List (String × Json)

/-- `require_non_empty`. -/
def requireNonEmpty (label value : String) : Except CodecError Unit :=
  if value = "" then .error (.invalidControlFrame s!"{label} is required") else .ok ()

/-- `validate_wire_error`. -/
def validateWireError (error : WireError) : Except CodecError Unit :=
  if error.code = 0 then .error (.invalidControlFrame "error code must be non-zero")
  else requireNonEmpty "error message" error.message

/-- `serialize_optional`. -/
def serializeOptional (field : FieldSpec) (value : Option Value) : WireFields :=
  match value with
  | some v => [(field.name, v.val)]
  | none => if field.omitWhenNone then [] else [(field.name, .null)]

/-- `optional_value`. -/
def optionalValue (object : JsonMap) (field : FieldSpec) : Option Value := object.get field.name

/-- A field that holds a non-empty string. -/
def nonEmptyString (object : JsonMap) (name : String) : Option String :=
  ((object.get name).bind Value.asStr).filter fun s => s != ""

/-- `required_frame_id`. -/
def requiredFrameId (object : JsonMap) (shape : FrameSpec) (kind : String) :
    Except CodecError String :=
  match shape.id with
  | none => .error (.invalidMapping "request and event frames must define an id field")
  | some field =>
    match nonEmptyString object field.name with
    | some id => .ok id
    | none => .error (.invalidFrame s!"{kind} id is required")

namespace EnvelopeSpec

variable (spec : EnvelopeSpec)

/-- The shape of a frame kind. -/
def frame (kind : FrameKind) : Except CodecError FrameSpec :=
  match spec.frames.find? fun frame => frame.kind = kind with
  | some frame => .ok frame
  | none => .error (.missingFrameSpec kind)

/-- The fields of `EncodedError`. -/
def encodedError (error : WireError) : WireFields :=
  [(spec.error.code.name, .number (.int error.code.toInt)),
    (spec.error.message.name, .string error.message)] ++
  serializeOptional spec.error.data error.data

/-- The constant fields that start every frame. -/
def constantFields : WireFields := spec.constants.map fun c => (c.name, .string c.value)

/-- `encode_unvalidated`, up to the JSON text: the ordered wire fields of a frame. -/
def encodeUnvalidated : ControlFrame → Except CodecError WireFields
  | .request id method params => do
    requireNonEmpty "request id" id
    requireNonEmpty "request method" method
    let shape ← spec.frame .request
    match shape.id with
    | none => .error (.invalidMapping "request frame must define an id field")
    | some idField =>
      return spec.constantFields ++
        [(idField.name, .string id), (shape.discriminator.name, .string method)] ++
        serializeOptional shape.payload params
  | .response correlationId result error => do
    requireNonEmpty "response correlation id" correlationId
    let shape ← spec.frame .response
    match shape.error with
    | none => .error (.invalidMapping "response frame must define an error field")
    | some errorField =>
      let errorFields ← (match error with
        | some error => do
          validateWireError error
          return [(errorField.name, .object (spec.encodedError error))]
        | none => return serializeOptional errorField none : Except CodecError WireFields)
      return spec.constantFields ++ [(shape.discriminator.name, .string correlationId)] ++
        serializeOptional shape.payload result ++ errorFields
  | .event id event data => do
    requireNonEmpty "event id" id
    requireNonEmpty "event name" event
    let shape ← spec.frame .event
    match shape.id with
    | none => .error (.invalidMapping "event frame must define an id field")
    | some idField =>
      return spec.constantFields ++
        [(idField.name, .string id), (shape.discriminator.name, .string event)] ++
        serializeOptional shape.payload data

/-- `validate_structure`. -/
def validateStructure : Except CodecError Unit :=
  if spec.structureIssues = [] then .ok () else .error (.invalidSpec spec.structureIssues)

/-- `encode`. -/
def encode (lib : JsonText) (frame : ControlFrame) : Except CodecError lib.Text := do
  spec.validateStructure
  let fields ← spec.encodeUnvalidated frame
  return lib.serialize (.object fields)

/-- `decode_error`. -/
def decodeError (value : Value) : Except CodecError WireError :=
  match value.asObject with
  | none => .error (.invalidFrame "error must be an object")
  | some object =>
    match (object.get spec.error.code.name).bind Value.asI64 with
    | none => .error (.invalidFrame "error code must be an integer")
    | some code =>
      match nonEmptyString object spec.error.message.name with
      | none => .error (.invalidFrame "error message is required")
      | some message =>
        if code = 0 then .error (.invalidFrame "error code must be non-zero")
        else .ok { code := code, message := message, data := optionalValue object spec.error.data }

/-- The error of a response object. -/
def decodeResponseError (object : JsonMap) (shape : FrameSpec) :
    Except CodecError (Option WireError) :=
  match shape.error.bind fun field => object.get field.name with
  | none => .ok none
  | some value => if value.isNull then .ok none else some <$> spec.decodeError value

/-- The frame of an object whose discriminator selects `shape`. -/
def decodeShape (object : JsonMap) (shape : FrameSpec) (discriminator : String) :
    Except CodecError ControlFrame :=
  match shape.kind with
  | .request => do
    let id ← requiredFrameId object shape "request"
    return .request id discriminator (optionalValue object shape.payload)
  | .event => do
    let id ← requiredFrameId object shape "event"
    return .event id discriminator (optionalValue object shape.payload)
  | .response => do
    let error ← spec.decodeResponseError object shape
    return .response discriminator (optionalValue object shape.payload) error

/-- The loop over the frame shapes: the first one whose discriminator is a non-empty string. -/
def decodeFrames (object : JsonMap) : List FrameSpec → Except CodecError ControlFrame
  | [] => .error (.invalidFrame "envelope has no recognized frame discriminator")
  | shape :: shapes =>
    match nonEmptyString object shape.discriminator.name with
    | none => decodeFrames object shapes
    | some discriminator => spec.decodeShape object shape discriminator

/-- The loop over the constant fields. -/
def decodeConstants (object : JsonMap) : List ConstantField → Except CodecError Unit
  | [] => .ok ()
  | constant :: constants =>
    if (object.get constant.name).bind Value.asStr = some constant.value then
      decodeConstants object constants
    else .error (.constantMismatch constant.name constant.value)

/-- `decode_unvalidated` on the object that the text parses to. -/
def decodeUnvalidated (object : JsonMap) : Except CodecError ControlFrame := do
  decodeConstants object spec.constants
  spec.decodeFrames object spec.frames

/-- `decode`. -/
def decode (lib : JsonText) (text : lib.Text) : Except CodecError ControlFrame := do
  spec.validateStructure
  match lib.parse text with
  | none => .error .json
  | some value =>
    match value.asObject with
    | none => .error (.invalidFrame "envelope must be an object")
    | some object => spec.decodeUnvalidated object

end EnvelopeSpec

end Rtvbp.Envelope
