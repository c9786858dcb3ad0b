import Rtvbp.Envelope.Codec

/-!
# The Go codec template

The codec that `emit/go/envelope.rs` generates (`CODEC_TEMPLATE`), over the tables that `render_codec`
fills in from a declaration. Text is modelled by the JSON value it spells: a `json.RawMessage` is `nil`,
a JSON text, or bytes that are not one, and `json.Unmarshal` of a JSON `null` into a string or an
integer leaves the zero value.
-/

namespace Rtvbp.Envelope.Go

/-- An element of the `constants` table. -/
structure ConstantSpec where
  name : String
  value : String

/-- An element of the `frames` table; absent names are empty. -/
structure FrameSpec where
  kind : FrameKind
  discriminator : String
  id : String
  payload : String
  omitPayload : Bool
  error : String
  omitError : Bool

/-- The `wireError` table. -/
structure ErrorSpec where
  code : String
  message : String
  data : String
  omitData : Bool

/-- The tables of a generated codec. -/
structure Tables where
  envelopeName : String
  constants : List ConstantSpec
  frames : List FrameSpec
  wireError : ErrorSpec

/-- One row of the `frames` table. -/
def renderFrame (frame : Envelope.FrameSpec) : FrameSpec where
  kind := frame.kind
  discriminator := frame.discriminator.name
  id := frame.id.elim "" FieldSpec.name
  payload := frame.payload.name
  omitPayload := frame.payload.omitWhenNone
  error := frame.error.elim "" FieldSpec.name
  omitError := frame.error.elim true FieldSpec.omitWhenNone

/-- The tables that `render_codec` writes. -/
def renderCodec (spec : EnvelopeSpec) : Tables where
  envelopeName := spec.id
  constants := spec.constants.map fun c => { name := c.name, value := c.value }
  frames := spec.frames.map renderFrame
  wireError :=
    { code := spec.error.code.name
      message := spec.error.message.name
      data := spec.error.data.name
      omitData := spec.error.data.omitWhenNone }

/-- A `json.RawMessage`. -/
inductive RawMessage where
  | nil
  | invalid
  | json (v : Json)

/-- `rtvbp.WireError`. -/
structure WireError where
  Code : Int64
  Message : String
  Data : RawMessage

/-- `rtvbp.ControlFrame`, without the receive time, which no codec reads. -/
structure ControlFrame where
  Kind : FrameKind
  ID : String
  CorrelID : String
  Method : String
  Payload : RawMessage
  Err : Option WireError

/-- A codec error; the text of `mustEqual` quotes the expected value. -/
inductive CodecError where
  | text (message : String)
  | mustEqual (name value : String)

/-- `json.Unmarshal` into a string. -/
def unmarshalString (raw : Value) : Option String :=
  match raw.val with
  | .null => some ""
  | .string s => some s
  | _ => none

/-- `json.Unmarshal` into an `int` of 64 bits. -/
def unmarshalInt (raw : Value) : Option Int64 :=
  match raw.val with
  | .null => some 0
  | .number (.int n) => if -2 ^ 63 ≤ n ∧ n < 2 ^ 63 then some (Int64.ofInt n) else none
  | _ => none

/-- `requiredString`. -/
def requiredString (object : JsonMap) (name : String) : Except CodecError String :=
  match object.get name with
  | none => .error (.text s!"{name} is required")
  | some raw =>
    match unmarshalString raw with
    | none => .error (.text s!"{name} must be a non-empty string")
    | some value =>
      if value = "" then .error (.text s!"{name} must be a non-empty string") else .ok value

/-- `discriminatorString`. -/
def discriminatorString (object : JsonMap) (name : String) : Option String :=
  match object.get name with
  | none => none
  | some raw =>
    match unmarshalString raw with
    | none => none
    | some value => if value = "" then none else some value

/-- `optionalRaw`. -/
def optionalRaw (object : JsonMap) (name : String) : RawMessage :=
  match object.get name with
  | none => .nil
  | some raw => .json raw.val

/-- `appendValue`. -/
def appendValue (fields : WireFields) (name : String) (value : Json) : WireFields :=
  fields ++ [(name, value)]

namespace Tables

variable (tables : Tables)

/-- `appendRaw`. -/
def appendRaw (fields : WireFields) (name : String) (value : RawMessage) (omitWhenNone : Bool) :
    Except CodecError WireFields :=
  match value with
  | .nil => if omitWhenNone then .ok fields else .ok (fields ++ [(name, .null)])
  | .invalid => .error (.text s!"{tables.envelopeName}: {name} contains invalid JSON")
  | .json v => .ok (fields ++ [(name, v)])

/-- `frameForKind`. -/
def frameForKind (kind : FrameKind) : Option FrameSpec :=
  tables.frames.find? fun frame => frame.kind = kind

/-- `encodeError`. -/
def encodeError (value : WireError) : Except CodecError RawMessage :=
  if value.Code = 0 then
    .error (.text s!"{tables.envelopeName}: error code must be non-zero")
  else if value.Message = "" then
    .error (.text s!"{tables.envelopeName}: error message is required")
  else do
    let fields := appendValue [] tables.wireError.code (.number (.int value.Code.toInt))
    let fields := appendValue fields tables.wireError.message (.string value.Message)
    let fields ← tables.appendRaw fields tables.wireError.data value.Data tables.wireError.omitData
    return .json (.object fields)

/-- The identity part of `Encode`. -/
def appendIdentity (fields : WireFields) (shape : FrameSpec) (frame : ControlFrame) :
    Except CodecError WireFields :=
  match frame.Kind with
  | .request | .event =>
    if frame.ID = "" then .error (.text s!"{tables.envelopeName}: frame id is required")
    else if frame.Method = "" then
      .error (.text s!"{tables.envelopeName}: frame method is required")
    else
      .ok (appendValue (appendValue fields shape.id (.string frame.ID)) shape.discriminator
        (.string frame.Method))
  | .response =>
    if frame.CorrelID = "" then
      .error (.text s!"{tables.envelopeName}: response correlation id is required")
    else .ok (appendValue fields shape.discriminator (.string frame.CorrelID))

/-- The error part of `Encode`. -/
def appendError (fields : WireFields) (shape : FrameSpec) (frame : ControlFrame) :
    Except CodecError WireFields :=
  if shape.error = "" then .ok fields
  else
    match frame.Err with
    | none => tables.appendRaw fields shape.error .nil shape.omitError
    | some err => do
      let encoded ← tables.encodeError err
      tables.appendRaw fields shape.error encoded shape.omitError

/-- `Encode`. -/
def encode (frame : ControlFrame) : Except CodecError Json :=
  match tables.frameForKind frame.Kind with
  | none => .error (.text s!"{tables.envelopeName}: unknown frame kind")
  | some shape => do
    let fields := tables.constants.foldl (fun fields c => appendValue fields c.name (.string c.value)) []
    let fields ← tables.appendIdentity fields shape frame
    let fields ← tables.appendRaw fields shape.payload frame.Payload shape.omitPayload
    let fields ← tables.appendError fields shape frame
    return .object fields

/-- `decodeError`. -/
def decodeError (data : Value) : Except CodecError WireError :=
  match data.asObject with
  | none => .error (.text s!"{tables.envelopeName}: error must be an object")
  | some object =>
    match (object.get tables.wireError.code).bind unmarshalInt with
    | none => .error (.text s!"{tables.envelopeName}: error code must be a non-zero integer")
    | some code =>
      if code = 0 then
        .error (.text s!"{tables.envelopeName}: error code must be a non-zero integer")
      else
        match requiredString object tables.wireError.message with
        | .error _ => .error (.text s!"{tables.envelopeName}: error message is required")
        | .ok message =>
          .ok { Code := code, Message := message, Data := optionalRaw object tables.wireError.data }

/-- The error part of `Decode`. -/
def decodeFrameError (object : JsonMap) (shape : FrameSpec) : Except CodecError (Option WireError) :=
  if shape.error = "" then .ok none
  else
    match object.get shape.error with
    | none => .ok none
    | some raw => if raw.isNull then .ok none else some <$> tables.decodeError raw

/-- `Decode`, once a shape is selected. -/
def decodeShape (object : JsonMap) (shape : FrameSpec) (discriminator : String) :
    Except CodecError ControlFrame := do
  let (id, method, correlID) ← (if shape.kind = .response then .ok ("", "", discriminator)
    else do
      let id ← requiredString object shape.id
      return (id, discriminator, "") : Except CodecError (String × String × String))
  let err ← tables.decodeFrameError object shape
  return { Kind := shape.kind, ID := id, CorrelID := correlID, Method := method,
           Payload := optionalRaw object shape.payload, Err := err }

/-- The loop over the shapes in `Decode`. -/
def decodeFrames (object : JsonMap) : List FrameSpec → Except CodecError ControlFrame
  | [] => .error (.text s!"{tables.envelopeName}: envelope has no recognized frame discriminator")
  | shape :: shapes =>
    match discriminatorString object shape.discriminator with
    | none => decodeFrames object shapes
    | some discriminator => tables.decodeShape object shape discriminator

/-- The loop over the constants in `Decode`. -/
def decodeConstants (object : JsonMap) : List ConstantSpec → Except CodecError Unit
  | [] => .ok ()
  | constant :: constants =>
    match requiredString object constant.name with
    | .error _ => .error (.mustEqual constant.name constant.value)
    | .ok value =>
      if value = constant.value then decodeConstants object constants
      else .error (.mustEqual constant.name constant.value)

/-- `Decode` on the object that the text spells. -/
def decode (object : JsonMap) : Except CodecError ControlFrame := do
  decodeConstants object tables.constants
  tables.decodeFrames object tables.frames

end Tables

/-- The Go value of an optional JSON value. -/
def RawMessage.ofValue : Option Value → RawMessage
  | none => .nil
  | some v => .json v.val

/-- The Go value of an error. -/
def WireError.ofError (error : Envelope.WireError) : WireError where
  Code := error.code
  Message := error.message
  Data := .ofValue error.data

/-- The Go value of a frame. -/
def ControlFrame.ofFrame : Envelope.ControlFrame → ControlFrame
  | .request id method params =>
    { Kind := .request, ID := id, CorrelID := "", Method := method, Payload := .ofValue params,
      Err := none }
  | .response correlationId result error =>
    { Kind := .response, ID := "", CorrelID := correlationId, Method := "",
      Payload := .ofValue result, Err := error.map WireError.ofError }
  | .event id event data =>
    { Kind := .event, ID := id, CorrelID := "", Method := event, Payload := .ofValue data,
      Err := none }

end Rtvbp.Envelope.Go
