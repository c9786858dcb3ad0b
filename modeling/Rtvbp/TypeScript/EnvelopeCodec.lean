import Rtvbp.Envelope.Codec
import Rtvbp.TypeScript.Wire

/-!
# The TypeScript codec

`createEnvelopeCodec` of `sdk/typescript/src/envelope.ts` over the descriptor that
`emit/typescript.rs` writes for a declaration. Property reads of a parsed object are lookups of its own
fields: what a plain object inherits is never a string or a number.
-/

namespace Rtvbp.TypeScript

open Rtvbp.Envelope (EnvelopeSpec FrameSpec ErrorSpec FieldSpec FrameKind nonEmptyString optionalValue)

/-- `WireErrorValue`. -/
structure WireErrorValue where
  code : JsNumber
  message : String
  data : Option WireEncodable

/-- `ControlFrame`. -/
inductive ControlFrame where
  | request (id method : String) (params : Option WireEncodable)
  | response (correlationId : String) (result : Option WireEncodable) (error : Option WireErrorValue)
  | event (id event : String) (data : Option WireEncodable)

/-- The kind of a frame. -/
def ControlFrame.kind : ControlFrame → FrameKind
  | .request .. => .request
  | .response .. => .response
  | .event .. => .event

/-- `EnvelopeDescriptor`. -/
structure EnvelopeDescriptor where
  id : String
  constants : List (String × String)
  frames : List FrameSpec
  error : ErrorSpec

/-- The descriptor that `render_envelope` writes. -/
def renderEnvelope (spec : EnvelopeSpec) : EnvelopeDescriptor where
  id := spec.id
  constants := spec.constants.map fun c => (c.name, c.value)
  frames := spec.frames
  error := spec.error

/-- The entries of a wire object, in order. -/
abbrev Entries := List (String × WireEncodable)

/-- An envelope error; the text of `mustEqual` quotes the expected value. -/
inductive EnvelopeError where
  | message (text : String)
  | mustEqual (id name value : String)
  | wireJson (text : String)

/-- `pushOptional`. -/
def pushOptional (field : FieldSpec) (value : Option WireEncodable) : Entries :=
  match value with
  | some v => [(field.name, v)]
  | none => if field.omitWhenNone then [] else [(field.name, .null)]

/-- A safe integer other than zero. -/
def nonZeroSafeInteger (n : JsNumber) : Bool :=
  match n with
  | .integer n => Json.isSafeInteger n && n != 0
  | _ => false

namespace EnvelopeDescriptor

variable (descriptor : EnvelopeDescriptor)

/-- `frameSpec`. -/
def frameSpec (kind : FrameKind) : Except EnvelopeError FrameSpec :=
  match descriptor.frames.find? fun candidate => candidate.kind = kind with
  | some shape => .ok shape
  | none => .error (.message s!"{descriptor.id}: frame mapping is missing")

/-- The identity and payload entries of a request or an event. -/
def identityEntries (shape : FrameSpec) (id method : String) (payload : Option WireEncodable) :
    Except EnvelopeError Entries :=
  if id = "" then .error (.message s!"{descriptor.id}: frame id is required")
  else if method = "" then .error (.message s!"{descriptor.id}: frame method is required")
  else
    match shape.id with
    | none => .error (.message s!"{descriptor.id}: frame id mapping is missing")
    | some field =>
      .ok ([(field.name, .string id), (shape.discriminator.name, .string method)] ++
        pushOptional shape.payload payload)

/-- The error entries of a response. -/
def errorEntries (shape : FrameSpec) (error : Option WireErrorValue) : Except EnvelopeError Entries :=
  match shape.error with
  | none => .error (.message s!"{descriptor.id}: response error mapping is missing")
  | some field =>
    match error with
    | none => .ok (pushOptional field none)
    | some error =>
      if !nonZeroSafeInteger error.code then
        .error (.message s!"{descriptor.id}: error code must be a non-zero safe integer")
      else if error.message = "" then
        .error (.message s!"{descriptor.id}: error message is required")
      else
        .ok [(field.name, .ordered
          ([(descriptor.error.code.name, .number error.code),
            (descriptor.error.message.name, .string error.message)] ++
          pushOptional descriptor.error.data error.data))]

/-- The entries of a frame after the constants. -/
def frameEntries (shape : FrameSpec) : ControlFrame → Except EnvelopeError Entries
  | .request id method params => descriptor.identityEntries shape id method params
  | .event id name data => descriptor.identityEntries shape id name data
  | .response correlationId result error =>
    if correlationId = "" then
      .error (.message s!"{descriptor.id}: response correlation id is required")
    else do
      let errorEntries ← descriptor.errorEntries shape error
      return [(shape.discriminator.name, .string correlationId)] ++
        pushOptional shape.payload result ++ errorEntries

/-- `encode`. -/
def encode (frame : ControlFrame) : Except EnvelopeError Json := do
  let shape ← descriptor.frameSpec frame.kind
  let constants : Entries := descriptor.constants.map fun c => (c.1, .string c.2)
  let entries ← descriptor.frameEntries shape frame
  match encodeWireJson (.ordered (constants ++ entries)) with
  | .ok json => return json
  | .error text => .error (.wireJson text)

/-- The number that a property holds. -/
def numberProperty (object : JsonMap) (name : String) : Option JsNumber :=
  match (object.get name).map Subtype.val with
  | some (.number n) => some (.ofJson n)
  | _ => none

/-- The error of a response object. -/
def decodeError (object : JsonMap) (shape : FrameSpec) :
    Except EnvelopeError (Option WireErrorValue) :=
  match shape.error.bind fun field => object.get field.name with
  | none => .ok none
  | some raw =>
    if raw.isNull then .ok none
    else
      match raw.asObject with
      | none => .error (.message s!"{descriptor.id}: error must be an object")
      | some errorObject =>
        match (numberProperty errorObject descriptor.error.code.name).filter nonZeroSafeInteger with
        | none => .error (.message s!"{descriptor.id}: error code must be a non-zero safe integer")
        | some code =>
          match nonEmptyString errorObject descriptor.error.message.name with
          | none => .error (.message s!"{descriptor.id}: error message is required")
          | some message =>
            .ok (some { code := code, message := message,
                        data := (optionalValue errorObject descriptor.error.data).map
                          fun v => parsed v.val })

/-- The id of a request or event object. -/
def decodeId (object : JsonMap) (shape : FrameSpec) (kind : String) : Except EnvelopeError String :=
  match shape.id with
  | none => .error (.message s!"{descriptor.id}: frame id mapping is missing")
  | some field =>
    match nonEmptyString object field.name with
    | some id => .ok id
    | none => .error (.message s!"{descriptor.id}: {kind} id is required")

/-- `decode`, once a shape is selected. -/
def decodeShape (object : JsonMap) (shape : FrameSpec) (discriminator : String) :
    Except EnvelopeError ControlFrame :=
  let payload := (optionalValue object shape.payload).map fun v => parsed v.val
  match shape.kind with
  | .response => do
    let error ← descriptor.decodeError object shape
    return .response discriminator payload error
  | .request => do
    let id ← descriptor.decodeId object shape "request"
    return .request id discriminator payload
  | .event => do
    let id ← descriptor.decodeId object shape "event"
    return .event id discriminator payload

/-- The loop over the shapes in `decode`. -/
def decodeFrames (object : JsonMap) : List FrameSpec → Except EnvelopeError ControlFrame
  | [] => .error (.message s!"{descriptor.id}: envelope has no recognized frame discriminator")
  | shape :: shapes =>
    match nonEmptyString object shape.discriminator.name with
    | none => decodeFrames object shapes
    | some discriminator => descriptor.decodeShape object shape discriminator

/-- The loop over the constants in `decode`. -/
def decodeConstants (object : JsonMap) : List (String × String) → Except EnvelopeError Unit
  | [] => .ok ()
  | (name, expected) :: constants =>
    if (object.get name).bind Value.asStr = some expected then decodeConstants object constants
    else .error (.mustEqual descriptor.id name expected)

/-- `decode`. -/
def decode (json : LosslessJson) (text : Value) : Except EnvelopeError ControlFrame :=
  match json.decodeWireJson text with
  | .error text => .error (.wireJson text)
  | .ok value =>
    match value.asObject with
    | none => .error (.message s!"{descriptor.id}: envelope must be an object")
    | some object => do
      descriptor.decodeConstants object descriptor.constants
      descriptor.decodeFrames object descriptor.frames

end EnvelopeDescriptor

/-- The TypeScript value of an error, where `value` gives the JavaScript values of JSON values. -/
def WireErrorValue.ofError (value : Json → WireEncodable) (error : Envelope.WireError) :
    WireErrorValue where
  code := .integer error.code.toInt
  message := error.message
  data := error.data.map fun v => value v.val

/-- The TypeScript value of a frame, where `value` gives the JavaScript values of JSON values. -/
def ControlFrame.ofFrame (value : Json → WireEncodable) : Envelope.ControlFrame → ControlFrame
  | .request id method params => .request id method (params.map fun v => value v.val)
  | .response correlationId result error =>
    .response correlationId (result.map fun v => value v.val) (error.map (.ofError value))
  | .event id name data => .event id name (data.map fun v => value v.val)

end Rtvbp.TypeScript
