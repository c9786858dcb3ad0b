import Rtvbp.Json.Value
import Rtvbp.Lib.Keys
import Mathlib.Data.List.ReduceOption

/-!
# Envelope declarations

The semantic control frames, the declarative description of an envelope (`EnvelopeSpec`) and the
structural checks of `structure_issues`, from `rtvbp-spec-model/src/envelope.rs`. The frozen fixtures
of a declaration are not modelled: `structure_issues` and the codec do not read them.
-/

namespace Rtvbp.Envelope

open Rtvbp.Lib

/-- An envelope-independent response error. -/
structure WireError where
  code : Int64
  message : String
  data : Option Value

/-- One semantic control frame, independent of any envelope encoding. -/
inductive ControlFrame where
  | request (id method : String) (params : Option Value)
  | response (correlationId : String) (result : Option Value) (error : Option WireError)
  | event (id event : String) (data : Option Value)

/-- The semantic frame kind represented by an envelope shape. -/
inductive FrameKind where
  | request
  | response
  | event
  deriving DecidableEq

/-- The kind of a frame. -/
def ControlFrame.kind : ControlFrame → FrameKind
  | .request .. => .request
  | .response .. => .response
  | .event .. => .event

/-- A constant field emitted on every envelope frame. -/
structure ConstantField where
  name : String
  value : String

/-- A named envelope field and its empty-value behavior. -/
structure FieldSpec where
  name : String
  omitWhenNone : Bool

namespace FieldSpec

/-- A field that is always emitted. -/
def required (name : String) : FieldSpec := { name := name, omitWhenNone := false }

/-- A field that is left out when it has no value. -/
def optional (name : String) : FieldSpec := { name := name, omitWhenNone := true }

end FieldSpec

/-- The field mapping for one semantic frame kind. -/
structure FrameSpec where
  kind : FrameKind
  discriminator : FieldSpec
  id : Option FieldSpec
  payload : FieldSpec
  error : Option FieldSpec

/-- The field mapping inside a wire error. -/
structure ErrorSpec where
  code : FieldSpec
  message : FieldSpec
  data : FieldSpec

/-- A conventional error code. -/
structure ErrorCodeSpec where
  name : String
  code : Int64
  description : String

/-- A declarative envelope description. The frame order is also structural discrimination
precedence. -/
structure EnvelopeSpec where
  id : String
  constants : List ConstantField
  frames : List FrameSpec
  error : ErrorSpec
  errorCodes : List ErrorCodeSpec

/-- One invalid part of an envelope declaration. -/
inductive EnvelopeValidationError where
  | emptyId
  | emptyFieldName (context : String)
  | duplicateConstant (name : String)
  | missingFrame (kind : FrameKind)
  | duplicateFrame (kind : FrameKind)
  | duplicateDiscriminator (name : String)
  | invalidFrameShape (kind : FrameKind) (message : String)
  | duplicateWireField (kind : FrameKind) (name : String)
  | invalidErrorShape (message : String)
  | duplicateErrorField (name : String)
  | invalidErrorCode (name : String) (code : Int64)
  | duplicateErrorCodeName (name : String)
  | duplicateErrorCodeValue (code : Int64)

/-- `validate_field_name`. -/
def validateFieldName (context name : String) : List EnvelopeValidationError :=
  if name = "" then [.emptyFieldName context] else []

namespace FrameSpec

/-- The fields a frame can put on the wire after the constants. -/
def wireFields (frame : FrameSpec) : List FieldSpec :=
  [some frame.discriminator, frame.id, some frame.payload, frame.error].reduceOption

/-- The checks of the fields that a frame kind must and must not map. -/
def shapeIssues (frame : FrameSpec) : List EnvelopeValidationError :=
  match frame.kind with
  | .request | .event =>
    (match frame.id with
      | none => [.invalidFrameShape frame.kind "request and event frames must map an id"]
      | some id =>
        if id.omitWhenNone then
          [.invalidFrameShape frame.kind "request and event ids must be required"]
        else []) ++
    (if frame.error.isSome then
      [.invalidFrameShape frame.kind "only response frames may map an error"] else [])
  | .response =>
    (if frame.id.isSome then
      [.invalidFrameShape frame.kind
        "response correlation is carried by its discriminator, not an id"] else []) ++
    (if frame.error.isNone then
      [.invalidFrameShape frame.kind "response frames must map an error"] else [])

end FrameSpec

/-- The loop over the frames, with the kinds and the discriminators seen so far. -/
def frameIssues (constants : List String) :
    List FrameKind → List String → List FrameSpec → List EnvelopeValidationError
  | _, _, [] => []
  | kinds, discriminators, frame :: frames =>
    (if frame.kind ∈ kinds then [.duplicateFrame frame.kind] else []) ++
    validateFieldName "frame discriminator" frame.discriminator.name ++
    (if frame.discriminator.omitWhenNone then
      [.invalidFrameShape frame.kind "the discriminator must be required"] else []) ++
    (if frame.discriminator.name ∈ discriminators then
      [.duplicateDiscriminator frame.discriminator.name] else []) ++
    validateFieldName "frame payload" frame.payload.name ++
    (frame.id.elim [] fun id => validateFieldName "frame id" id.name) ++
    (frame.error.elim [] fun error => validateFieldName "frame error" error.name) ++
    frame.shapeIssues ++
    scan FieldSpec.name (fun _ => []) (fun field => .duplicateWireField frame.kind field.name)
      constants frame.wireFields ++
    frameIssues constants (frame.kind :: kinds) (frame.discriminator.name :: discriminators) frames

/-- The loop over the conventional error codes, with the names and the values seen so far. -/
def errorCodeIssues : List String → List Int64 → List ErrorCodeSpec → List EnvelopeValidationError
  | _, _, [] => []
  | names, values, error :: errors =>
    (if error.name = "" ∨ error.description = "" ∨ error.code = 0 then
      [.invalidErrorCode error.name error.code] else []) ++
    (if error.name ∈ names then [.duplicateErrorCodeName error.name] else []) ++
    (if error.code ∈ values then [.duplicateErrorCodeValue error.code] else []) ++
    errorCodeIssues (error.name :: names) (error.code :: values) errors

namespace EnvelopeSpec

/-- The names of the constant fields. -/
def constantNames (spec : EnvelopeSpec) : List String := spec.constants.map ConstantField.name

/-- `structure_issues`: everything that is wrong with the structure of a declaration. -/
def structureIssues (spec : EnvelopeSpec) : List EnvelopeValidationError :=
  (if spec.id = "" then [.emptyId] else []) ++
  scan ConstantField.name (fun constant => validateFieldName "constant" constant.name)
    (fun constant => .duplicateConstant constant.name) [] spec.constants ++
  frameIssues spec.constantNames [] [] spec.frames ++
  ([FrameKind.event, .request, .response].flatMap fun kind =>
    if kind ∈ spec.frames.map FrameSpec.kind then [] else [.missingFrame kind]) ++
  validateFieldName "error code" spec.error.code.name ++
  validateFieldName "error message" spec.error.message.name ++
  validateFieldName "error data" spec.error.data.name ++
  (if spec.error.code.omitWhenNone || spec.error.message.omitWhenNone then
    [.invalidErrorShape "error code and message must be required"] else []) ++
  scan FieldSpec.name (fun _ => []) (fun field => .duplicateErrorField field.name) []
    [spec.error.code, spec.error.message, spec.error.data] ++
  errorCodeIssues [] [] spec.errorCodes

/-- The declaration of `rtvbp-spec-babelforce-v1/src/envelope.rs`. -/
def classicV1 : EnvelopeSpec where
  id := "classic.v1"
  constants := [{ name := "version", value := "1" }]
  frames := [
    { kind := .event, discriminator := .required "event", id := some (.required "id"),
      payload := .optional "data", error := none },
    { kind := .request, discriminator := .required "method", id := some (.required "id"),
      payload := .optional "params", error := none },
    { kind := .response, discriminator := .required "response", id := none,
      payload := .optional "result", error := some (.optional "error") }]
  error := { code := .required "code", message := .required "message", data := .optional "any" }
  errorCodes := [
    { name := "unknown", code := -1, description := "Unclassified failure." },
    { name := "bad_request", code := 400, description := "The request is invalid." },
    { name := "internal_server_error", code := 500, description := "The handler failed internally." },
    { name := "not_implemented", code := 501,
      description := "The requested operation is not implemented." }]

/-- The declaration of the contract test `a_second_envelope_is_entirely_data_driven`. -/
def synthetic : EnvelopeSpec where
  id := "synthetic.v2"
  constants := [{ name := "protocol", value := "two" }]
  frames := [
    { kind := .request, discriminator := .required "command", id := some (.required "request_id"),
      payload := .required "arguments", error := none },
    { kind := .event, discriminator := .required "notification",
      id := some (.required "notification_id"), payload := .optional "body", error := none },
    { kind := .response, discriminator := .required "reply_to", id := none,
      payload := .optional "value", error := some (.optional "failure") }]
  error := { code := .required "status", message := .required "detail", data := .optional "metadata" }
  errorCodes := []

end EnvelopeSpec

end Rtvbp.Envelope
