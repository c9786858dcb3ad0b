import Rtvbp.Spec.Scenarios
import Rtvbp.Json.Access

/-!
# The catalog validator

`Catalog::validate` of `spec/crates/rtvbp-spec-model/src/catalog.rs`: the issues of the operations and the events with
their metadata, schemas and examples, of the fixtures and of the scenarios. Schemas are JSON values here, and the
keywords of a schema are looked for at every object of it, whatever its place.
-/

namespace Rtvbp.Spec

variable {ν : Type}

/-! ## Schemas -/

/-- `schema_accepts_type`. -/
def schemaAcceptsType (schema : List (String × Json)) (expected : String) : Bool :=
  match schema.lookup "type" with
  | some (.string actual) => actual = expected
  | some (.array actual) => actual.any fun item => item.asStr = some expected
  | _ => false

/-- The names of the properties that an object schema requires. -/
def requiredNames (schema : List (String × Json)) : List String :=
  (((schema.lookup "required").bind Json.asArray).getD []).filterMap Json.asStr

/-- The messages about the field that one bound of an order names. -/
def orderedFieldMessages (properties : List (String × Json)) (required : List String) (bound field : String) :
    List String :=
  match (properties.lookup field).bind Json.asObject with
  | none => [s!"x-rtvbp-field-order references unknown {bound} field {field.quote}"]
  | some fieldSchema =>
    messageIf (!schemaAcceptsType fieldSchema "integer")
        s!"x-rtvbp-field-order {bound} field {field.quote} must be an integer" ++
      messageIf (!required.contains field) s!"x-rtvbp-field-order {bound} field {field.quote} must be required"

/-- The messages about one entry of `x-rtvbp-field-order`. -/
def orderEntryMessages (properties : List (String × Json)) (required : List String) (entry : Json) : List String :=
  match entry.asObject with
  | none => ["x-rtvbp-field-order entries require exactly lower and upper"]
  | some fields =>
    if fields.length ≠ 2 || (fields.lookup "lower").isNone || (fields.lookup "upper").isNone then
      ["x-rtvbp-field-order entries require exactly lower and upper"]
    else
      match (fields.lookup "lower").bind Json.asStr, (fields.lookup "upper").bind Json.asStr with
      | some lower, some upper =>
        orderedFieldMessages properties required "lower" lower ++
          orderedFieldMessages properties required "upper" upper ++
          messageIf (lower = upper) "x-rtvbp-field-order lower and upper must be different fields"
      | _, _ => ["x-rtvbp-field-order lower and upper must be field names"]

/-- `validate_field_order`. -/
def validateFieldOrder (schema : List (String × Json)) (order : Json) : List String :=
  if !schemaAcceptsType schema "object" then ["x-rtvbp-field-order requires an object schema"]
  else
    match order.asArray with
    | some (entry :: entries) =>
      match (schema.lookup "properties").bind Json.asObject with
      | none => ["x-rtvbp-field-order requires object properties"]
      | some properties => (entry :: entries).flatMap (orderEntryMessages properties (requiredNames schema))
    | _ => ["x-rtvbp-field-order must be a non-empty array"]

/-- The messages about the keywords of one object of a schema. -/
def schemaNodeMessages (schema : List (String × Json)) : List String :=
  (match schema.lookup "minLength" with
    | some minLength =>
      messageIf minLength.asU64.isNone "minLength must be a non-negative integer" ++
        messageIf (!schemaAcceptsType schema "string") "minLength requires a string field"
    | none => []) ++
  (match schema.lookup "minimum" with
    | some minimum =>
      messageIf (!minimum.isNumber) "minimum must be a number" ++
        messageIf (!schemaAcceptsType schema "integer" && !schemaAcceptsType schema "number")
          "minimum requires a numeric field"
    | none => []) ++
  (match schema.lookup "x-rtvbp-nonzero" with
    | some nonzero =>
      messageIf (!nonzero.isTrue) "x-rtvbp-nonzero must be true" ++
        messageIf (!schemaAcceptsType schema "integer") "x-rtvbp-nonzero requires an integer field"
    | none => []) ++
  match schema.lookup "x-rtvbp-field-order" with
  | some order => validateFieldOrder schema order
  | none => []

mutual

/-- `validate_schema_node`: the messages with their locations. -/
def validateSchemaNode (location : String) : Json → List (String × String)
  | .object fields =>
    (schemaNodeMessages fields).map (fun message => (location, message)) ++ validateSchemaFields location fields
  | _ => []

/-- The loop over the fields of an object of a schema. -/
def validateSchemaFields (location : String) : List (String × Json) → List (String × String)
  | [] => []
  | (key, value) :: fields =>
    (match value with
      | .array items => validateSchemaItems s!"{location}.{key}" 0 items
      | value => validateSchemaNode s!"{location}.{key}" value) ++
      validateSchemaFields location fields

/-- The loop over the items of an array in a schema. -/
def validateSchemaItems (location : String) (index : Nat) : List Json → List (String × String)
  | [] => []
  | item :: items =>
    validateSchemaNode s!"{location}[{index}]" item ++ validateSchemaItems location (index + 1) items

end

/-- `validate_schema_rules`. -/
def validateSchemaRules (payload : TypeRef Json ν) : List (CatalogValidationError ν) :=
  (validateSchemaNode "$" payload.schema).map fun issue => .invalidSchemaRule payload.name issue.1 issue.2

/-! ## Metadata, rejections and examples -/

/-- The loop over the names of the examples. -/
def exampleNameIssues (kind : CatalogItemKind) (name : String) (seen : List String) :
    List String → List (CatalogValidationError ν)
  | [] => []
  | exampleName :: names =>
    if isBlank exampleName then .blankExampleName kind name :: exampleNameIssues kind name seen names
    else if seen.contains exampleName then
      .duplicateExampleName kind name exampleName :: exampleNameIssues kind name seen names
    else exampleNameIssues kind name (exampleName :: seen) names

/-- `validate_item_metadata`. -/
def validateItemMetadata (kind : CatalogItemKind) (name : String) (docs : Option String)
    (exampleNames : List String) : List (CatalogValidationError ν) :=
  (if docs.all isBlank then [.missingDocumentation kind name] else []) ++
    exampleNameIssues kind name [] exampleNames ++
    if exampleNames.isEmpty then [.missingExamples kind name] else []

/-- The loop over the rejections of an operation, after those of the roles `seen`. -/
def rejectionIssues (method : String) (handledBy : Option Role) (seen : List Role) :
    List OperationRejection → List (CatalogValidationError ν)
  | [] => []
  | rejection :: rejections =>
    if rejection.role = .both then .ambiguousRejectionRole method :: rejectionIssues method handledBy seen rejections
    else
      (if seen.contains rejection.role then [.duplicateRejection method rejection.role] else []) ++
        (match handledBy with
          | some declared =>
            if declared = .both ∨ declared = rejection.role then
              [.rejectionForHandledRole method rejection.role declared]
            else []
          | none => []) ++
        (if rejection.code = 0 then [.rejectionZeroCode method rejection.role] else []) ++
        (if isBlank rejection.message then [.rejectionEmptyMessage method rejection.role] else []) ++
        rejectionIssues method handledBy (rejection.role :: seen) rejections

/-- `validate_operation_rejections`. -/
def validateOperationRejections (operation : Operation Json ν) : List (CatalogValidationError ν) :=
  rejectionIssues operation.method operation.handledBy [] operation.rejections

section Values

variable [BEq ν]

/-- `validate_example_value`. -/
def validateExampleValue (kind : CatalogItemKind) (name exampleName : String) (side : ExampleSide)
    (payload : TypeRef Json ν) (value : ν) : List (CatalogValidationError ν) :=
  match payload.roundTrip value with
  | .ok actual => if actual != value then [.exampleChanged kind name exampleName side value actual] else []
  | .error source => [.exampleRoundTrip kind name exampleName side payload.name source]

/-! ## Operations and events -/

/-- `RESERVED_TRANSPORT_METHOD_PREFIX`. -/
def reservedTransportMethodPrefix : String := "transport."

/-- The issues of an operation after those of the methods `seen`. -/
def operationIssues (seen : List String) (operation : Operation Json ν) : List (CatalogValidationError ν) :=
  (if operation.handledBy.isNone then [.missingRole .operation operation.method] else []) ++
    (if reservedTransportMethodPrefix.toList.isPrefixOf operation.method.toList then
      [.reservedOperationNamespace operation.method] else []) ++
    (if seen.contains operation.method then [.duplicateOperation operation.method] else []) ++
    validateItemMetadata .operation operation.method operation.docs (operation.examples.map OperationExample.name) ++
    validateSchemaRules operation.request ++ validateSchemaRules operation.response ++
    validateOperationRejections operation ++
    operation.examples.flatMap fun exampleCase =>
      validateExampleValue .operation operation.method exampleCase.name .request operation.request
          exampleCase.request ++
        validateExampleValue .operation operation.method exampleCase.name .response operation.response
          exampleCase.response

/-- The loop over the operations. -/
def validateOperations (seen : List String) : List (Operation Json ν) → List (CatalogValidationError ν)
  | [] => []
  | operation :: operations =>
    operationIssues seen operation ++ validateOperations (operation.method :: seen) operations

/-- The issues of an event after those of the names `seen`. -/
def eventIssues (seen : List String) (event : Event Json ν) : List (CatalogValidationError ν) :=
  (if event.emittedBy.isNone then [.missingRole .event event.name] else []) ++
    (if seen.contains event.name then [.duplicateEvent event.name] else []) ++
    validateItemMetadata .event event.name event.docs (event.examples.map EventExample.name) ++
    validateSchemaRules event.data ++
    event.examples.flatMap fun exampleCase =>
      validateExampleValue .event event.name exampleCase.name .eventData event.data exampleCase.data

/-- The loop over the events. -/
def validateEvents (seen : List String) : List (Event Json ν) → List (CatalogValidationError ν)
  | [] => []
  | event :: events => eventIssues seen event ++ validateEvents (event.name :: seen) events

/-! ## Fixtures -/

/-- The path is not empty and all its `components` are normal: no root, no parent and no leading `.`. -/
def isConfined (path : String) : Bool :=
  match path.toList.splitOn '/' with
  | [] => false
  | first :: rest =>
    first ≠ [] && first ≠ ['.'] && (first :: rest).all fun part => part ≠ ['.', '.']

/-- The payload type of a fixture. -/
def Catalog.fixturePayload? (catalog : Catalog Json ν) : FixtureTarget → Option (TypeRef Json ν)
  | .operationRequest method => (catalog.operation? method).map Operation.request
  | .operationResponse method => (catalog.operation? method).map Operation.response
  | .event name => (catalog.event? name).map Event.data

/-- The loop over the fixtures, after those of the paths `seen`. -/
def validateFixtures (catalog : Catalog Json ν) (seen : List String) :
    List CatalogFixture → List (CatalogValidationError ν)
  | [] => []
  | fixture :: fixtures =>
    (if isConfined fixture.path then [] else [.invalidFixturePath fixture.path]) ++
      (if seen.contains fixture.path then [.duplicateFixturePath fixture.path] else []) ++
      (match catalog.fixturePayload? fixture.target with
        | none => [.unknownFixtureTarget fixture.path fixture.target]
        | some payload =>
          match payload.roundTripBytes fixture.bytes with
          | .ok actual =>
            if actual ≠ fixture.bytes then [.fixtureChanged fixture.path fixture.bytes actual] else []
          | .error source => [.fixtureRoundTrip fixture.path payload.name source]) ++
      validateFixtures catalog (fixture.path :: seen) fixtures

/-- The issues that `Catalog::validate` collects. -/
def Catalog.issues (catalog : Catalog Json ν) : List (CatalogValidationError ν) :=
  validateOperations [] catalog.operations ++ validateEvents [] catalog.events ++
    validateFixtures catalog [] catalog.fixtures ++ validateScenarios catalog

/-- `Catalog::validate`. -/
def Catalog.validate (catalog : Catalog Json ν) : Except (List (CatalogValidationError ν)) Unit :=
  if catalog.issues.isEmpty then .ok () else .error catalog.issues

end Values

end Rtvbp.Spec

/-!
## Well-formed catalogs

What a catalog is meant to be, without the order in which the validator looks at it.
-/

namespace Rtvbp.Spec

variable {ν : Type}

/-- An object of a schema: the schema itself, or an object below it in a field or in an array of a field. -/
inductive HasObject (fields : List (String × Json)) : Json → Prop where
  | self : HasObject fields (.object fields)
  | field {outer : List (String × Json)} {key : String} {inner : List (String × Json)}
      (mem : (key, .object inner) ∈ outer) (has : HasObject fields (.object inner)) : HasObject fields (.object outer)
  | item {outer : List (String × Json)} {key : String} {items : List Json} {inner : List (String × Json)}
      (mem : (key, .array items) ∈ outer) (item : .object inner ∈ items) (has : HasObject fields (.object inner)) :
      HasObject fields (.object outer)

/-- A field that an order names: a required integer. -/
structure OrderedField (properties : List (String × Json)) (required : List String) (field : String) : Prop where
  integer : ∃ schema, properties.lookup field = some (.object schema) ∧ schemaAcceptsType schema "integer" = true
  required : field ∈ required

/-- An entry of `x-rtvbp-field-order`: the lower and the upper of two fields. -/
def OrderEntry (properties : List (String × Json)) (required : List String) (entry : Json) : Prop :=
  ∃ fields lower upper, entry = .object fields ∧ fields.length = 2 ∧ ("lower", .string lower) ∈ fields ∧
    ("upper", .string upper) ∈ fields ∧ OrderedField properties required lower ∧
    OrderedField properties required upper ∧ lower ≠ upper

/-- The keywords of one object of a schema. -/
structure KeywordsValid (schema : List (String × Json)) : Prop where
  minLength : ∀ v, schema.lookup "minLength" = some v →
    (∃ n : Nat, n < 2 ^ 64 ∧ v = .number (.int n)) ∧ schemaAcceptsType schema "string" = true
  minimum : ∀ v, schema.lookup "minimum" = some v →
    (∃ n, v = .number n) ∧ (schemaAcceptsType schema "integer" = true ∨ schemaAcceptsType schema "number" = true)
  nonzero : ∀ v, schema.lookup "x-rtvbp-nonzero" = some v →
    v = .bool true ∧ schemaAcceptsType schema "integer" = true
  fieldOrder : ∀ v, schema.lookup "x-rtvbp-field-order" = some v →
    schemaAcceptsType schema "object" = true ∧ ∃ entries properties, v = .array entries ∧ entries ≠ [] ∧
      schema.lookup "properties" = some (.object properties) ∧
      ∀ entry ∈ entries, OrderEntry properties (requiredNames schema) entry

/-- The keywords are valid at every object of the schema. -/
def SchemaValid (schema : Json) : Prop := ∀ fields, HasObject fields schema → KeywordsValid fields

/-- An operation or event is documented and has examples of different names. -/
structure Documented (docs : Option String) (exampleNames : List String) : Prop where
  docs : ∃ text, docs = some text ∧ isBlank text = false
  nonempty : exampleNames ≠ []
  names : ∀ name ∈ exampleNames, isBlank name = false
  unique : exampleNames.Nodup

/-- The rejections are proper errors of different roles, none of which handles the operation. -/
structure RejectionsValid (handledBy : Option Role) (rejections : List OperationRejection) : Prop where
  concrete : ∀ rejection ∈ rejections, rejection.role ≠ .both
  unhandled : ∀ rejection ∈ rejections, handledBy ≠ some .both ∧ handledBy ≠ some rejection.role
  errors : ∀ rejection ∈ rejections, rejection.code ≠ 0 ∧ isBlank rejection.message = false
  unique : (rejections.map OperationRejection.role).Nodup

section Values

variable [BEq ν]

/-- A well-formed operation. -/
structure Operation.WellFormed (operation : Operation Json ν) : Prop where
  handled : operation.handledBy ≠ none
  unreserved : ¬ reservedTransportMethodPrefix.toList <+: operation.method.toList
  documented : Documented operation.docs (operation.examples.map OperationExample.name)
  request : SchemaValid operation.request.schema
  response : SchemaValid operation.response.schema
  rejections : RejectionsValid operation.handledBy operation.rejections
  examples : ∀ exampleCase ∈ operation.examples,
    Survives operation.request exampleCase.request ∧ Survives operation.response exampleCase.response

/-- A well-formed event. -/
structure Event.WellFormed (event : Event Json ν) : Prop where
  emitted : event.emittedBy ≠ none
  documented : Documented event.docs (event.examples.map EventExample.name)
  data : SchemaValid event.data.schema
  examples : ∀ exampleCase ∈ event.examples, Survives event.data exampleCase.data

/-- A fixture stays below its directory, and its bytes survive the round trip of its payload type. -/
structure CatalogFixture.WellFormed (catalog : Catalog Json ν) (fixture : CatalogFixture) : Prop where
  confined : isConfined fixture.path = true
  target : ∃ payload, catalog.fixturePayload? fixture.target = some payload ∧
    payload.roundTripBytes fixture.bytes = .ok fixture.bytes

/-- A well-formed catalog. -/
structure Catalog.WellFormed (catalog : Catalog Json ν) : Prop where
  methods : (catalog.operations.map Operation.method).Nodup
  operations : ∀ operation ∈ catalog.operations, operation.WellFormed
  names : (catalog.events.map Event.name).Nodup
  events : ∀ event ∈ catalog.events, event.WellFormed
  paths : (catalog.fixtures.map CatalogFixture.path).Nodup
  fixtures : ∀ fixture ∈ catalog.fixtures, fixture.WellFormed catalog
  scenarioNames : (catalog.scenarios.map Scenario.name).Nodup
  scenarios : ∀ scenario ∈ catalog.scenarios, WellFormedScenario catalog scenario

end Values

end Rtvbp.Spec
