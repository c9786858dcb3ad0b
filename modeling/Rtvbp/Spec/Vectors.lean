import Rtvbp.Spec.Rules

/-!
# Conformance vectors of payloads

`payload_vector` of `spec/crates/rtvbp-spec-gen/src/emit/vectors.rs`. The valid cases are the examples of an operation;
the invalid ones are its first example with one or two fields replaced, for each rule of a property of the schema.
-/

namespace Rtvbp.Spec

/-- JSON texts, with the text that is one brace. -/
structure VectorText extends JsonText where
  brace : Text
  parse_brace : parse brace = none

variable (T : VectorText)

/-- A case that a validator takes. -/
structure ValidCase where
  name : String
  json : T.Text

/-- A case that a validator refuses. -/
structure InvalidCase where
  name : String
  json : T.Text
  error : String

/-- The cases for one of the payloads of an operation. -/
structure PayloadCases where
  schema : String
  valid : List (ValidCase T)
  invalid : List (InvalidCase T)

/-- What `payload_vector` makes. -/
structure PayloadVector where
  method : String
  request : PayloadCases T
  response : PayloadCases T

/-- `VectorEmitError::MissingSchema`. -/
inductive VectorEmitError where
  | missingSchema (method schema : String)

/-- `valid_case`. -/
def validCase (name : String) (value : Value) : ValidCase T where
  name := name
  json := T.serialize value.val

/-- `push_invalid`: the cases that it adds. -/
def pushInvalid (canonical : Json) (field : String) (value : Json) (rule : String) : List (InvalidCase T) :=
  match canonical with
  | .object fields =>
    [{ name := s!"{field}_{rule}"
       json := T.serialize (.object (Json.insertField fields field value))
       error := "validation" }]
  | _ => []

/-- `checked_sub` of one from an `i64`. -/
def belowMinimum (minimum : Int) : Option Int := if -2 ^ 63 ≤ minimum - 1 then some (minimum - 1) else none

/-- The cases for the rules of one property. -/
def fieldCases (canonical : Json) (field : String) (rule : Json) : List (InvalidCase T) :=
  (if (rule.get "minLength").isSome then pushInvalid T canonical field (.string "") "min_length" else []) ++
    (match ((rule.get "minimum").bind Json.asI64).bind belowMinimum with
      | some below => pushInvalid T canonical field (.number (.int below)) "minimum"
      | none => []) ++
    if (rule.get "x-rtvbp-nonzero").any Json.isTrue then pushInvalid T canonical field (.number (.int 0)) "nonzero"
    else []

/-- The case for one entry of `x-rtvbp-field-order`. -/
def orderCases (canonical order : Json) : List (InvalidCase T) :=
  match (order.get "lower").bind Json.asStr, (order.get "upper").bind Json.asStr, canonical with
  | some lower, some upper, .object fields =>
    [{ name := s!"field_order_{lower}_{upper}"
       json := T.serialize (.object
         (Json.insertField (Json.insertField fields lower (.number (.int 2))) upper (.number (.int 1))))
       error := "validation" }]
  | _, _, _ => []

/-- `invalid_cases`. -/
def invalidCases (schema canonical : Json) : List (InvalidCase T) :=
  { name := "malformed_json", json := T.brace, error := "decode" } ::
    match (schema.get "properties").bind Json.asObject with
    | none => []
    | some properties =>
      (properties.flatMap fun property => fieldCases T canonical property.1 property.2) ++
        (((schema.get "x-rtvbp-field-order").bind Json.asArray).getD []).flatMap (orderCases T canonical)

/-- The cases for a payload whose examples are given by name, of which the first one is the canonical one. -/
def payloadCases (name : String) (schema : Json) (examples : List (String × Value)) : PayloadCases T where
  schema := name
  valid := examples.map fun named => validCase T named.1 named.2
  invalid := examples.head?.elim [] fun named => invalidCases T schema named.2.val

/-- The requests of the examples by name. -/
def ResolvedOperation.requests (operation : ResolvedOperation Value) : List (String × Value) :=
  operation.examples.map fun exampleCase => (exampleCase.name, exampleCase.request)

/-- The responses of the examples by name. -/
def ResolvedOperation.responses (operation : ResolvedOperation Value) : List (String × Value) :=
  operation.examples.map fun exampleCase => (exampleCase.name, exampleCase.response)

/-- `payload_vector`. -/
def payloadVector (catalog : ResolvedCatalog Value) (operation : ResolvedOperation Value) :
    Except VectorEmitError (PayloadVector T) :=
  match catalog.schemas.lookup operation.request with
  | none => .error (.missingSchema operation.method operation.request)
  | some requestSchema =>
    match catalog.schemas.lookup operation.response with
    | none => .error (.missingSchema operation.method operation.response)
    | some responseSchema =>
      .ok {
        method := operation.method
        request := payloadCases T operation.request requestSchema operation.requests
        response := payloadCases T operation.response responseSchema operation.responses }

variable {T}

/-! ## Soundness -/

/-- The valid cases break no rule of the schema, and the cases of the error `validation` break one. -/
structure PayloadCases.Sound (schemas : Schemas) (schema : Json) (cases : PayloadCases T) : Prop where
  valid : ∀ case ∈ cases.valid, ∃ v, T.parse case.json = some v ∧ ¬ Breaks schemas schema v.val
  invalid : ∀ case ∈ cases.invalid, case.error = "validation" →
    ∃ v, T.parse case.json = some v ∧ Breaks schemas schema v.val

/-- The cases are sound for the schemas they are about. -/
def PayloadVector.Sound (schemas : Schemas) (vector : PayloadVector T) : Prop :=
  (∀ schema, schemas.lookup vector.request.schema = some schema → vector.request.Sound schemas schema) ∧
    ∀ schema, schemas.lookup vector.response.schema = some schema → vector.response.Sound schemas schema

/-- The empty string breaks a rule of the schema at each property of the canonical example that has the rule
`minLength` 0. -/
def EmptyBreaks (schemas : Schemas) (schema canonical : Json) : Prop :=
  ∀ properties field rule fields, schema.get "properties" = some (.object properties) →
    (field, rule) ∈ properties → (rule.get "minLength").bind Json.asU64 = some 0 → canonical = .object fields →
    Breaks schemas schema (.object (Json.insertField fields field (.string "")))

/-- The examples break no rule of the schema, and the rules `minLength` of its properties can be broken. -/
structure ExamplesMeet (schemas : Schemas) (schema : Json) (examples : List (String × Value)) : Prop where
  meets : ∀ named ∈ examples, ¬ Breaks schemas schema named.2.val
  breakable : ∀ named, examples.head? = some named → EmptyBreaks schemas schema named.2.val

end Rtvbp.Spec
