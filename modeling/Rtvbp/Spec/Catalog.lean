import Rtvbp.Envelope.Spec

/-!
# Payload catalogs

The model of `spec/crates/rtvbp-spec-model/src/catalog.rs` and `scenario.rs`: the operations, the events and the
conformance scenarios of a catalog. A payload type is known by its name, its schema and its two round trips, which
are functions of the Rust type. Schemas and JSON values are parameters here: what reads them says what they are.
-/

namespace Rtvbp.Spec

/-- `Role`. -/
inductive Role where
  | voice
  | application
  | both
  deriving DecidableEq

/-- `Display` of a role. -/
def Role.display : Role → String
  | .voice => "voice"
  | .application => "application"
  | .both => "both"

/-- `CatalogId`. -/
structure CatalogId where
  name : String
  major : UInt32

/-- `TypeRef`, where `σ` are the schemas and `ν` the JSON values. -/
structure TypeRef (σ ν : Type) where
  name : String
  schema : σ
  roundTrip : ν → Except String ν
  roundTripBytes : List UInt8 → Except String (List UInt8)

/-- `OperationRejection`. -/
structure OperationRejection where
  role : Role
  code : Int64
  message : String

/-- `OperationExample`. -/
structure OperationExample (ν : Type) where
  name : String
  request : ν
  response : ν

/-- `Operation`. -/
structure Operation (σ ν : Type) where
  method : String
  handledBy : Option Role
  request : TypeRef σ ν
  response : TypeRef σ ν
  terminal : Bool
  rejections : List OperationRejection
  docs : Option String
  examples : List (OperationExample ν)

/-- `EventExample`. -/
structure EventExample (ν : Type) where
  name : String
  data : ν

/-- `Event`. -/
structure Event (σ ν : Type) where
  name : String
  emittedBy : Option Role
  data : TypeRef σ ν
  docs : Option String
  examples : List (EventExample ν)

/-- `FixtureTarget`. -/
inductive FixtureTarget where
  | operationRequest (method : String)
  | operationResponse (method : String)
  | event (name : String)

/-- `CatalogFixture`. -/
structure CatalogFixture where
  path : String
  target : FixtureTarget
  bytes : List UInt8

/-! ## Scenarios -/

/-- `ScenarioStep::Request`; the peer is the field `from`. -/
structure ScenarioRequest (ν : Type) where
  peer : String
  id : String
  method : String
  params : ν

/-- `ScenarioStep::Response`. -/
structure ScenarioResponse (ν : Type) where
  peer : String
  response : String
  result : Option ν
  error : Option Envelope.WireError

/-- `ScenarioStep::Event`. -/
structure ScenarioEvent (ν : Type) where
  peer : String
  id : String
  event : String
  data : ν

/-- `ScenarioStep`. -/
inductive ScenarioStep (ν : Type) where
  | request (step : ScenarioRequest ν)
  | response (step : ScenarioResponse ν)
  | event (step : ScenarioEvent ν)

/-- The field `from` of a step. -/
def ScenarioStep.peer {ν : Type} : ScenarioStep ν → String
  | .request step => step.peer
  | .response step => step.peer
  | .event step => step.peer

/-- `ScenarioCase`. -/
structure ScenarioCase (ν : Type) where
  name : String
  description : String
  steps : List (ScenarioStep ν)

/-- `Scenario`; the roles are a map. -/
structure Scenario (ν : Type) where
  name : String
  description : String
  roles : List (String × Role)
  cases : List (ScenarioCase ν)
  roles_nodup : (roles.map Prod.fst).Nodup

/-- `Catalog`. -/
structure Catalog (σ ν : Type) where
  id : CatalogId
  operations : List (Operation σ ν)
  events : List (Event σ ν)
  fixtures : List CatalogFixture
  scenarios : List (Scenario ν)

variable {σ ν : Type}

/-- The operation of a method. -/
def Catalog.operation? (catalog : Catalog σ ν) (method : String) : Option (Operation σ ν) :=
  catalog.operations.find? fun operation => operation.method = method

/-- The event of a name. -/
def Catalog.event? (catalog : Catalog σ ν) (name : String) : Option (Event σ ν) :=
  catalog.events.find? fun event => event.name = name

/-- The role of a peer. -/
def Scenario.role? (scenario : Scenario ν) (peer : String) : Option Role := scenario.roles.lookup peer

/-! ## Issues -/

/-- `CatalogItemKind`. -/
inductive CatalogItemKind where
  | operation
  | event

/-- `ExampleSide`. -/
inductive ExampleSide where
  | request
  | response
  | eventData

/-- `CatalogValidationError`. -/
inductive CatalogValidationError (ν : Type) where
  | reservedOperationNamespace (method : String)
  | duplicateOperation (method : String)
  | duplicateEvent (name : String)
  | missingRole (kind : CatalogItemKind) (name : String)
  | invalidSchemaRule (payloadType location message : String)
  | ambiguousRejectionRole (method : String)
  | rejectionForHandledRole (method : String) (role handledBy : Role)
  | duplicateRejection (method : String) (role : Role)
  | rejectionZeroCode (method : String) (role : Role)
  | rejectionEmptyMessage (method : String) (role : Role)
  | duplicateFixturePath (path : String)
  | invalidFixturePath (path : String)
  | unknownFixtureTarget (path : String) (target : FixtureTarget)
  | fixtureRoundTrip (path payloadType source : String)
  | fixtureChanged (path : String) (expected actual : List UInt8)
  | missingDocumentation (kind : CatalogItemKind) (name : String)
  | missingExamples (kind : CatalogItemKind) (name : String)
  | blankExampleName (kind : CatalogItemKind) (name : String)
  | duplicateExampleName (kind : CatalogItemKind) (name exampleName : String)
  | exampleRoundTrip (kind : CatalogItemKind) (name exampleName : String) (side : ExampleSide)
      (payloadType source : String)
  | exampleChanged (kind : CatalogItemKind) (name exampleName : String) (side : ExampleSide) (expected actual : ν)
  | invalidScenario (scenario case : String) (step : Nat) (message : String)
  | duplicateScenario (name : String)

/-- `char::is_whitespace`: the property `White_Space`. -/
def isWhitespace (c : Char) : Bool :=
  let n := c.toNat
  (9 ≤ n && n ≤ 13) || n == 32 || n == 0x85 || n == 0xA0 || n == 0x1680 || (0x2000 ≤ n && n ≤ 0x200A) ||
    n == 0x2028 || n == 0x2029 || n == 0x202F || n == 0x205F || n == 0x3000

/-- `text.trim().is_empty()`. -/
def isBlank (text : String) : Bool := text.toList.all isWhitespace

end Rtvbp.Spec
