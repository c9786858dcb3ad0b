import Rtvbp.Spec.Validate
import Mathlib.Data.List.Sort

/-!
# Resolved catalogs

`resolve` of `spec/crates/rtvbp-spec-gen/src/resolve.rs`, which prepares a catalog for the emitters: operations, events
and examples sorted by name, and one table of schemas by type name, in which local references are rewritten. The
parser of fixtures is a parameter.
-/

namespace Rtvbp.Spec

variable {ν : Type}

/-! ## References -/

/-- `replace` of a pair of characters by one. -/
def replacePair (first second replacement : Char) : List Char → List Char
  | [] => []
  | [c] => [c]
  | c :: d :: rest =>
    if c = first ∧ d = second then replacement :: replacePair first second replacement rest
    else c :: replacePair first second replacement (d :: rest)

/-- The name in a JSON pointer segment: `~1` is a slash and `~0` is a tilde. -/
def unescapePointer (segment : List Char) : List Char := replacePair '~' '0' '~' (replacePair '~' '1' '/' segment)

/-- A name as a JSON pointer segment. -/
def escapePointer (name : List Char) : List Char :=
  (name.flatMap fun c => if c = '~' then ['~', '0'] else [c]).flatMap fun c => if c = '/' then ['~', '1'] else [c]

/-- `strip_prefix`. -/
def stripStart (start text : List Char) : Option (List Char) :=
  if start.isPrefixOf text then some (text.drop start.length) else none

/-- `schema_reference`. -/
def schemaReference (name : List Char) : String := String.ofList ("#/schemas/".toList ++ escapePointer name)

/-- The new text of a local reference, and any other value as it is. -/
def rewriteReference (value : Json) : Json :=
  match value with
  | .string reference =>
    match stripStart "#/$defs/".toList reference.toList with
    | some name => .string (schemaReference (unescapePointer name))
    | none => value
  | _ => value

mutual

/-- `rewrite_local_refs`. -/
def rewriteLocalRefs : Json → Json
  | .object fields => .object (rewriteFields fields)
  | .array items => .array (rewriteItems items)
  | v => v

/-- `rewrite_local_refs` on the fields of an object. -/
def rewriteFields : List (String × Json) → List (String × Json)
  | [] => []
  | (key, v) :: fields =>
    (key, if key = "$ref" then rewriteReference (rewriteLocalRefs v) else rewriteLocalRefs v) :: rewriteFields fields

/-- `rewrite_local_refs` on the items of an array. -/
def rewriteItems : List Json → List Json
  | [] => []
  | v :: items => rewriteLocalRefs v :: rewriteItems items

end

/-! ## The resolved model -/

/-- The schemas by type name. -/
abbrev Schemas := List (String × Json)

/-- `ResolvedOperation`. -/
structure ResolvedOperation (ν : Type) where
  method : String
  handledBy : Role
  terminal : Bool
  rejections : List OperationRejection
  docs : String
  request : String
  response : String
  examples : List (OperationExample ν)

/-- `ResolvedEvent`. -/
structure ResolvedEvent (ν : Type) where
  name : String
  emittedBy : Role
  docs : String
  data : String
  examples : List (EventExample ν)

/-- `ResolvedFixture`. -/
structure ResolvedFixture (ν : Type) where
  path : String
  payload : String
  bytes : List UInt8
  value : ν

/-- `ResolvedCatalog`. -/
structure ResolvedCatalog (ν : Type) where
  id : CatalogId
  operations : List (ResolvedOperation ν)
  events : List (ResolvedEvent ν)
  schemas : Schemas
  fixtures : List (ResolvedFixture ν)
  scenarios : List (Scenario ν)

/-- `ResolveError`. -/
inductive ResolveError where
  | missingOperationRole (name : String)
  | missingEventRole (name : String)
  | missingDocumentation (kind name : String)
  | conflictingSchema (name : String)
  | missingFixtureTarget (path : String)
  | invalidFixture (path source : String)

/-- `sort_by` on a name. -/
def sortByName {α : Type} (name : α → String) (items : List α) : List α :=
  items.insertionSort fun left right => name left ≤ name right

/-! ## Schemas of the payload types -/

/-- `register_schema`. -/
def registerSchema (schemas : Schemas) (name : String) (schema : Json) : Except ResolveError Schemas :=
  match schemas.lookup name with
  | some existing => if existing != schema then .error (.conflictingSchema name) else .ok schemas
  | none => .ok (schemas ++ [(name, schema)])

/-- The loop over the definitions of a schema. -/
def registerDefinitions (schemas : Schemas) : List (String × Json) → Except ResolveError Schemas
  | [] => .ok schemas
  | (name, schema) :: definitions => do
    let schemas ← registerSchema schemas name (rewriteLocalRefs schema)
    registerDefinitions schemas definitions

/-- The definitions of a schema. -/
def definitionsOf (root : Json) : List (String × Json) := ((root.get "$defs").bind Json.asObject).getD []

/-- The schema without its definitions, its dialect and its title. -/
def bareRoot : Json → Json
  | .object fields =>
    .object (fields.filter fun field => field.1 ≠ "$defs" && field.1 ≠ "$schema" && field.1 ≠ "title")
  | root => root

/-- `register_type`. -/
def registerType (schemas : Schemas) (payload : TypeRef Json ν) : Except ResolveError Schemas := do
  let schemas ← registerSchema schemas payload.name (rewriteLocalRefs (bareRoot payload.schema))
  registerDefinitions schemas (definitionsOf payload.schema)

/-! ## Operations, events and fixtures -/

/-- One pass of the loop over the operations. -/
def resolveOperation (schemas : Schemas) (operation : Operation Json ν) :
    Except ResolveError (ResolvedOperation ν × Schemas) := do
  let schemas ← registerType schemas operation.request
  let schemas ← registerType schemas operation.response
  let handledBy ← operation.handledBy.elim (.error (.missingOperationRole operation.method)) .ok
  let docs ← operation.docs.elim (.error (.missingDocumentation "operation" operation.method)) .ok
  return ({
    method := operation.method
    handledBy := handledBy
    terminal := operation.terminal
    rejections := operation.rejections
    docs := docs
    request := operation.request.name
    response := operation.response.name
    examples := sortByName OperationExample.name operation.examples }, schemas)

/-- The loop over the operations. -/
def resolveOperations (schemas : Schemas) :
    List (Operation Json ν) → Except ResolveError (List (ResolvedOperation ν) × Schemas)
  | [] => .ok ([], schemas)
  | operation :: operations => do
    let (resolved, schemas) ← resolveOperation schemas operation
    let (rest, schemas) ← resolveOperations schemas operations
    return (resolved :: rest, schemas)

/-- One pass of the loop over the events. -/
def resolveEvent (schemas : Schemas) (event : Event Json ν) : Except ResolveError (ResolvedEvent ν × Schemas) := do
  let schemas ← registerType schemas event.data
  let emittedBy ← event.emittedBy.elim (.error (.missingEventRole event.name)) .ok
  let docs ← event.docs.elim (.error (.missingDocumentation "event" event.name)) .ok
  return ({
    name := event.name
    emittedBy := emittedBy
    docs := docs
    data := event.data.name
    examples := sortByName EventExample.name event.examples }, schemas)

/-- The loop over the events. -/
def resolveEvents (schemas : Schemas) :
    List (Event Json ν) → Except ResolveError (List (ResolvedEvent ν) × Schemas)
  | [] => .ok ([], schemas)
  | event :: events => do
    let (resolved, schemas) ← resolveEvent schemas event
    let (rest, schemas) ← resolveEvents schemas events
    return (resolved :: rest, schemas)

/-- The payload type that a fixture is for. -/
def resolvedPayload? (operations : List (ResolvedOperation ν)) (events : List (ResolvedEvent ν)) :
    FixtureTarget → Option String
  | .operationRequest method => (operations.find? (·.method = method)).map ResolvedOperation.request
  | .operationResponse method => (operations.find? (·.method = method)).map ResolvedOperation.response
  | .event name => (events.find? (·.name = name)).map ResolvedEvent.data

/-- One pass of the loop over the fixtures. -/
def resolveFixture (parse : List UInt8 → Except String ν) (operations : List (ResolvedOperation ν))
    (events : List (ResolvedEvent ν)) (fixture : CatalogFixture) : Except ResolveError (ResolvedFixture ν) :=
  match resolvedPayload? operations events fixture.target with
  | none => .error (.missingFixtureTarget fixture.path)
  | some payload =>
    match parse fixture.bytes with
    | .ok value => .ok { path := fixture.path, payload := payload, bytes := fixture.bytes, value := value }
    | .error source => .error (.invalidFixture fixture.path source)

/-- `resolve`. -/
def resolve (parse : List UInt8 → Except String ν) (catalog : Catalog Json ν) :
    Except ResolveError (ResolvedCatalog ν) := do
  let (operations, schemas) ← resolveOperations [] catalog.operations
  let operations := sortByName ResolvedOperation.method operations
  let (events, schemas) ← resolveEvents schemas catalog.events
  let events := sortByName ResolvedEvent.name events
  let fixtures ← catalog.fixtures.mapM (resolveFixture parse operations events)
  return {
    id := catalog.id
    operations := operations
    events := events
    schemas := schemas
    fixtures := sortByName ResolvedFixture.path fixtures
    scenarios := sortByName Scenario.name catalog.scenarios }

end Rtvbp.Spec
