import Rtvbp.Spec.Resolve

/-!
# Identifiers in the generated code

The top-level constants, the methods and the trait implementations that the emitters of `spec/crates/rtvbp-spec-gen`
declare for a resolved catalog: `emit/go.rs` with `emit/go/roles.rs`, `emit/rust.rs` with `emit/rust/roles.rs`, and
`emit/typescript.rs`. Everything else that the emitters write or check (types, fixtures, tests) is left to stages that
return an error or not, and are parameters.
-/

namespace Rtvbp.Spec

variable {ν ε : Type}

/-! ## Role surfaces -/

/-- `LocalRole`, which each of the emitters declares. -/
inductive LocalRole where
  | application
  | voice
  deriving DecidableEq

namespace LocalRole

/-- `name`. -/
def name : LocalRole → String
  | .application => "Application"
  | .voice => "Voice"

/-- `owns`. -/
def owns : LocalRole → Role → Bool
  | .application, .application => true
  | .voice, .voice => true
  | _, .both => true
  | _, _ => false

/-- `receives`. -/
def receives : LocalRole → Role → Bool
  | .application, .voice => true
  | .voice, .application => true
  | _, .both => true
  | _, _ => false

/-- `ALL`. -/
def all : List LocalRole := [.application, .voice]

end LocalRole

/-- `RoleMethodCollision`. -/
structure RoleMethodCollision where
  surface : String
  method : String
  first : String
  second : String

/-- `ensure_unique_methods`, and the loops around `insert_method` and `insert_member`: the wire names with their
methods, after the `methods` found so far. -/
def ensureUniqueMethods (surface : String) (methods : List (String × String)) :
    List (String × String) → Except RoleMethodCollision Unit
  | [] => .ok ()
  | (wireName, method) :: items =>
    match methods.lookup method with
    | some first => .error { surface := surface, method := method, first := first, second := wireName }
    | none => ensureUniqueMethods surface ((method, wireName) :: methods) items

/-- The wire names of the operations that a role handles, with their methods. -/
def handlerMethods (member : String → String) (catalog : ResolvedCatalog ν) (role : LocalRole) :
    List (String × String) :=
  (catalog.operations.filter fun operation => role.owns operation.handledBy).map fun operation =>
    (operation.method, member operation.method)

/-- The wire names of the events that a role emits, with their methods. -/
def emittedMethods (member : String → String) (catalog : ResolvedCatalog ν) (role : LocalRole) :
    List (String × String) :=
  (catalog.events.filter fun event => role.owns event.emittedBy).map fun event => (event.name, member event.name)

/-- The wire names of the events that a role receives, with their methods. -/
def receivedMethods (member : String → String) (catalog : ResolvedCatalog ν) (role : LocalRole) :
    List (String × String) :=
  (catalog.events.filter fun event => role.receives event.emittedBy).map fun event => (event.name, member event.name)

/-- An emitter reports a collision on a role surface, or the error of another stage. -/
inductive EmitError (ε : Type) where
  | collision (collision : RoleMethodCollision)
  | stage (error : ε)

/-- The stages of an emitter that declare no constant and no method: the types before, and fixtures and tests after the
role surfaces are checked. -/
structure EmitStages (ν ε : Type) where
  types : ResolvedCatalog ν → Except ε Unit
  tests : ResolvedCatalog ν → Except ε Unit

/-! ## Go -/

namespace GoEmit

/-- A part of a wire name with its first letter in upper case. -/
def capitalize : List Char → List Char
  | [] => []
  | first :: rest => first.toUpper :: rest

/-- `pascal_wire_name`. -/
def pascalWireName (name : String) : String :=
  String.ofList ((name.toList.splitOnP fun c => c = '.' || c = '_').flatMap capitalize)

/-- `operation_constant`. -/
def operationConstant (name : String) : String := "Method" ++ pascalWireName name

/-- `event_constant`. -/
def eventConstant (name : String) : String := "Event" ++ pascalWireName name

/-- `validate_method_names`. -/
def validateMethodNames (catalog : ResolvedCatalog ν) : Except RoleMethodCollision Unit :=
  LocalRole.all.forM fun role => do
    ensureUniqueMethods (role.name ++ "Handler") [] (handlerMethods pascalWireName catalog role)
    ensureUniqueMethods (role.name ++ "Events") [] (emittedMethods pascalWireName catalog role)
    ensureUniqueMethods (role.name ++ "EventHandler") [] (receivedMethods pascalWireName catalog role)

/-- The declarations of the package: its constants, and the receivers of `MethodName` and `EventName`, also those of
its tests. -/
structure Output where
  constants : List String
  methodNames : List String
  eventNames : List String

/-- Every constant is declared once, and every type has at most one method of either name. -/
structure Output.Unique (output : Output) : Prop where
  constants : output.constants.Nodup
  methodNames : output.methodNames.Nodup
  eventNames : output.eventNames.Nodup

/-- `render_types` and `render_tests`. -/
def render (catalog : ResolvedCatalog ν) : Output where
  constants := catalog.operations.map (fun operation => operationConstant operation.method) ++
    catalog.events.map fun event => eventConstant event.name
  methodNames := catalog.operations.map ResolvedOperation.request ++ ["roleTestRequest", "roleTestInvalidRequest"]
  eventNames := catalog.events.map ResolvedEvent.data ++ ["roleTestInvalidEvent"]

/-- `emit_go`. -/
def emit (stages : EmitStages ν ε) (catalog : ResolvedCatalog ν) : Except (EmitError ε) Output := do
  (stages.types catalog).mapError .stage
  (stages.tests catalog).mapError .stage
  (validateMethodNames catalog).mapError .collision
  return render catalog

end GoEmit

/-! ## Rust -/

namespace RustEmit

/-- One character of `snake_wire_name`: the output, from its end, and `previous_was_separator`. -/
def snakeStep (state : List Char × Bool) (c : Char) : List Char × Bool :=
  let (output, previousWasSeparator) := state
  if c.isAlphanum then
    let output := if c.isUpper && !previousWasSeparator && output.head? ≠ some '_' then '_' :: output else output
    (c.toLower :: output, false)
  else if !previousWasSeparator && !output.isEmpty then ('_' :: output, true)
  else (output, previousWasSeparator)

/-- `snake_wire_name`. -/
def snakeWireName (name : String) : String :=
  String.ofList ((name.toList.foldl snakeStep ([], true)).1.dropWhile (· = '_')).reverse

/-- `screaming_wire_name`. -/
def screamingWireName (name : String) : String := String.ofList ((snakeWireName name).toList.map Char.toUpper)

/-- `operation_constant`. -/
def operationConstant (method : String) : String := "METHOD_" ++ screamingWireName method

/-- `event_constant`. -/
def eventConstant (event : String) : String := "EVENT_" ++ screamingWireName event

/-- `validate_method_names`. -/
def validateMethodNames (catalog : ResolvedCatalog ν) : Except RoleMethodCollision Unit :=
  LocalRole.all.forM fun role => do
    ensureUniqueMethods (role.name ++ "Handler") [] (handlerMethods snakeWireName catalog role)
    ensureUniqueMethods (role.name ++ "EventHandler") [] (receivedMethods snakeWireName catalog role)

/-- The declarations of the module: its constants, and the types that implement `NamedRequest` and `NamedEvent`. -/
structure Output where
  constants : List String
  namedRequests : List String
  namedEvents : List String

/-- Every constant is declared once, and every type has at most one implementation of either trait. -/
structure Output.Unique (output : Output) : Prop where
  constants : output.constants.Nodup
  namedRequests : output.namedRequests.Nodup
  namedEvents : output.namedEvents.Nodup

/-- `render_types` and `render_handler_adapters`, which are included in one module. -/
def render (catalog : ResolvedCatalog ν) : Output where
  constants := catalog.operations.map (fun operation => operationConstant operation.method) ++
    catalog.events.map (fun event => eventConstant event.name) ++
    ["APPLICATION_HANDLER_METHODS", "VOICE_HANDLER_METHODS"]
  namedRequests := catalog.operations.map ResolvedOperation.request
  namedEvents := catalog.events.map ResolvedEvent.data

/-- `emit_rust`. -/
def emit (stages : EmitStages ν ε) (catalog : ResolvedCatalog ν) : Except (EmitError ε) Output := do
  (stages.types catalog).mapError .stage
  (stages.tests catalog).mapError .stage
  (validateMethodNames catalog).mapError .collision
  return render catalog

end RustEmit

/-! ## TypeScript -/

namespace TypeScriptEmit

/-- `words`. -/
def words (value : String) : List (List Char) :=
  (value.toList.splitOnP fun c => !c.isAlphanum).filter fun part => !part.isEmpty

/-- `screaming`. -/
def screaming (value : String) : String :=
  String.ofList (List.intercalate ['_'] ((words value).map fun word => word.map Char.toUpper))

/-- A word of `lower_camel` after the first one. -/
def camelWord : List Char → List Char
  | [] => []
  | first :: rest => first.toUpper :: rest.map Char.toLower

/-- `lower_camel`. -/
def lowerCamel (value : String) : String :=
  let output :=
    match words value with
    | [] => []
    | first :: rest => first.map Char.toLower ++ rest.flatMap camelWord
  String.ofList (if output.isEmpty || output.head?.any Char.isDigit then '_' :: output else output)

/-- `member_name`. -/
def memberName (value : String) : String := lowerCamel value

/-- `operation_constant`. -/
def operationConstant (value : String) : String := "METHOD_" ++ screaming value

/-- `event_constant`. -/
def eventConstant (value : String) : String := "EVENT_" ++ screaming value

/-- `catalog_prefix`. -/
def catalogPrefix (id : CatalogId) : String := screaming id.name ++ "_V" ++ toString id.major

/-- `validate_role_names`. -/
def validateRoleNames (catalog : ResolvedCatalog ν) : Except RoleMethodCollision Unit :=
  LocalRole.all.forM fun role => do
    ensureUniqueMethods (role.name ++ "Handler") [] (handlerMethods memberName catalog role)
    ensureUniqueMethods (role.name ++ "EventHandler") [] (receivedMethods memberName catalog role)

/-- The constants of the module of the types and of that of the roles. -/
structure Output where
  types : List String
  roles : List String

/-- Every constant is declared once. -/
structure Output.Unique (output : Output) : Prop where
  types : output.types.Nodup
  roles : output.roles.Nodup

/-- `render_types` and `render_roles`. -/
def render (catalog : ResolvedCatalog ν) : Output where
  types := [catalogPrefix catalog.id ++ "_CATALOG_ID", catalogPrefix catalog.id ++ "_SCHEMAS"] ++
    catalog.operations.map (fun operation => operationConstant operation.method) ++
    catalog.events.map fun event => eventConstant event.name
  roles := ["APPLICATION_HANDLER_METHODS", "VOICE_HANDLER_METHODS"]

/-- `emit_typescript`. -/
def emit (stages : EmitStages ν ε) (catalog : ResolvedCatalog ν) : Except (EmitError ε) Output := do
  (stages.types catalog).mapError .stage
  (validateRoleNames catalog).mapError .collision
  (stages.tests catalog).mapError .stage
  return render catalog

end TypeScriptEmit

/-! ## When identifiers are unique -/

/-- One peer has both of the roles. -/
def Role.Meets (role other : Role) : Prop := role = other ∨ role = .both ∨ other = .both

/-- Two operations that one role handles, or two events of one role, have the same method on the role surface. -/
def Collides (member : String → String) (catalog : ResolvedCatalog ν) : Prop :=
  (∃ a ∈ catalog.operations, ∃ b ∈ catalog.operations,
    a.method ≠ b.method ∧ a.handledBy.Meets b.handledBy ∧ member a.method = member b.method) ∨
  ∃ a ∈ catalog.events, ∃ b ∈ catalog.events,
    a.name ≠ b.name ∧ a.emittedBy.Meets b.emittedBy ∧ member a.name = member b.name

/-- Different operations have different identifiers, and so have different events. -/
structure DistinctNames (identifier : String → String) (catalog : ResolvedCatalog ν) : Prop where
  operations : ∀ a ∈ catalog.operations, ∀ b ∈ catalog.operations,
    identifier a.method = identifier b.method → a.method = b.method
  events : ∀ a ∈ catalog.events, ∀ b ∈ catalog.events, identifier a.name = identifier b.name → a.name = b.name

/-- Different operations have different request types, and different events have different types of data. -/
structure DistinctTypes (catalog : ResolvedCatalog ν) : Prop where
  operations : ∀ a ∈ catalog.operations, ∀ b ∈ catalog.operations, a.request = b.request → a.method = b.method
  events : ∀ a ∈ catalog.events, ∀ b ∈ catalog.events, a.data = b.data → a.name = b.name

/-- The generated Go code declares every name once. -/
structure GoEmit.Distinct (catalog : ResolvedCatalog ν) : Prop where
  names : DistinctNames pascalWireName catalog
  types : DistinctTypes catalog
  /-- No payload type has the name of a type of the tests. -/
  requests : ∀ a ∈ catalog.operations, a.request ≠ "roleTestRequest" ∧ a.request ≠ "roleTestInvalidRequest"
  data : ∀ a ∈ catalog.events, a.data ≠ "roleTestInvalidEvent"

/-- The generated Rust code declares every name once. -/
structure RustEmit.Distinct (catalog : ResolvedCatalog ν) : Prop where
  names : DistinctNames screamingWireName catalog
  types : DistinctTypes catalog

/-- The generated TypeScript code declares every name once. -/
structure TypeScriptEmit.Distinct (catalog : ResolvedCatalog ν) : Prop where
  names : DistinctNames screaming catalog
  /-- No operation or event has the constant of the catalog itself. -/
  operations : ∀ a ∈ catalog.operations, operationConstant a.method ≠ catalogPrefix catalog.id ++ "_CATALOG_ID" ∧
    operationConstant a.method ≠ catalogPrefix catalog.id ++ "_SCHEMAS"
  events : ∀ a ∈ catalog.events, eventConstant a.name ≠ catalogPrefix catalog.id ++ "_CATALOG_ID" ∧
    eventConstant a.name ≠ catalogPrefix catalog.id ++ "_SCHEMAS"

/-- One of the other stages of an emitter reports an error. -/
def EmitStages.Fail (stages : EmitStages ν ε) (catalog : ResolvedCatalog ν) : Prop :=
  stages.types catalog ≠ .ok () ∨ stages.tests catalog ≠ .ok ()

end Rtvbp.Spec
