import Rtvbp.Spec.Catalog

/-!
# The scenario validator

`validate_scenarios` of `spec/crates/rtvbp-spec-model/src/catalog.rs`. The pass over the steps of a case keeps the
bindings: a request binds its id until it is answered, an event binds its id for good. The bindings are a map, of
which only the order of the issues about unanswered requests depends on the representation.
-/

namespace Rtvbp.Spec

open Envelope (WireError)

variable {σ ν : Type}

/-- `peer_role`. -/
def peerRole : Role → Role
  | .voice => .application
  | .application => .voice
  | .both => .both

/-- `valid_binding`. -/
def validBinding (value : String) : Bool :=
  match value.toList with
  | '$' :: name => !name.isEmpty && name.all fun c => c.isAlphanum || c == '_'
  | _ => false

/-- What the id of an unanswered request is bound to. -/
structure Binding (σ ν : Type) where
  operation : Operation σ ν
  requester : Role
  rejection : Option OperationRejection

/-- The ids of the unanswered requests, and `none` for those of the events. -/
abbrev Bindings (σ ν : Type) := List (String × Option (Binding σ ν))

/-- `HashMap::remove`. -/
def Bindings.remove (bindings : Bindings σ ν) (id : String) : Bindings σ ν :=
  bindings.filter fun binding => binding.1 ≠ id

/-- `HashMap::insert`. -/
def Bindings.insert (bindings : Bindings σ ν) (id : String) (binding : Option (Binding σ ν)) : Bindings σ ν :=
  (id, binding) :: bindings.remove id

/-- The rejection that a role declares. -/
def Operation.rejection? (operation : Operation σ ν) (role : Role) : Option OperationRejection :=
  operation.rejections.find? fun rejection => rejection.role = role

/-- `handled_by` is the role, or both. -/
def isRoleOrBoth (declared : Option Role) (role : Role) : Bool :=
  match declared with
  | some declared => declared = role || declared = .both
  | none => false

/-- A message, if the condition holds. -/
def messageIf (condition : Bool) (message : String) : List String := if condition then [message] else []

theorem messageIf_eq_nil_iff {condition : Bool} {message : String} :
    messageIf condition message = [] ↔ condition = false := by
  rw [messageIf]
  cases condition <;> simp

section Steps

variable [BEq ν]

/-- `validate_scenario_value`. -/
def validateScenarioValue (payload : TypeRef σ ν) (value : ν) : List String :=
  match payload.roundTrip value with
  | .ok actual => messageIf (actual != value) s!"payload changes after typed {payload.name} round-trip"
  | .error error => [s!"payload does not match {payload.name}: {error}"]

/-- The messages about a request of a sender, and the bindings after it. -/
def validateRequest (catalog : Catalog σ ν) (sender : Role) (step : ScenarioRequest ν) (bindings : Bindings σ ν) :
    List String × Bindings σ ν :=
  if !validBinding step.id || (bindings.lookup step.id).isSome then
    (["request id must be a unique $binding"], bindings)
  else
    match catalog.operation? step.method with
    | none => ([s!"unknown operation {step.method.quote}"], bindings)
    | some operation =>
      let receiver := peerRole sender
      let rejection := operation.rejection? receiver
      let accepted := isRoleOrBoth operation.handledBy receiver || rejection.isSome
      (messageIf (!accepted) s!"{sender.display} cannot send operation {step.method.quote}" ++
          validateScenarioValue operation.request step.params,
        bindings.insert step.id (some { operation := operation, requester := sender, rejection := rejection }))

/-- The error is not the declared one. -/
def differs (rejection : OperationRejection) (error : Option WireError) : Bool :=
  match error with
  | some error => error.code ≠ rejection.code || error.message ≠ rejection.message
  | none => true

/-- The messages about the result of a response. -/
def validateResult (operation : Operation σ ν) : Option ν → List String
  | some result => validateScenarioValue operation.response result
  | none => []

/-- The messages about the error of a response. -/
def validateError : Option WireError → List String
  | some error =>
    messageIf (error.code = 0 || isBlank error.message) "response error requires a non-zero code and message"
  | none => []

/-- The messages about the error of a response to a request for which a rejection may be declared. -/
def validateRejection (error : Option WireError) : Option OperationRejection → List String
  | some rejection => messageIf (differs rejection error) "response must match the declared role rejection"
  | none => []

/-- The messages about a response of a sender, and the bindings after it. -/
def validateResponse (sender : Role) (step : ScenarioResponse ν) (bindings : Bindings σ ν) :
    List String × Bindings σ ν :=
  match bindings.lookup step.response with
  | some (some binding) =>
    (messageIf (sender ≠ peerRole binding.requester) "response must come from the request peer" ++
        messageIf (step.result.isSome == step.error.isSome) "response must contain exactly one of result or error" ++
        validateResult binding.operation step.result ++ validateError step.error ++
        validateRejection step.error binding.rejection,
      bindings.remove step.response)
  | _ => ([s!"response references unknown binding {step.response.quote}"], bindings)

/-- The messages about an event of a sender, and the bindings after it. -/
def validateEvent (catalog : Catalog σ ν) (sender : Role) (step : ScenarioEvent ν) (bindings : Bindings σ ν) :
    List String × Bindings σ ν :=
  let id := messageIf (!validBinding step.id || (bindings.lookup step.id).isSome) "event id must be a unique $binding"
  match catalog.event? step.event with
  | none => (id ++ [s!"unknown event {step.event.quote}"], bindings)
  | some event =>
    (id ++ messageIf (event.emittedBy.isSome && !isRoleOrBoth event.emittedBy sender)
          s!"{sender.display} cannot emit event {step.event.quote}" ++
        validateScenarioValue event.data step.data,
      bindings.insert step.id none)

/-- One pass of the loop over the steps. -/
def validateStep (catalog : Catalog σ ν) (scenario : Scenario ν) (step : ScenarioStep ν) (bindings : Bindings σ ν) :
    List String × Bindings σ ν :=
  match scenario.role? step.peer with
  | none => ([s!"unknown peer {step.peer.quote}"], bindings)
  | some sender =>
    match step with
    | .request step => validateRequest catalog sender step bindings
    | .response step => validateResponse sender step bindings
    | .event step => validateEvent catalog sender step bindings

/-- The loop over the steps: the messages with the indices of their steps, and the bindings at the end. -/
def validateSteps (catalog : Catalog σ ν) (scenario : Scenario ν) (index : Nat) (bindings : Bindings σ ν) :
    List (ScenarioStep ν) → List (Nat × String) × Bindings σ ν
  | [] => ([], bindings)
  | step :: steps =>
    let (messages, bindings) := validateStep catalog scenario step bindings
    let (rest, bindings) := validateSteps catalog scenario (index + 1) bindings steps
    (messages.map (fun message => (index, message)) ++ rest, bindings)

/-- The messages about requests that are not answered at the end of a case. -/
def unansweredMessages (index : Nat) (bindings : Bindings σ ν) : List (Nat × String) :=
  (bindings.filter fun binding => binding.2.isSome).map fun binding =>
    (index, s!"request binding {binding.1.quote} has no response")

/-- The pass over a case, after the cases of the names `earlier`. -/
def validateCase (catalog : Catalog σ ν) (scenario : Scenario ν) (earlier : List String) (case : ScenarioCase ν) :
    List (Nat × String) :=
  (messageIf (isBlank case.name) "case name must not be empty" ++
      messageIf (isBlank case.description) "case description must not be empty" ++
      messageIf (earlier.contains case.name) "duplicate case name").map (fun message => (0, message)) ++
    if case.steps.isEmpty then [(0, "case must contain at least one step")]
    else
      let (messages, bindings) := validateSteps catalog scenario 0 [] case.steps
      messages ++ unansweredMessages case.steps.length bindings

/-- `scenario_issue` for the messages about a case. -/
def caseIssues (scenario : Scenario ν) (case : ScenarioCase ν) (messages : List (Nat × String)) :
    List (CatalogValidationError ν) :=
  messages.map fun message => .invalidScenario scenario.name case.name message.1 message.2

/-- The loop over the cases. -/
def validateCases (catalog : Catalog σ ν) (scenario : Scenario ν) (earlier : List String) :
    List (ScenarioCase ν) → List (CatalogValidationError ν)
  | [] => []
  | case :: cases =>
    caseIssues scenario case (validateCase catalog scenario earlier case) ++
      validateCases catalog scenario (case.name :: earlier) cases

/-- The roles are one voice and one application peer. -/
def hasConcretePeers (scenario : Scenario ν) : Bool :=
  scenario.roles.length == 2 && (scenario.roles.map Prod.snd).contains .voice &&
    (scenario.roles.map Prod.snd).contains .application

/-- The issues about a scenario itself. -/
def scenarioIssues (scenario : Scenario ν) (earlier : List String) : List (CatalogValidationError ν) :=
  let issue (label message : String) : CatalogValidationError ν := .invalidScenario scenario.name label 0 message
  (if isBlank scenario.name then [issue "<name>" "scenario name must not be empty"] else []) ++
    (if isBlank scenario.description then [issue "<description>" "scenario description must not be empty"] else []) ++
    (if earlier.contains scenario.name then [.duplicateScenario scenario.name] else []) ++
    (if hasConcretePeers scenario then []
      else [issue "<roles>" "roles must contain concrete voice and application peers"]) ++
    if scenario.cases.isEmpty then [issue "<cases>" "scenario must contain at least one case"] else []

/-- The loop over the scenarios, after those of the names `earlier`. -/
def validateScenariosFrom (catalog : Catalog σ ν) (earlier : List String) :
    List (Scenario ν) → List (CatalogValidationError ν)
  | [] => []
  | scenario :: scenarios =>
    scenarioIssues scenario earlier ++ validateCases catalog scenario [] scenario.cases ++
      validateScenariosFrom catalog (scenario.name :: earlier) scenarios

/-- `validate_scenarios`. -/
def validateScenarios (catalog : Catalog σ ν) : List (CatalogValidationError ν) :=
  validateScenariosFrom catalog [] catalog.scenarios

end Steps

end Rtvbp.Spec

/-!
## Well-formed traces

What a scenario case is meant to be, in terms of the steps before a step and without the bindings of the validator:
a conversation of two peers in which every request is answered once, by the peer that received it.
-/

namespace Rtvbp.Spec

variable {σ ν : Type} [BEq ν]

/-- The request has been made, and not been answered since. -/
def Unanswered (before : List (ScenarioStep ν)) (request : ScenarioRequest ν) : Prop :=
  ∃ earlier later, before = earlier ++ .request request :: later ∧
    ∀ answer, .response answer ∈ later → answer.response ≠ request.id

/-- The id is neither that of an unanswered request nor that of an earlier event. -/
structure Fresh (before : List (ScenarioStep ν)) (id : String) : Prop where
  requests : ∀ request, Unanswered before request → request.id ≠ id
  events : ∀ event, .event event ∈ before → event.id ≠ id

/-- The payload survives its typed round trip. -/
def Survives (payload : TypeRef σ ν) (value : ν) : Prop :=
  ∃ actual, payload.roundTrip value = .ok actual ∧ (actual == value) = true

/-- A request is in order after the steps before it. -/
structure RequestInOrder (catalog : Catalog σ ν) (scenario : Scenario ν) (before : List (ScenarioStep ν))
    (request : ScenarioRequest ν) : Prop where
  binding : validBinding request.id = true
  fresh : Fresh before request.id
  /-- The operation is known, the receiving role handles it or declares a rejection, and the payload survives. -/
  accepted : ∃ sender operation, scenario.role? request.peer = some sender ∧
    catalog.operation? request.method = some operation ∧
    ((operation.handledBy = some (peerRole sender) ∨ operation.handledBy = some .both) ∨
      ∃ rejection ∈ operation.rejections, rejection.role = peerRole sender) ∧
    Survives operation.request request.params

/-- A response answers a request: it comes from the other peer, and is the result or an error, which is the declared
rejection if there is one. -/
structure Answers (operation : Operation σ ν) (sender : Role) (request : ScenarioRequest ν)
    (answer : ScenarioResponse ν) : Prop where
  answered : request.id = answer.response
  peer : answer.peer ≠ request.peer
  exclusive : (answer.result.isSome ∧ answer.error = none) ∨ (answer.result = none ∧ answer.error.isSome)
  result : ∀ result, answer.result = some result → Survives operation.response result
  error : ∀ error, answer.error = some error → error.code ≠ 0 ∧ isBlank error.message = false
  rejection : ∀ rejection, operation.rejection? (peerRole sender) = some rejection →
    ∃ error, answer.error = some error ∧ error.code = rejection.code ∧ error.message = rejection.message

/-- A response is in order: it answers an unanswered request, and comes from a declared peer. -/
def ResponseInOrder (catalog : Catalog σ ν) (scenario : Scenario ν) (before : List (ScenarioStep ν))
    (answer : ScenarioResponse ν) : Prop :=
  (scenario.role? answer.peer).isSome ∧ ∃ request sender operation, Unanswered before request ∧
    scenario.role? request.peer = some sender ∧ catalog.operation? request.method = some operation ∧
    Answers operation sender request answer

/-- An event is in order: it is known, and its sender may emit it. -/
structure EventInOrder (catalog : Catalog σ ν) (scenario : Scenario ν) (before : List (ScenarioStep ν))
    (step : ScenarioEvent ν) : Prop where
  binding : validBinding step.id = true
  fresh : Fresh before step.id
  accepted : ∃ sender event, scenario.role? step.peer = some sender ∧ catalog.event? step.event = some event ∧
    (∀ role, event.emittedBy = some role → role = sender ∨ role = .both) ∧ Survives event.data step.data

/-- A step is in order. -/
def InOrder (catalog : Catalog σ ν) (scenario : Scenario ν) (before : List (ScenarioStep ν)) :
    ScenarioStep ν → Prop
  | .request step => RequestInOrder catalog scenario before step
  | .response step => ResponseInOrder catalog scenario before step
  | .event step => EventInOrder catalog scenario before step

/-- Every step is in order after those before it, and every request is answered by the end. -/
structure WellFormed (catalog : Catalog σ ν) (scenario : Scenario ν) (steps : List (ScenarioStep ν)) : Prop where
  nonempty : steps ≠ []
  inOrder : ∀ before step after, steps = before ++ step :: after → InOrder catalog scenario before step
  answered : ∀ request, ¬ Unanswered steps request

/-- Exactly one voice and one application peer. -/
structure OnePeerEach (scenario : Scenario ν) : Prop where
  two : scenario.roles.length = 2
  voice : ∃ peer, scenario.role? peer = some .voice
  application : ∃ peer, scenario.role? peer = some .application

/-- A scenario whose texts are not blank and whose cases are well-formed traces of two peers. -/
structure WellFormedScenario (catalog : Catalog σ ν) (scenario : Scenario ν) : Prop where
  name : isBlank scenario.name = false
  description : isBlank scenario.description = false
  peers : OnePeerEach scenario
  nonempty : scenario.cases ≠ []
  unique : (scenario.cases.map ScenarioCase.name).Nodup
  cases : ∀ case ∈ scenario.cases,
    isBlank case.name = false ∧ isBlank case.description = false ∧ WellFormed catalog scenario case.steps

end Rtvbp.Spec
