import Rtvbp.Spec.Scenarios
import Rtvbp.Lib.Keys
import Mathlib.Tactic

/-!
# Proofs: the scenario validator

The bindings of the validator represent the steps before: an id is bound to a request as long as that is unanswered,
and to `none` once it is the id of an event. A step gives no message exactly if it is in order, and then the bindings
after it represent the steps with it; the run over the steps follows by induction.
-/

namespace Rtvbp.Spec

open Rtvbp.Lib

variable {σ ν : Type} {catalog : Catalog σ ν} {scenario : Scenario ν} {before : List (ScenarioStep ν)}
  {scenarios : List (Scenario ν)} {bindings : Bindings σ ν} {id : String}

/-! ## Two peers -/

/-- Of two peers the one is voice and the other one is the application. -/
theorem OnePeerEach.roles_eq (h : OnePeerEach scenario) :
    ∃ a b, a ≠ b ∧ (scenario.roles = [(a, .voice), (b, .application)] ∨
      scenario.roles = [(b, .application), (a, .voice)]) := by
  obtain ⟨⟨a, ra⟩, ⟨b, rb⟩, hroles⟩ := List.length_eq_two.mp h.two
  have hne : a ≠ b := by
    have hnodup := scenario.roles_nodup
    rw [hroles] at hnodup
    simpa using hnodup
  obtain ⟨v, hv⟩ := h.voice
  obtain ⟨w, hw⟩ := h.application
  have hvoice : (v, Role.voice) ∈ scenario.roles := mem_of_lookup_eq_some hv
  have happlication : (w, Role.application) ∈ scenario.roles := mem_of_lookup_eq_some hw
  rw [hroles] at hvoice happlication
  simp only [List.mem_cons, Prod.mk.injEq, List.not_mem_nil, or_false] at hvoice happlication
  rcases hvoice with ⟨rfl, rfl⟩ | ⟨rfl, rfl⟩
  · rcases happlication with ⟨rfl, hr⟩ | ⟨rfl, rfl⟩
    · cases hr
    · exact ⟨v, w, hne, Or.inl hroles⟩
  · rcases happlication with ⟨rfl, rfl⟩ | ⟨rfl, hr⟩
    · exact ⟨v, w, hne.symm, Or.inr hroles⟩
    · cases hr

/-- A peer has the role opposite to that of another peer exactly if it is not the same one. -/
theorem OnePeerEach.other_iff (h : OnePeerEach scenario) {peer other : String} {role otherRole : Role}
    (hpeer : scenario.role? peer = some role) (hother : scenario.role? other = some otherRole) :
    role = peerRole otherRole ↔ peer ≠ other := by
  obtain ⟨a, b, hne, hroles⟩ := h.roles_eq
  have hcases : ∀ {p : String} {r : Role}, scenario.role? p = some r →
      (p = a ∧ r = .voice) ∨ (p = b ∧ r = .application) := by
    intro p r hp
    have hmem : (p, r) ∈ scenario.roles := mem_of_lookup_eq_some hp
    rcases hroles with hroles | hroles
    · rw [hroles] at hmem
      simpa using hmem
    · rw [hroles] at hmem
      simpa [or_comm] using hmem
  rcases hcases hpeer with ⟨rfl, rfl⟩ | ⟨rfl, rfl⟩ <;> rcases hcases hother with ⟨rfl, rfl⟩ | ⟨rfl, rfl⟩
  · simp [peerRole]
  · simp [peerRole, hne]
  · simp [peerRole, hne.symm]
  · simp [peerRole]

/-- The check of the roles is that of one voice and one application peer. -/
theorem hasConcretePeers_iff : hasConcretePeers scenario = true ↔ OnePeerEach scenario := by
  have hrole : ∀ role : Role, role ∈ scenario.roles.map Prod.snd ↔ ∃ peer, scenario.role? peer = some role := by
    intro role
    simp only [List.mem_map, Prod.exists, exists_eq_right, Scenario.role?]
    constructor
    · rintro ⟨peer, hmem⟩
      exact ⟨peer, (lookup_eq_some_iff_mem scenario.roles_nodup).mpr hmem⟩
    · rintro ⟨peer, hlookup⟩
      exact ⟨peer, mem_of_lookup_eq_some hlookup⟩
  rw [hasConcretePeers, Bool.and_eq_true, Bool.and_eq_true, List.contains_iff_mem, List.contains_iff_mem, hrole, hrole,
    beq_iff_eq]
  constructor
  · rintro ⟨⟨htwo, hvoice⟩, happlication⟩
    exact ⟨htwo, hvoice, happlication⟩
  · intro h
    exact ⟨⟨h.two, h.voice⟩, h.application⟩

/-! ## The bindings as a map -/

theorem lookup_remove (bindings : Bindings σ ν) (removed id : String) :
    (bindings.remove removed).lookup id = if id = removed then none else bindings.lookup id := by
  rw [Bindings.remove]
  induction bindings with
  | nil => simp
  | cons binding bindings ih =>
    rcases binding with ⟨key, value⟩
    by_cases hkey : key = removed
    · rw [List.filter_cons_of_neg (by simp [hkey]), ih]
      by_cases hid : id = removed
      · rw [if_pos hid, if_pos hid]
      · have hfalse : (id == key) = false := by simpa [hkey] using hid
        rw [if_neg hid, if_neg hid, List.lookup_cons, hfalse]
    · rw [List.filter_cons_of_pos (by simp [hkey]), List.lookup_cons, List.lookup_cons, ih]
      by_cases hid : id = key
      · subst hid
        simp [hkey]
      · have hfalse : (id == key) = false := by simpa using hid
        rw [hfalse]

theorem lookup_insert (bindings : Bindings σ ν) (inserted id : String) (binding : Option (Binding σ ν)) :
    (bindings.insert inserted binding).lookup id = if id = inserted then some binding else bindings.lookup id := by
  rw [Bindings.insert, List.lookup_cons]
  by_cases hid : id = inserted
  · simp [hid]
  · have hfalse : (id == inserted) = false := by simpa using hid
    simp only [hfalse, if_neg hid, lookup_remove]

theorem nodup_remove (h : (bindings.map Prod.fst).Nodup) (removed : String) :
    ((bindings.remove removed).map Prod.fst).Nodup :=
  h.sublist (List.filter_sublist.map Prod.fst)

theorem nodup_insert (h : (bindings.map Prod.fst).Nodup) (inserted : String) (binding : Option (Binding σ ν)) :
    ((bindings.insert inserted binding).map Prod.fst).Nodup := by
  rw [Bindings.insert, List.map_cons, List.nodup_cons]
  refine ⟨?_, nodup_remove h inserted⟩
  rw [Bindings.remove]
  simp

/-! ## Unanswered requests -/

section Unanswered

variable {request : ScenarioRequest ν}

theorem not_unanswered_nil : ¬ Unanswered [] request := by
  rintro ⟨earlier, later, h, -⟩
  simp at h

/-- What a step does to the unanswered requests. -/
theorem unanswered_concat {step : ScenarioStep ν} :
    Unanswered (before ++ [step]) request ↔
      step = .request request ∨
        (Unanswered before request ∧ ∀ answer, step = .response answer → answer.response ≠ request.id) := by
  constructor
  · rintro ⟨earlier, later, h, hlater⟩
    rcases List.eq_nil_or_concat later with rfl | ⟨later, last, rfl⟩
    · left
      have hlast := congrArg List.getLast? h
      simpa using hlast
    · right
      rw [List.concat_eq_append, ← List.cons_append, ← List.append_assoc] at h
      obtain ⟨rfl, hlast⟩ := List.append_inj' h rfl
      obtain rfl : step = last := by simpa using hlast
      refine ⟨⟨earlier, later, rfl, fun answer hmem => ?_⟩, fun answer heq => ?_⟩
      · exact hlater answer (by simp [hmem])
      · exact hlater answer (by simp [heq])
  · rintro (rfl | ⟨⟨earlier, later, rfl, hlater⟩, hstep⟩)
    · exact ⟨before, [], rfl, by simp⟩
    · refine ⟨earlier, later ++ [step], by simp, fun answer hmem => ?_⟩
      rcases List.mem_append.mp hmem with hmem | hmem
      · exact hlater answer hmem
      · exact hstep answer (List.mem_singleton.mp hmem).symm

end Unanswered

/-! ## What the bindings represent -/

/-- The binding is that of a request. -/
structure BindingOf (catalog : Catalog σ ν) (scenario : Scenario ν) (request : ScenarioRequest ν)
    (binding : Binding σ ν) : Prop where
  requester : scenario.role? request.peer = some binding.requester
  operation : catalog.operation? request.method = some binding.operation
  rejection : binding.rejection = binding.operation.rejection? (peerRole binding.requester)

/-- A request has one binding. -/
theorem BindingOf.unique {request : ScenarioRequest ν} {binding binding' : Binding σ ν}
    (h : BindingOf catalog scenario request binding) (h' : BindingOf catalog scenario request binding') :
    binding = binding' := by
  rcases binding with ⟨operation, requester, rejection⟩
  rcases binding' with ⟨operation', requester', rejection'⟩
  obtain rfl : requester = requester' := Option.some.inj (h.requester.symm.trans h'.requester)
  obtain rfl : operation = operation' := Option.some.inj (h.operation.symm.trans h'.operation)
  obtain rfl : rejection = rejection' := h.rejection.trans h'.rejection.symm
  rfl

/-- The bindings represent the steps before. -/
structure Represents (catalog : Catalog σ ν) (scenario : Scenario ν) (before : List (ScenarioStep ν))
    (bindings : Bindings σ ν) : Prop where
  keys : (bindings.map Prod.fst).Nodup
  events : ∀ id, bindings.lookup id = some none ↔ ∃ event, .event event ∈ before ∧ event.id = id
  requests : ∀ id binding, bindings.lookup id = some (some binding) ↔
    ∃ request, Unanswered before request ∧ request.id = id ∧ BindingOf catalog scenario request binding
  /-- Every unanswered request has a binding. -/
  bound : ∀ request, Unanswered before request → ∃ binding, BindingOf catalog scenario request binding

theorem represents_nil : Represents catalog scenario [] [] where
  keys := List.nodup_nil
  events id := by simp
  requests id binding := by
    constructor
    · intro h
      cases h
    · rintro ⟨request, h, -⟩
      exact absurd h not_unanswered_nil
  bound request h := absurd h not_unanswered_nil

/-- An id is fresh exactly if it is not bound. -/
theorem Represents.fresh_iff (h : Represents catalog scenario before bindings) :
    bindings.lookup id = none ↔ Fresh before id := by
  constructor
  · intro hnone
    constructor
    · rintro request hrequest rfl
      obtain ⟨binding, hbinding⟩ := h.bound request hrequest
      have hsome := (h.requests request.id binding).mpr ⟨request, hrequest, rfl, hbinding⟩
      rw [hnone] at hsome
      cases hsome
    · rintro event hevent rfl
      have hsome := (h.events event.id).mpr ⟨event, hevent, rfl⟩
      rw [hnone] at hsome
      cases hsome
  · intro hfresh
    cases hlookup : bindings.lookup id with
    | none => rfl
    | some binding =>
      cases binding with
      | none =>
        obtain ⟨event, hevent, hid⟩ := (h.events id).mp hlookup
        exact absurd hid (hfresh.events event hevent)
      | some binding =>
        obtain ⟨request, hrequest, hid, -⟩ := (h.requests id binding).mp hlookup
        exact absurd hid (hfresh.requests request hrequest)

/-- The bindings after a request with a fresh id. -/
theorem Represents.request (h : Represents catalog scenario before bindings) {request : ScenarioRequest ν}
    {binding : Binding σ ν} (hfresh : Fresh before request.id) (hbinding : BindingOf catalog scenario request binding) :
    Represents catalog scenario (before ++ [.request request]) (bindings.insert request.id (some binding)) where
  keys := nodup_insert h.keys _ _
  events id := by
    rw [lookup_insert]
    split
    · next hid =>
      subst hid
      simp only [Option.some.injEq, reduceCtorEq, false_iff]
      rintro ⟨event, hevent, hid⟩
      simp only [List.mem_append, List.mem_singleton, reduceCtorEq, or_false] at hevent
      exact hfresh.events event hevent hid
    · rw [h.events]
      simp
  requests id binding' := by
    rw [lookup_insert]
    simp only [unanswered_concat, ScenarioStep.request.injEq, reduceCtorEq, false_implies, implies_true, and_true]
    split
    · next hid =>
      subst hid
      constructor
      · intro heq
        obtain rfl : binding = binding' := by simpa using heq
        exact ⟨request, Or.inl rfl, rfl, hbinding⟩
      · rintro ⟨request', rfl | hrequest, hid, hbinding'⟩
        · rw [hbinding.unique hbinding']
        · exact absurd hid (hfresh.requests request' hrequest)
    · next hid =>
      rw [h.requests]
      constructor
      · rintro ⟨request', hrequest, hrest⟩
        exact ⟨request', Or.inr hrequest, hrest⟩
      · rintro ⟨request', rfl | hrequest, hid', hbinding'⟩
        · exact absurd hid'.symm hid
        · exact ⟨request', hrequest, hid', hbinding'⟩
  bound request' hrequest := by
    rw [unanswered_concat] at hrequest
    rcases hrequest with heq | ⟨hrequest, -⟩
    · obtain rfl : request = request' := by simpa using heq
      exact ⟨binding, hbinding⟩
    · exact h.bound request' hrequest

/-- The bindings after the answer to an unanswered request. -/
theorem Represents.response (h : Represents catalog scenario before bindings) {answer : ScenarioResponse ν}
    {binding : Binding σ ν} (hbound : bindings.lookup answer.response = some (some binding)) :
    Represents catalog scenario (before ++ [.response answer]) (bindings.remove answer.response) where
  keys := nodup_remove h.keys _
  events id := by
    rw [lookup_remove]
    simp only [List.mem_append, List.mem_singleton, reduceCtorEq, or_false]
    split
    · next hid =>
      subst hid
      simp only [reduceCtorEq, false_iff]
      intro hevent
      rw [(h.events answer.response).mpr hevent] at hbound
      cases hbound
    · exact h.events id
  requests id binding' := by
    rw [lookup_remove]
    simp only [unanswered_concat, reduceCtorEq, false_or, ScenarioStep.response.injEq, forall_eq']
    split
    · next hid =>
      subst hid
      simp only [reduceCtorEq, false_iff]
      rintro ⟨request, ⟨-, hne⟩, hid, -⟩
      exact hne hid.symm
    · next hid =>
      rw [h.requests]
      constructor
      · rintro ⟨request, hrequest, rfl, hbinding⟩
        exact ⟨request, ⟨hrequest, fun heq => hid heq.symm⟩, rfl, hbinding⟩
      · rintro ⟨request, ⟨hrequest, -⟩, hrest⟩
        exact ⟨request, hrequest, hrest⟩
  bound request hrequest := by
    rw [unanswered_concat] at hrequest
    rcases hrequest with heq | ⟨hrequest, -⟩
    · cases heq
    · exact h.bound request hrequest

/-- The bindings after an event with a fresh id. -/
theorem Represents.event (h : Represents catalog scenario before bindings) {event : ScenarioEvent ν}
    (hfresh : Fresh before event.id) :
    Represents catalog scenario (before ++ [.event event]) (bindings.insert event.id none) where
  keys := nodup_insert h.keys _ _
  events id := by
    rw [lookup_insert]
    simp only [List.mem_append, List.mem_singleton, ScenarioStep.event.injEq]
    split
    · next hid =>
      subst hid
      simp only [true_iff]
      exact ⟨event, Or.inr rfl, rfl⟩
    · next hid =>
      rw [h.events]
      constructor
      · rintro ⟨event', hevent, hid'⟩
        exact ⟨event', Or.inl hevent, hid'⟩
      · rintro ⟨event', hevent | rfl, hid'⟩
        · exact ⟨event', hevent, hid'⟩
        · exact absurd hid'.symm hid
  requests id binding := by
    rw [lookup_insert]
    simp only [unanswered_concat, reduceCtorEq, false_or, false_implies, implies_true, and_true]
    split
    · next hid =>
      subst hid
      simp only [Option.some.injEq, reduceCtorEq, false_iff]
      rintro ⟨request, hrequest, hid, -⟩
      exact hfresh.requests request hrequest hid
    · exact h.requests id binding
  bound request hrequest := by
    rw [unanswered_concat] at hrequest
    rcases hrequest with heq | ⟨hrequest, -⟩
    · cases heq
    · exact h.bound request hrequest

/-! ## The steps -/

theorem isRoleOrBoth_iff {declared : Option Role} {role : Role} :
    isRoleOrBoth declared role = true ↔ declared = some role ∨ declared = some .both := by
  cases declared <;> simp [isRoleOrBoth]

/-- A role declares a rejection exactly if there is one for it. -/
theorem isSome_rejection_iff {operation : Operation σ ν} {role : Role} :
    (operation.rejection? role).isSome = true ↔ ∃ rejection ∈ operation.rejections, rejection.role = role := by
  rw [Operation.rejection?, List.find?_isSome]
  simp

/-! ## A conversation -/

/-- An operation of the conversation. -/
def talkOperation (method : String) (handledBy : Option Role) (rejections : List OperationRejection) :
    Operation Unit Nat where
  method := method
  handledBy := handledBy
  request := ⟨"Request", (), .ok, .ok⟩
  response := ⟨"Response", (), .ok, .ok⟩
  terminal := false
  rejections := rejections
  docs := none
  examples := []

/-- A request that is answered, an event, and a request that is rejected. -/
def talkCase (description : String) : ScenarioCase Nat where
  name := "talk"
  description := description
  steps := [
    .request ⟨"a", "$call", "call.move", 1⟩,
    .event ⟨"v", "$dtmf", "dtmf", 2⟩,
    .response ⟨"v", "$call", some 3, none⟩,
    .request ⟨"a", "$call", "session.get", 4⟩,
    .response ⟨"v", "$call", none, some ⟨404, "not found", none⟩⟩]

/-- The scenario of the conversation. -/
def talkScenario (description : String) : Scenario Nat where
  name := "talk"
  description := "a call"
  roles := [("a", .application), ("v", .voice)]
  cases := [talkCase description]
  roles_nodup := by decide

/-- The voice peer handles the first operation and rejects the second one. -/
def talkCatalog (description : String) : Catalog Unit Nat where
  id := ⟨"talk", 1⟩
  operations := [talkOperation "call.move" (some .voice) [],
    talkOperation "session.get" (some .application) [⟨.voice, 404, "not found"⟩]]
  events := [⟨"dtmf", some .voice, ⟨"Dtmf", (), .ok, .ok⟩, none, []⟩]
  fixtures := []
  scenarios := [talkScenario description]

theorem talk_peers (description : String) : OnePeerEach (talkScenario description) where
  two := rfl
  voice := ⟨"v", rfl⟩
  application := ⟨"a", rfl⟩

/-! ## The messages of a step -/

section Messages

variable [BEq ν]

theorem validateScenarioValue_eq_nil_iff {payload : TypeRef σ ν} {value : ν} :
    validateScenarioValue payload value = [] ↔ Survives payload value := by
  rw [validateScenarioValue, Survives]
  cases hround : payload.roundTrip value with
  | ok actual => simp [messageIf_eq_nil_iff, bne]
  | error message => simp

/-- A request gives no message exactly if it is in order. -/
theorem validateRequest_spec (h : Represents catalog scenario before bindings) {sender : Role}
    {step : ScenarioRequest ν} (hsender : scenario.role? step.peer = some sender) :
    ((validateRequest catalog sender step bindings).1 = [] ↔ RequestInOrder catalog scenario before step) ∧
      (RequestInOrder catalog scenario before step → Represents catalog scenario (before ++ [.request step])
        (validateRequest catalog sender step bindings).2) := by
  have hfresh : bindings.lookup step.id = none ↔ Fresh before step.id := h.fresh_iff
  rw [validateRequest]
  by_cases hid : (!validBinding step.id || (bindings.lookup step.id).isSome) = true
  · rw [if_pos hid]
    have hnot : ¬ RequestInOrder catalog scenario before step := by
      intro hin
      simp [hin.binding, hfresh.mpr hin.fresh] at hid
    exact ⟨by simp [hnot], fun hin => absurd hin hnot⟩
  rw [if_neg hid]
  have hboth : validBinding step.id = true ∧ bindings.lookup step.id = none := by
    rw [Bool.not_eq_true, Bool.or_eq_false_iff] at hid
    exact ⟨by simpa using hid.1, Option.isSome_eq_false_iff.mp hid.2 |> Option.isNone_iff_eq_none.mp⟩
  cases hoperation : catalog.operation? step.method with
  | none =>
    have hnot : ¬ RequestInOrder catalog scenario before step := by
      rintro ⟨-, -, sender', operation, -, hop, -⟩
      rw [hoperation] at hop
      cases hop
    exact ⟨by simp [hnot], fun hin => absurd hin hnot⟩
  | some operation =>
    have hbinding : BindingOf catalog scenario step ⟨operation, sender, operation.rejection? (peerRole sender)⟩ :=
      ⟨hsender, hoperation, rfl⟩
    constructor
    · simp only [List.append_eq_nil_iff, messageIf_eq_nil_iff, validateScenarioValue_eq_nil_iff,
        Bool.not_eq_eq_eq_not, Bool.not_false, Bool.or_eq_true, isRoleOrBoth_iff, isSome_rejection_iff]
      constructor
      · rintro ⟨haccepted, hsurvives⟩
        exact ⟨hboth.1, hfresh.mp hboth.2, sender, operation, hsender, hoperation, haccepted, hsurvives⟩
      · rintro ⟨-, -, sender', operation', hsender', hop, haccepted, hsurvives⟩
        obtain rfl : sender = sender' := Option.some.inj (hsender.symm.trans hsender')
        obtain rfl : operation = operation' := Option.some.inj (hoperation.symm.trans hop)
        exact ⟨haccepted, hsurvives⟩
    · intro hin
      exact h.request hin.fresh hbinding

/-- The error is the declared one. -/
theorem differs_eq_false_iff {rejection : OperationRejection} {error : Option Envelope.WireError} :
    differs rejection error = false ↔
      ∃ found, error = some found ∧ found.code = rejection.code ∧ found.message = rejection.message := by
  cases error <;> simp [differs]

/-- A response to a bound request gives no message exactly if it answers that request. -/
theorem validateResponse_bound (hroles : OnePeerEach scenario) {sender : Role} {step : ScenarioResponse ν}
    (hsender : scenario.role? step.peer = some sender) {request : ScenarioRequest ν} {binding : Binding σ ν}
    (hlookup : bindings.lookup step.response = some (some binding)) (hid : request.id = step.response)
    (hbinding : BindingOf catalog scenario request binding) :
    (validateResponse sender step bindings).1 = [] ↔ Answers binding.operation binding.requester request step := by
  have hpeer : sender = peerRole binding.requester ↔ step.peer ≠ request.peer :=
    hroles.other_iff hsender hbinding.requester
  have hexclusive : (step.result.isSome == step.error.isSome) = false ↔
      (step.result.isSome ∧ step.error = none) ∨ (step.result = none ∧ step.error.isSome) := by
    cases step.result <;> cases step.error <;> simp
  have hresult : validateResult binding.operation step.result = [] ↔
      ∀ result, step.result = some result → Survives binding.operation.response result := by
    cases step.result with
    | none => simp [validateResult]
    | some result => simp [validateResult, validateScenarioValue_eq_nil_iff]
  have herror : validateError step.error = [] ↔
      ∀ error, step.error = some error → error.code ≠ 0 ∧ isBlank error.message = false := by
    cases step.error with
    | none => simp [validateError]
    | some error => simp [validateError, messageIf_eq_nil_iff]
  have hrejection : validateRejection step.error binding.rejection = [] ↔
      ∀ rejection, binding.operation.rejection? (peerRole binding.requester) = some rejection →
        ∃ error, step.error = some error ∧ error.code = rejection.code ∧ error.message = rejection.message := by
    rw [← hbinding.rejection]
    cases binding.rejection with
    | none => simp [validateRejection]
    | some rejection => simp [validateRejection, messageIf_eq_nil_iff, differs_eq_false_iff]
  rw [validateResponse, hlookup]
  simp only [List.append_eq_nil_iff, messageIf_eq_nil_iff, decide_eq_false_iff_not, not_not]
  constructor
  · rintro ⟨⟨⟨⟨hp, hx⟩, hr⟩, he⟩, hj⟩
    exact ⟨hid, hpeer.mp hp, hexclusive.mp hx, hresult.mp hr, herror.mp he, hrejection.mp hj⟩
  · intro h
    exact ⟨⟨⟨⟨hpeer.mpr h.peer, hexclusive.mpr h.exclusive⟩, hresult.mpr h.result⟩, herror.mpr h.error⟩,
      hrejection.mpr h.rejection⟩

/-- A response gives no message exactly if it is in order. -/
theorem validateResponse_spec (hroles : OnePeerEach scenario) (h : Represents catalog scenario before bindings)
    {sender : Role} {step : ScenarioResponse ν} (hsender : scenario.role? step.peer = some sender) :
    ((validateResponse sender step bindings).1 = [] ↔ ResponseInOrder catalog scenario before step) ∧
      (ResponseInOrder catalog scenario before step → Represents catalog scenario (before ++ [.response step])
        (validateResponse sender step bindings).2) := by
  by_cases hbound : ∃ binding, bindings.lookup step.response = some (some binding)
  · obtain ⟨binding, hlookup⟩ := hbound
    obtain ⟨request, hrequest, hid, hbinding⟩ := (h.requests _ _).mp hlookup
    constructor
    · rw [validateResponse_bound hroles hsender hlookup hid hbinding]
      constructor
      · intro hanswers
        refine ⟨?_, request, binding.requester, binding.operation, hrequest, hbinding.requester, hbinding.operation,
          hanswers⟩
        rw [hsender]
        rfl
      · rintro ⟨-, request', sender', operation, hrequest', hsender', hoperation, hanswers⟩
        have hbinding' : BindingOf catalog scenario request'
            ⟨operation, sender', operation.rejection? (peerRole sender')⟩ := ⟨hsender', hoperation, rfl⟩
        have hlookup' := (h.requests _ _).mpr ⟨request', hrequest', hanswers.answered, hbinding'⟩
        rw [hlookup] at hlookup'
        simp only [Option.some.injEq] at hlookup'
        subst hlookup'
        have hother : sender = peerRole sender' ↔ step.peer ≠ request.peer := hroles.other_iff hsender hbinding.requester
        have hother' := hroles.other_iff hsender hsender'
        exact ⟨hid, hother.mp (hother'.mpr hanswers.peer), hanswers.exclusive, hanswers.result, hanswers.error,
          hanswers.rejection⟩
    · intro hin
      have hsnd : (validateResponse sender step bindings).2 = bindings.remove step.response := by
        rw [validateResponse, hlookup]
      rw [hsnd]
      exact h.response hlookup
  · have hnot : ¬ ResponseInOrder catalog scenario before step := by
      rintro ⟨-, request, sender', operation, hrequest, hsender', hoperation, hanswers⟩
      have hbinding : BindingOf catalog scenario request
          ⟨operation, sender', operation.rejection? (peerRole sender')⟩ := ⟨hsender', hoperation, rfl⟩
      exact hbound ⟨_, (h.requests _ _).mpr ⟨request, hrequest, hanswers.answered, hbinding⟩⟩
    have hmessages : (validateResponse sender step bindings).1 ≠ [] := by
      rw [validateResponse]
      split
      · next binding hlookup => exact absurd ⟨binding, hlookup⟩ hbound
      · simp
    exact ⟨⟨fun hnil => absurd hnil hmessages, fun hin => absurd hin hnot⟩, fun hin => absurd hin hnot⟩

/-- An event gives no message exactly if it is in order. -/
theorem validateEvent_spec (h : Represents catalog scenario before bindings) {sender : Role} {step : ScenarioEvent ν}
    (hsender : scenario.role? step.peer = some sender) :
    ((validateEvent catalog sender step bindings).1 = [] ↔ EventInOrder catalog scenario before step) ∧
      (EventInOrder catalog scenario before step → Represents catalog scenario (before ++ [.event step])
        (validateEvent catalog sender step bindings).2) := by
  have hfresh : bindings.lookup step.id = none ↔ Fresh before step.id := h.fresh_iff
  have hid : (!validBinding step.id || (bindings.lookup step.id).isSome) = false ↔
      validBinding step.id = true ∧ Fresh before step.id := by
    rw [← hfresh]
    simp
  rw [validateEvent]
  cases hevent : catalog.event? step.event with
  | none =>
    have hnot : ¬ EventInOrder catalog scenario before step := by
      rintro ⟨-, -, sender', event, -, hev, -⟩
      rw [hevent] at hev
      cases hev
    exact ⟨by simp [hnot], fun hin => absurd hin hnot⟩
  | some event =>
    constructor
    · simp only [List.append_eq_nil_iff, messageIf_eq_nil_iff, validateScenarioValue_eq_nil_iff, hid]
      have hemits : (event.emittedBy.isSome && !isRoleOrBoth event.emittedBy sender) = false ↔
          ∀ role, event.emittedBy = some role → role = sender ∨ role = .both := by
        cases event.emittedBy with
        | none => simp
        | some role => simp [isRoleOrBoth, or_iff_not_imp_left]
      rw [hemits]
      constructor
      · rintro ⟨⟨⟨hbinding, hnew⟩, hby⟩, hsurvives⟩
        exact ⟨hbinding, hnew, sender, event, hsender, hevent, hby, hsurvives⟩
      · rintro ⟨hbinding, hnew, sender', event', hsender', hev, hby, hsurvives⟩
        obtain rfl : sender = sender' := Option.some.inj (hsender.symm.trans hsender')
        obtain rfl : event = event' := Option.some.inj (hevent.symm.trans hev)
        exact ⟨⟨⟨hbinding, hnew⟩, hby⟩, hsurvives⟩
    · intro hin
      exact h.event hin.fresh

/-- A step gives no message exactly if it is in order. -/
theorem validateStep_spec (hroles : OnePeerEach scenario) (h : Represents catalog scenario before bindings)
    (step : ScenarioStep ν) :
    ((validateStep catalog scenario step bindings).1 = [] ↔ InOrder catalog scenario before step) ∧
      (InOrder catalog scenario before step → Represents catalog scenario (before ++ [step])
        (validateStep catalog scenario step bindings).2) := by
  cases hrole : scenario.role? step.peer with
  | none =>
    have hnot : ¬ InOrder catalog scenario before step := by
      intro hin
      cases step with
      | request step =>
        obtain ⟨sender, -, hsender, -⟩ := hin.accepted
        exact absurd (hrole.symm.trans hsender) (by simp)
      | response step =>
        have hsome := hin.1
        rw [show scenario.role? step.peer = none from hrole] at hsome
        cases hsome
      | event step =>
        obtain ⟨sender, -, hsender, -⟩ := hin.accepted
        exact absurd (hrole.symm.trans hsender) (by simp)
    rw [validateStep, hrole]
    exact ⟨by simp [hnot], fun hin => absurd hin hnot⟩
  | some sender =>
    rw [validateStep, hrole]
    cases step with
    | request step => exact validateRequest_spec h hrole
    | response step => exact validateResponse_spec hroles h hrole
    | event step => exact validateEvent_spec h hrole

/-! ## The run over the steps -/

/-- Each of the steps is in order after those before it. -/
def InOrderAfter (catalog : Catalog σ ν) (scenario : Scenario ν) (before steps : List (ScenarioStep ν)) : Prop :=
  ∀ earlier step after, steps = earlier ++ step :: after → InOrder catalog scenario (before ++ earlier) step

theorem inOrderAfter_nil : InOrderAfter catalog scenario before [] := by
  intro earlier step after h
  simp at h

theorem inOrderAfter_cons {step : ScenarioStep ν} {steps : List (ScenarioStep ν)} :
    InOrderAfter catalog scenario before (step :: steps) ↔
      InOrder catalog scenario before step ∧ InOrderAfter catalog scenario (before ++ [step]) steps := by
  constructor
  · intro h
    constructor
    · simpa using h [] step steps rfl
    · intro earlier later after heq
      have hlater := h (step :: earlier) later after (by rw [heq]; rfl)
      simpa using hlater
  · rintro ⟨hstep, hsteps⟩ earlier later after heq
    cases earlier with
    | nil =>
      obtain ⟨rfl, -⟩ : step = later ∧ steps = after := by simpa using heq
      simpa using hstep
    | cons first earlier =>
      obtain ⟨rfl, hrest⟩ : step = first ∧ steps = earlier ++ later :: after := by simpa using heq
      have hlater := hsteps earlier later after hrest
      simpa using hlater

/-- The pass over the steps gives no message exactly if they are in order. -/
theorem validateSteps_spec (hroles : OnePeerEach scenario) (steps : List (ScenarioStep ν)) :
    ∀ (before : List (ScenarioStep ν)) (bindings : Bindings σ ν) (index : Nat),
      Represents catalog scenario before bindings →
      ((validateSteps catalog scenario index bindings steps).1 = [] ↔
          InOrderAfter catalog scenario before steps) ∧
        (InOrderAfter catalog scenario before steps → Represents catalog scenario (before ++ steps)
          (validateSteps catalog scenario index bindings steps).2) := by
  induction steps with
  | nil =>
    intro before bindings index h
    constructor
    · simp [validateSteps, inOrderAfter_nil]
    · intro _
      simpa [validateSteps] using h
  | cons step steps ih =>
    intro before bindings index h
    obtain ⟨hnil, hafter⟩ := validateStep_spec hroles h step
    rw [validateSteps, inOrderAfter_cons]
    constructor
    · simp only [List.append_eq_nil_iff, List.map_eq_nil_iff]
      rw [hnil]
      constructor
      · rintro ⟨hstep, hrest⟩
        exact ⟨hstep, ((ih _ _ _ (hafter hstep)).1).mp hrest⟩
      · rintro ⟨hstep, hrest⟩
        exact ⟨hstep, ((ih _ _ _ (hafter hstep)).1).mpr hrest⟩
    · rintro ⟨hstep, hrest⟩
      have hrepresents := (ih _ _ (index + 1) (hafter hstep)).2 hrest
      simpa using hrepresents

omit [BEq ν] in
/-- No request is reported as unanswered exactly if none is. -/
theorem unansweredMessages_eq_nil_iff (h : Represents catalog scenario before bindings) (index : Nat) :
    unansweredMessages index bindings = [] ↔ ∀ request, ¬ Unanswered before request := by
  rw [unansweredMessages, List.map_eq_nil_iff, List.filter_eq_nil_iff]
  constructor
  · intro hnone request hrequest
    obtain ⟨binding, hbinding⟩ := h.bound request hrequest
    have hlookup := (h.requests _ _).mpr ⟨request, hrequest, rfl, hbinding⟩
    exact hnone _ (mem_of_lookup_eq_some hlookup) rfl
  · rintro hnone ⟨id, binding⟩ hmem hsome
    cases binding with
    | none => cases hsome
    | some binding =>
      have hlookup : bindings.lookup id = some (some binding) := (lookup_eq_some_iff_mem h.keys).mpr hmem
      obtain ⟨request, hrequest, -⟩ := (h.requests _ _).mp hlookup
      exact hnone request hrequest

/-! ## Cases -/

/-- The messages about the steps of a case are none exactly if the steps are in order and all requests are answered. -/
theorem trace_messages_eq_nil_iff (hroles : OnePeerEach scenario) (steps : List (ScenarioStep ν)) :
    (validateSteps catalog scenario 0 [] steps).1 ++
        unansweredMessages steps.length (validateSteps catalog scenario 0 [] steps).2 = [] ↔
      InOrderAfter catalog scenario [] steps ∧ ∀ request, ¬ Unanswered steps request := by
  have hinit : Represents catalog scenario [] [] := represents_nil
  obtain ⟨hnil, hafter⟩ := validateSteps_spec hroles steps [] [] 0 hinit
  rw [List.append_eq_nil_iff, hnil]
  constructor
  · rintro ⟨hin, hanswered⟩
    exact ⟨hin, (unansweredMessages_eq_nil_iff (hafter hin) _).mp hanswered⟩
  · rintro ⟨hin, hanswered⟩
    exact ⟨hin, (unansweredMessages_eq_nil_iff (hafter hin) _).mpr hanswered⟩

theorem wellFormed_iff {steps : List (ScenarioStep ν)} :
    WellFormed catalog scenario steps ↔
      steps ≠ [] ∧ InOrderAfter catalog scenario [] steps ∧ ∀ request, ¬ Unanswered steps request := by
  constructor
  · intro h
    refine ⟨h.nonempty, fun earlier step after heq => ?_, h.answered⟩
    simpa using h.inOrder earlier step after heq
  · rintro ⟨hne, hin, hanswered⟩
    refine ⟨hne, fun earlier step after heq => ?_, hanswered⟩
    simpa using hin earlier step after heq

/-- A case gives no message exactly if its name and its description are not blank, its name is new and its steps are
well formed. -/
theorem validateCase_eq_nil_iff (hroles : OnePeerEach scenario) {earlier : List String} {case : ScenarioCase ν} :
    validateCase catalog scenario earlier case = [] ↔
      isBlank case.name = false ∧ isBlank case.description = false ∧ case.name ∉ earlier ∧
        WellFormed catalog scenario case.steps := by
  rw [validateCase, List.append_eq_nil_iff, List.map_eq_nil_iff, wellFormed_iff]
  simp only [List.append_eq_nil_iff, messageIf_eq_nil_iff]
  have hcontains : earlier.contains case.name = false ↔ case.name ∉ earlier := by simp
  rw [hcontains, ← trace_messages_eq_nil_iff hroles]
  by_cases hempty : case.steps = []
  · simp [hempty]
  · have hisEmpty : ¬ case.steps.isEmpty = true := by simpa using hempty
    rw [if_neg hisEmpty]
    constructor
    · rintro ⟨⟨⟨hname, hdescription⟩, hnew⟩, htrace⟩
      exact ⟨hname, hdescription, hnew, hempty, htrace⟩
    · rintro ⟨hname, hdescription, hnew, -, htrace⟩
      exact ⟨⟨⟨hname, hdescription⟩, hnew⟩, htrace⟩

/-- The issues about a case are reported. -/
theorem caseIssues_infix_validateCases {before after : List (ScenarioCase ν)} {case : ScenarioCase ν} :
    ∀ earlier : List String,
      caseIssues scenario case
          (validateCase catalog scenario ((before.map ScenarioCase.name).reverse ++ earlier) case) <:+:
        validateCases catalog scenario earlier (before ++ case :: after) := by
  induction before with
  | nil =>
    intro earlier
    exact (List.prefix_append _ _).isInfix
  | cons first before ih =>
    intro earlier
    have hrest := ih (first.name :: earlier)
    rw [List.map_cons, List.reverse_cons, List.append_assoc, List.singleton_append]
    exact hrest.trans (List.suffix_append _ _).isInfix

theorem validateCases_infix_validateScenariosFrom (hscenario : scenario ∈ scenarios) :
    ∀ earlier : List String,
      validateCases catalog scenario [] scenario.cases <:+: validateScenariosFrom catalog earlier scenarios := by
  induction scenarios with
  | nil => cases hscenario
  | cons first scenarios ih =>
    intro earlier
    rw [validateScenariosFrom]
    rcases List.mem_cons.mp hscenario with rfl | hrest
    · exact ⟨scenarioIssues scenario earlier, _, rfl⟩
    · exact (ih hrest _).trans (List.suffix_append _ _).isInfix

/-- For a case whose name is not blank and unique, of a scenario with one voice and one application peer, no issue is
reported exactly if the description of the case is not blank and its steps are a well-formed trace. -/
theorem case_accepted_iff {before after : List (ScenarioCase ν)} {case : ScenarioCase ν}
    (hscenario : scenario ∈ catalog.scenarios) (hcases : scenario.cases = before ++ case :: after)
    (hunique : (scenario.cases.map ScenarioCase.name).Nodup) (hname : isBlank case.name = false)
    (hroles : OnePeerEach scenario) :
    let issues := caseIssues scenario case
      (validateCase catalog scenario (before.map ScenarioCase.name).reverse case)
    issues <:+: validateScenarios catalog ∧
      (issues = [] ↔ isBlank case.description = false ∧ WellFormed catalog scenario case.steps) := by
  have hnew : case.name ∉ (before.map ScenarioCase.name).reverse := by
    rw [hcases, List.map_append, List.map_cons, List.nodup_middle, List.nodup_cons] at hunique
    rw [List.mem_reverse]
    exact fun hmem => hunique.1 (List.mem_append_left _ hmem)
  constructor
  · have hinfix : caseIssues scenario case
        (validateCase catalog scenario ((before.map ScenarioCase.name).reverse ++ []) case) <:+:
          validateCases catalog scenario [] (before ++ case :: after) := caseIssues_infix_validateCases []
    rw [List.append_nil, ← hcases] at hinfix
    exact hinfix.trans (validateCases_infix_validateScenariosFrom hscenario [])
  · rw [caseIssues, List.map_eq_nil_iff, validateCase_eq_nil_iff hroles]
    constructor
    · rintro ⟨-, hdescription, -, htrace⟩
      exact ⟨hdescription, htrace⟩
    · rintro ⟨hdescription, htrace⟩
      exact ⟨hname, hdescription, hnew, htrace⟩

/-- A case with one request that is answered, an event and a request that is rejected. -/
theorem case_accepted_talk :
    let issues := caseIssues (talkScenario "a talk") (talkCase "a talk")
      (validateCase (talkCatalog "a talk") (talkScenario "a talk")
        (([] : List (ScenarioCase Nat)).map ScenarioCase.name).reverse (talkCase "a talk"))
    issues <:+: validateScenarios (talkCatalog "a talk") ∧
      (issues = [] ↔ isBlank "a talk" = false ∧
        WellFormed (talkCatalog "a talk") (talkScenario "a talk") (talkCase "a talk").steps) :=
  case_accepted_iff List.mem_cons_self rfl (by decide) (by decide) (talk_peers "a talk")

/-- The same trace in a case with a blank description is reported. -/
theorem blank_description_rejected :
    WellFormed (talkCatalog " ") (talkScenario " ") (talkCase " ").steps ∧
      OnePeerEach (talkScenario " ") ∧ isBlank (talkScenario " ").name = false ∧ isBlank (talkCase " ").name = false ∧
      CatalogValidationError.invalidScenario "talk" "talk" 0 "case description must not be empty" ∈
        validateScenarios (talkCatalog " ") := by
  have htrace : InOrderAfter (talkCatalog " ") (talkScenario " ") [] (talkCase " ").steps ∧
      ∀ request, ¬ Unanswered (talkCase " ").steps request :=
    (trace_messages_eq_nil_iff (talk_peers " ") _).mp (by decide)
  refine ⟨wellFormed_iff.2 ⟨by simp [talkCase], htrace⟩, talk_peers " ", by decide, by decide, ?_⟩
  exact List.mem_singleton_self _

/-! ## Catalogs -/

/-- The cases give no issue exactly if their names are new and each is a well-formed trace. -/
theorem validateCases_eq_nil_iff (hroles : OnePeerEach scenario) {cases : List (ScenarioCase ν)} :
    ∀ earlier : List String,
      validateCases catalog scenario earlier cases = [] ↔
        (cases.map ScenarioCase.name).Nodup ∧ ∀ case ∈ cases, case.name ∉ earlier ∧ isBlank case.name = false ∧
          isBlank case.description = false ∧ WellFormed catalog scenario case.steps := by
  induction cases with
  | nil => simp [validateCases]
  | cons case cases ih =>
    intro earlier
    have hcase : caseIssues scenario case (validateCase catalog scenario earlier case) = [] ↔
        case.name ∉ earlier ∧ isBlank case.name = false ∧ isBlank case.description = false ∧
          WellFormed catalog scenario case.steps := by
      rw [caseIssues, List.map_eq_nil_iff, validateCase_eq_nil_iff hroles]
      constructor
      · rintro ⟨hname, hdescription, hnew, htrace⟩
        exact ⟨hnew, hname, hdescription, htrace⟩
      · rintro ⟨hnew, hname, hdescription, htrace⟩
        exact ⟨hname, hdescription, hnew, htrace⟩
    rw [validateCases, List.append_eq_nil_iff, hcase, ih]
    exact new_names_cons (P := fun case : ScenarioCase ν => isBlank case.name = false ∧ isBlank case.description = false ∧
      WellFormed catalog scenario case.steps)

/-- A scenario gives no issue exactly if its name is new and it is well formed. -/
theorem scenario_eq_nil_iff {earlier : List String} :
    scenarioIssues scenario earlier ++ validateCases catalog scenario [] scenario.cases = [] ↔
      scenario.name ∉ earlier ∧ WellFormedScenario catalog scenario := by
  have hpeers : hasConcretePeers scenario = true ↔ OnePeerEach scenario := hasConcretePeers_iff
  rw [List.append_eq_nil_iff, scenarioIssues]
  constructor
  · rintro ⟨hissues, hcases⟩
    simp only [List.append_eq_nil_iff, ite_eq_right_iff, ite_eq_left_iff, imp_false, List.cons_ne_nil,
      Bool.not_eq_true, List.contains_eq_mem, decide_eq_false_iff_not] at hissues
    obtain ⟨⟨⟨⟨hname, hdescription⟩, hnew⟩, hconcrete⟩, hnonempty⟩ := hissues
    have hroles : OnePeerEach scenario := hpeers.mp (by simpa using hconcrete)
    obtain ⟨hunique, hall⟩ := (validateCases_eq_nil_iff hroles []).mp hcases
    exact ⟨by simpa using hnew, hname, hdescription, hroles, by simpa using hnonempty, hunique,
      fun case hcase => (hall case hcase).2⟩
  · rintro ⟨hnew, h⟩
    have hnonempty : scenario.cases.isEmpty = false := by simpa using h.nonempty
    refine ⟨?_, (validateCases_eq_nil_iff h.peers []).mpr ⟨h.unique, fun case hcase => ⟨by simp, h.cases case hcase⟩⟩⟩
    simp [h.name, h.description, hnew, hpeers.mpr h.peers, hnonempty]

theorem validateScenariosFrom_eq_nil_iff :
    ∀ earlier : List String, validateScenariosFrom catalog earlier scenarios = [] ↔
      (scenarios.map Scenario.name).Nodup ∧
        ∀ scenario ∈ scenarios, scenario.name ∉ earlier ∧ WellFormedScenario catalog scenario := by
  induction scenarios with
  | nil => simp [validateScenariosFrom]
  | cons first scenarios ih =>
    intro earlier
    rw [validateScenariosFrom, List.append_eq_nil_iff, scenario_eq_nil_iff, ih]
    exact new_names_cons

/-- The scenarios give no issue exactly if their names are unique and each is well formed. -/
theorem validateScenarios_eq_nil_iff :
    validateScenarios catalog = [] ↔
      (catalog.scenarios.map Scenario.name).Nodup ∧
        ∀ scenario ∈ catalog.scenarios, WellFormedScenario catalog scenario := by
  rw [validateScenarios, validateScenariosFrom_eq_nil_iff]
  simp

end Messages

end Rtvbp.Spec
