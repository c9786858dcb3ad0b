import Rtvbp.Spec.Validate
import Rtvbp.Spec.Proofs.ScenarioProofs

/-!
# Proofs: validated catalogs

Each check of the catalog validator against what it asks for: the keywords of one object of a schema, the objects of a
schema, and then the loops, which accept exactly the items that are in order and whose names are new.
-/

namespace Rtvbp.Spec

open Rtvbp.Lib

variable {ν : Type}

/-! ## The keywords of an object -/

section Keywords

variable {schema properties : List (String × Json)} {required : List String}

theorem asU64_isSome_iff {v : Json} : v.asU64.isSome = true ↔ ∃ n : Nat, n < 2 ^ 64 ∧ v = .number (.int n) := by
  cases v with
  | number n =>
    cases n with
    | int n =>
      simp only [Json.asU64]
      split_ifs with h
      · refine ⟨fun _ => ⟨n.toNat, by omega, by rw [Int.toNat_of_nonneg h.1]⟩, fun _ => rfl⟩
      · refine ⟨fun hsome => absurd hsome Bool.false_ne_true, ?_⟩
        rintro ⟨m, hm, heq⟩
        obtain rfl : n = m := by simpa using heq
        omega
    | float bits => simp [Json.asU64]
  | _ => simp [Json.asU64]

theorem isNumber_iff {v : Json} : v.isNumber = true ↔ ∃ n, v = .number n := by
  cases v <;> simp [Json.isNumber]

theorem isTrue_iff_eq {v : Json} : v.isTrue = true ↔ v = .bool true := by
  cases v <;> simp [Json.isTrue]

theorem orderedFieldMessages_eq_nil_iff {bound field : String} :
    orderedFieldMessages properties required bound field = [] ↔ OrderedField properties required field := by
  unfold orderedFieldMessages
  cases hfield : (properties.lookup field).bind Json.asObject with
  | none =>
    refine ⟨fun h => absurd h (List.cons_ne_nil _ _), fun h => ?_⟩
    obtain ⟨schema, hschema, -⟩ := h.integer
    rw [hschema] at hfield
    cases hfield
  | some schema =>
    obtain ⟨v, hv, hobject⟩ := Option.bind_eq_some_iff.mp hfield
    obtain rfl : v = .object schema := by cases v <;> simp_all [Json.asObject]
    simp only [List.append_eq_nil_iff, messageIf_eq_nil_iff, Bool.not_eq_false', List.contains_eq_mem, decide_eq_true_eq]
    constructor
    · rintro ⟨hinteger, hrequired⟩
      exact ⟨⟨schema, hv, hinteger⟩, hrequired⟩
    · rintro ⟨⟨schema', hv', hinteger⟩, hrequired⟩
      obtain rfl : schema' = schema := by simpa [hv] using hv'.symm
      exact ⟨hinteger, hrequired⟩

/-- Two of the fields of an object with two fields are all of them. -/
theorem lookup_of_two {fields : List (String × Json)} {lower upper : Json} (hlength : fields.length = 2)
    (hlower : ("lower", lower) ∈ fields) (hupper : ("upper", upper) ∈ fields) :
    fields.lookup "lower" = some lower ∧ fields.lookup "upper" = some upper := by
  match fields, hlength with
  | [first, second], _ =>
    have hne : ("lower" : String) ≠ "upper" := by decide
    rcases List.mem_pair.mp hlower with rfl | rfl <;> rcases List.mem_pair.mp hupper with heq | heq
    · exact absurd (congrArg Prod.fst heq).symm hne
    · subst heq
      exact ⟨rfl, rfl⟩
    · subst heq
      exact ⟨rfl, rfl⟩
    · exact absurd (congrArg Prod.fst heq).symm hne

theorem orderEntryMessages_eq_nil_iff {entry : Json} :
    orderEntryMessages properties required entry = [] ↔ OrderEntry properties required entry := by
  unfold orderEntryMessages
  constructor
  · intro h
    cases hentry : entry.asObject with
    | none => simp [hentry] at h
    | some fields =>
      obtain rfl : entry = .object fields := by cases entry <;> simp_all [Json.asObject]
      simp only [Json.asObject] at h
      split at h
      · cases h
      next hshape =>
      simp only [Bool.or_eq_true, decide_eq_true_eq, Option.isNone_iff_eq_none, not_or, ne_eq, not_not] at hshape
      split at h
      · next lower upper hlower hupper =>
        obtain ⟨l, hl, hlstr⟩ := Option.bind_eq_some_iff.mp hlower
        obtain ⟨u, hu, hustr⟩ := Option.bind_eq_some_iff.mp hupper
        obtain rfl : l = .string lower := by cases l <;> simp_all [Json.asStr]
        obtain rfl : u = .string upper := by cases u <;> simp_all [Json.asStr]
        simp only [List.append_eq_nil_iff, orderedFieldMessages_eq_nil_iff, messageIf_eq_nil_iff,
          decide_eq_false_iff_not] at h
        exact ⟨fields, lower, upper, rfl, hshape.1.1, mem_of_lookup_eq_some hl, mem_of_lookup_eq_some hu, h.1.1,
          h.1.2, h.2⟩
      · cases h
  · rintro ⟨fields, lower, upper, rfl, hlength, hlower, hupper, hlowerField, hupperField, hne⟩
    obtain ⟨hl, hu⟩ := lookup_of_two hlength hlower hupper
    simp [Json.asObject, Json.asStr, hlength, hl, hu, orderedFieldMessages_eq_nil_iff.2 hlowerField,
      orderedFieldMessages_eq_nil_iff.2 hupperField, messageIf, hne]

theorem validateFieldOrder_eq_nil_iff {v : Json} :
    validateFieldOrder schema v = [] ↔
      schemaAcceptsType schema "object" = true ∧ ∃ entries properties, v = .array entries ∧ entries ≠ [] ∧
        schema.lookup "properties" = some (.object properties) ∧
        ∀ entry ∈ entries, OrderEntry properties (requiredNames schema) entry := by
  unfold validateFieldOrder
  cases hobject : schemaAcceptsType schema "object" with
  | false => simp
  | true =>
    simp only [Bool.not_true, Bool.false_eq_true, if_false, true_and]
    constructor
    · intro h
      split at h
      · next first rest hv =>
        obtain rfl : v = .array (first :: rest) := by cases v <;> simp_all [Json.asArray]
        split at h
        · cases h
        · next properties hproperties =>
          obtain ⟨p, hp, hobject⟩ := Option.bind_eq_some_iff.mp hproperties
          obtain rfl : p = .object properties := by cases p <;> simp_all [Json.asObject]
          exact ⟨_, properties, rfl, List.cons_ne_nil _ _, hp, fun entry hentry =>
            orderEntryMessages_eq_nil_iff.1 (List.flatMap_eq_nil_iff.mp h entry hentry)⟩
      · cases h
    · rintro ⟨entries, properties, rfl, hne, hproperties, hall⟩
      obtain ⟨first, rest, rfl⟩ := List.exists_cons_of_ne_nil hne
      simp only [Json.asArray, hproperties, Option.bind_some, Json.asObject]
      exact List.flatMap_eq_nil_iff.mpr fun entry hentry => orderEntryMessages_eq_nil_iff.2 (hall entry hentry)

theorem schemaNodeMessages_eq_nil_iff : schemaNodeMessages schema = [] ↔ KeywordsValid schema := by
  simp only [schemaNodeMessages, List.append_eq_nil_iff]
  constructor
  · rintro ⟨⟨⟨hlength, hminimum⟩, hnonzero⟩, horder⟩
    refine ⟨fun v hv => ?_, fun v hv => ?_, fun v hv => ?_, fun v hv => ?_⟩
    · simpa [hv, messageIf_eq_nil_iff, asU64_isSome_iff] using hlength
    · simpa [hv, messageIf_eq_nil_iff, isNumber_iff, or_iff_not_imp_left] using hminimum
    · simpa [hv, messageIf_eq_nil_iff, isTrue_iff_eq] using hnonzero
    · rw [hv] at horder
      exact validateFieldOrder_eq_nil_iff.1 horder
  · intro h
    refine ⟨⟨⟨?_, ?_⟩, ?_⟩, ?_⟩
    · cases hv : schema.lookup "minLength" with
      | none => rfl
      | some v => simpa [messageIf_eq_nil_iff, asU64_isSome_iff] using h.minLength v hv
    · cases hv : schema.lookup "minimum" with
      | none => rfl
      | some v => simpa [messageIf_eq_nil_iff, isNumber_iff, or_iff_not_imp_left] using h.minimum v hv
    · cases hv : schema.lookup "x-rtvbp-nonzero" with
      | none => rfl
      | some v => simpa [messageIf_eq_nil_iff, isTrue_iff_eq] using h.nonzero v hv
    · cases hv : schema.lookup "x-rtvbp-field-order" with
      | none => rfl
      | some v => exact validateFieldOrder_eq_nil_iff.2 (h.fieldOrder v hv)

end Keywords

/-! ## The objects of a schema -/

/-- The objects of the value of a field: those of the items of an array, and else those of the value. -/
def FieldValid : Json → Prop
  | .array items => ∀ item ∈ items, SchemaValid item
  | v => SchemaValid v

theorem schemaValid_of_not_object {v : Json} (h : ∀ fields, v ≠ .object fields) : SchemaValid v := by
  intro fields hhas
  cases hhas with
  | self => exact absurd rfl (h _)
  | field => exact absurd rfl (h _)
  | item => exact absurd rfl (h _)

theorem schemaValid_object_iff {fields : List (String × Json)} :
    SchemaValid (.object fields) ↔ KeywordsValid fields ∧ ∀ field ∈ fields, FieldValid field.2 := by
  constructor
  · intro h
    refine ⟨h fields .self, fun field hfield => ?_⟩
    rcases field with ⟨key, v⟩
    cases v with
    | object inner => exact fun _ hhas => h _ (.field hfield hhas)
    | array items =>
      intro item hitem
      cases item with
      | object inner => exact fun _ hhas => h _ (.item hfield hitem hhas)
      | _ => exact schemaValid_of_not_object (by simp)
    | _ => exact schemaValid_of_not_object (by simp)
  · rintro ⟨hkeywords, hfields⟩ inner hhas
    cases hhas with
    | self => exact hkeywords
    | field hmem hhas => exact hfields _ hmem _ hhas
    | item hmem hitem hhas => exact hfields _ hmem _ hitem _ hhas

mutual

theorem validateSchemaNode_eq_nil_iff (location : String) :
    (v : Json) → (validateSchemaNode location v = [] ↔ SchemaValid v)
  | .object fields => by
    rw [validateSchemaNode, List.append_eq_nil_iff, List.map_eq_nil_iff, schemaNodeMessages_eq_nil_iff,
      validateSchemaFields_eq_nil_iff location fields, schemaValid_object_iff]
  | .null => iff_of_true rfl (schemaValid_of_not_object (by simp))
  | .bool _ => iff_of_true rfl (schemaValid_of_not_object (by simp))
  | .number _ => iff_of_true rfl (schemaValid_of_not_object (by simp))
  | .string _ => iff_of_true rfl (schemaValid_of_not_object (by simp))
  | .array _ => iff_of_true rfl (schemaValid_of_not_object (by simp))

theorem validateSchemaFields_eq_nil_iff (location : String) :
    (fields : List (String × Json)) →
      (validateSchemaFields location fields = [] ↔ ∀ field ∈ fields, FieldValid field.2)
  | [] => by simp [validateSchemaFields]
  | (key, .array items) :: fields => by
    rw [validateSchemaFields, List.append_eq_nil_iff, List.forall_mem_cons,
      validateSchemaItems_eq_nil_iff s!"{location}.{key}" 0 items, validateSchemaFields_eq_nil_iff location fields]
    rfl
  | (key, .object inner) :: fields => by
    rw [validateSchemaFields, List.append_eq_nil_iff, List.forall_mem_cons,
      validateSchemaNode_eq_nil_iff s!"{location}.{key}" (.object inner), validateSchemaFields_eq_nil_iff location fields]
    · rfl
    · simp
  | (key, .null) :: fields => by
    rw [List.forall_mem_cons, ← validateSchemaFields_eq_nil_iff location fields]
    exact ⟨fun h => ⟨schemaValid_of_not_object (by simp), h⟩, fun h => h.2⟩
  | (key, .bool _) :: fields => by
    rw [List.forall_mem_cons, ← validateSchemaFields_eq_nil_iff location fields]
    exact ⟨fun h => ⟨schemaValid_of_not_object (by simp), h⟩, fun h => h.2⟩
  | (key, .number _) :: fields => by
    rw [List.forall_mem_cons, ← validateSchemaFields_eq_nil_iff location fields]
    exact ⟨fun h => ⟨schemaValid_of_not_object (by simp), h⟩, fun h => h.2⟩
  | (key, .string _) :: fields => by
    rw [List.forall_mem_cons, ← validateSchemaFields_eq_nil_iff location fields]
    exact ⟨fun h => ⟨schemaValid_of_not_object (by simp), h⟩, fun h => h.2⟩

theorem validateSchemaItems_eq_nil_iff (location : String) (index : Nat) :
    (items : List Json) → (validateSchemaItems location index items = [] ↔ ∀ item ∈ items, SchemaValid item)
  | [] => by simp [validateSchemaItems]
  | item :: items => by
    rw [validateSchemaItems, List.append_eq_nil_iff, List.forall_mem_cons,
      validateSchemaNode_eq_nil_iff s!"{location}[{index}]" item, validateSchemaItems_eq_nil_iff location (index + 1) items]

end

theorem validateSchemaRules_eq_nil_iff {payload : TypeRef Json ν} :
    validateSchemaRules payload = [] ↔ SchemaValid payload.schema := by
  rw [validateSchemaRules, List.map_eq_nil_iff, validateSchemaNode_eq_nil_iff]

/-! ## Metadata and rejections -/

/-- The names of the examples are accepted exactly if they are new and none is blank. -/
theorem exampleNameIssues_eq_nil_iff {kind : CatalogItemKind} {name : String} {names : List String} :
    ∀ seen : List String, exampleNameIssues (ν := ν) kind name seen names = [] ↔
      names.Nodup ∧ ∀ exampleName ∈ names, exampleName ∉ seen ∧ isBlank exampleName = false := by
  induction names with
  | nil => simp [exampleNameIssues]
  | cons exampleName names ih =>
    intro seen
    have hcons := @new_names_cons _ _ id (fun name => isBlank name = false) seen exampleName names
    simp only [id_eq, List.map_id_fun] at hcons
    rw [← hcons, ← ih, exampleNameIssues]
    split_ifs with hblank hseen
    · simp [hblank]
    · simp [List.contains_iff_mem.mp hseen]
    · have hnew : exampleName ∉ seen := fun hmem => hseen (List.contains_iff_mem.mpr hmem)
      simp [hblank, hnew]

theorem validateItemMetadata_eq_nil_iff {kind : CatalogItemKind} {name : String} {docs : Option String}
    {exampleNames : List String} :
    validateItemMetadata (ν := ν) kind name docs exampleNames = [] ↔ Documented docs exampleNames := by
  simp only [validateItemMetadata, List.append_eq_nil_iff, exampleNameIssues_eq_nil_iff, ite_eq_right_iff,
    List.cons_ne_nil, imp_false]
  constructor
  · rintro ⟨⟨hdocs, hunique, hnames⟩, hne⟩
    refine ⟨?_, by simpa using hne, fun name hname => (hnames name hname).2, hunique⟩
    cases docs with
    | none => simp at hdocs
    | some text => exact ⟨text, rfl, by simpa using hdocs⟩
  · intro h
    obtain ⟨text, rfl, htext⟩ := h.docs
    exact ⟨⟨by simp [htext], h.unique, fun name hname => ⟨by simp, h.names name hname⟩⟩, by simpa using h.nonempty⟩

/-- A rejection is concrete, of a role that does not handle the operation, and a proper error. -/
def RejectionValid (handledBy : Option Role) (rejection : OperationRejection) : Prop :=
  rejection.role ≠ .both ∧ (handledBy ≠ some .both ∧ handledBy ≠ some rejection.role) ∧
    rejection.code ≠ 0 ∧ isBlank rejection.message = false

theorem rejectionIssues_eq_nil_iff {method : String} {handledBy : Option Role} {rejections : List OperationRejection} :
    ∀ seen : List Role, rejectionIssues (ν := ν) method handledBy seen rejections = [] ↔
      (rejections.map OperationRejection.role).Nodup ∧
        ∀ rejection ∈ rejections, rejection.role ∉ seen ∧ RejectionValid handledBy rejection := by
  induction rejections with
  | nil => simp [rejectionIssues]
  | cons rejection rejections ih =>
    intro seen
    rw [← new_names_cons, ← ih]
    conv_lhs => unfold rejectionIssues
    by_cases hboth : rejection.role = .both
    · simp [RejectionValid, hboth]
    · rw [if_neg hboth]
      cases handledBy <;>
        simp [RejectionValid, hboth, not_or, and_assoc, List.append_eq_nil_iff]

theorem validateOperationRejections_eq_nil_iff {operation : Operation Json ν} :
    validateOperationRejections operation = [] ↔ RejectionsValid operation.handledBy operation.rejections := by
  rw [validateOperationRejections, rejectionIssues_eq_nil_iff]
  constructor
  · rintro ⟨hunique, hall⟩
    exact ⟨fun rejection h => (hall rejection h).2.1, fun rejection h => (hall rejection h).2.2.1,
      fun rejection h => (hall rejection h).2.2.2, hunique⟩
  · intro h
    exact ⟨h.unique, fun rejection hmem => ⟨by simp, h.concrete rejection hmem, h.unhandled rejection hmem,
      h.errors rejection hmem⟩⟩

/-! ## Operations, events and fixtures -/

section Values

variable [BEq ν]

theorem validateExampleValue_eq_nil_iff {kind : CatalogItemKind} {name exampleName : String} {side : ExampleSide}
    {payload : TypeRef Json ν} {value : ν} :
    validateExampleValue kind name exampleName side payload value = [] ↔ Survives payload value := by
  unfold validateExampleValue Survives
  cases payload.roundTrip value with
  | ok actual => simp [bne]
  | error source => simp

theorem operationIssues_eq_nil_iff {seen : List String} {operation : Operation Json ν} :
    operationIssues seen operation = [] ↔ operation.method ∉ seen ∧ operation.WellFormed := by
  simp only [operationIssues, List.append_eq_nil_iff, validateItemMetadata_eq_nil_iff, validateSchemaRules_eq_nil_iff,
    validateOperationRejections_eq_nil_iff, List.flatMap_eq_nil_iff, validateExampleValue_eq_nil_iff, ite_eq_right_iff,
    List.cons_ne_nil, imp_false, List.contains_iff_mem, Option.isNone_iff_eq_none, List.isPrefixOf_iff_prefix]
  constructor
  · rintro ⟨⟨⟨⟨⟨⟨⟨hhandled, hunreserved⟩, hseen⟩, hdocumented⟩, hrequest⟩, hresponse⟩, hrejections⟩, hexamples⟩
    exact ⟨hseen, hhandled, hunreserved, hdocumented, hrequest, hresponse, hrejections, hexamples⟩
  · rintro ⟨hseen, h⟩
    exact ⟨⟨⟨⟨⟨⟨⟨h.handled, h.unreserved⟩, hseen⟩, h.documented⟩, h.request⟩, h.response⟩, h.rejections⟩, h.examples⟩

theorem validateOperations_eq_nil_iff {operations : List (Operation Json ν)} :
    ∀ seen : List String, validateOperations seen operations = [] ↔ (operations.map Operation.method).Nodup ∧
      ∀ operation ∈ operations, operation.method ∉ seen ∧ operation.WellFormed := by
  induction operations with
  | nil => simp [validateOperations]
  | cons operation operations ih =>
    intro seen
    rw [validateOperations, List.append_eq_nil_iff, operationIssues_eq_nil_iff, ih]
    exact new_names_cons

theorem eventIssues_eq_nil_iff {seen : List String} {event : Event Json ν} :
    eventIssues seen event = [] ↔ event.name ∉ seen ∧ event.WellFormed := by
  simp only [eventIssues, List.append_eq_nil_iff, validateItemMetadata_eq_nil_iff, validateSchemaRules_eq_nil_iff,
    List.flatMap_eq_nil_iff, validateExampleValue_eq_nil_iff, ite_eq_right_iff, List.cons_ne_nil, imp_false,
    List.contains_iff_mem, Option.isNone_iff_eq_none]
  constructor
  · rintro ⟨⟨⟨⟨hemitted, hseen⟩, hdocumented⟩, hdata⟩, hexamples⟩
    exact ⟨hseen, hemitted, hdocumented, hdata, hexamples⟩
  · rintro ⟨hseen, h⟩
    exact ⟨⟨⟨⟨h.emitted, hseen⟩, h.documented⟩, h.data⟩, h.examples⟩

theorem validateEvents_eq_nil_iff {events : List (Event Json ν)} :
    ∀ seen : List String, validateEvents seen events = [] ↔ (events.map Event.name).Nodup ∧
      ∀ event ∈ events, event.name ∉ seen ∧ event.WellFormed := by
  induction events with
  | nil => simp [validateEvents]
  | cons event events ih =>
    intro seen
    rw [validateEvents, List.append_eq_nil_iff, eventIssues_eq_nil_iff, ih]
    exact new_names_cons

variable {catalog : Catalog Json ν}

omit [BEq ν] in
theorem validateFixtures_eq_nil_iff {fixtures : List CatalogFixture} :
    ∀ seen : List String, validateFixtures catalog seen fixtures = [] ↔ (fixtures.map CatalogFixture.path).Nodup ∧
      ∀ fixture ∈ fixtures, fixture.path ∉ seen ∧ fixture.WellFormed catalog := by
  induction fixtures with
  | nil => simp [validateFixtures]
  | cons fixture fixtures ih =>
    intro seen
    rw [validateFixtures, List.append_eq_nil_iff, ih, ← new_names_cons]
    refine and_congr_left fun _ => ?_
    rw [List.append_eq_nil_iff, List.append_eq_nil_iff]
    have hpath : ((if isConfined fixture.path then ([] : List (CatalogValidationError ν))
        else [.invalidFixturePath fixture.path]) = [] ∧
        (if seen.contains fixture.path then [CatalogValidationError.duplicateFixturePath (ν := ν) fixture.path] else []) =
          []) ↔ isConfined fixture.path = true ∧ fixture.path ∉ seen := by
      simp
    rw [hpath]
    constructor
    · rintro ⟨⟨hconfined, hseen⟩, htarget⟩
      refine ⟨hseen, hconfined, ?_⟩
      split at htarget
      · cases htarget
      · next payload hpayload =>
        split at htarget
        · next actual hactual =>
          obtain rfl : actual = fixture.bytes := by simpa using htarget
          exact ⟨payload, hpayload, hactual⟩
        · cases htarget
    · rintro ⟨hseen, hconfined, payload, hpayload, hbytes⟩
      exact ⟨⟨hconfined, hseen⟩, by simp [hpayload, hbytes]⟩

/-- The catalog validator accepts exactly the well-formed catalogs. -/
theorem Catalog.validate_eq_ok_iff : catalog.validate = .ok () ↔ catalog.WellFormed := by
  have hissues : catalog.issues = [] ↔ catalog.WellFormed := by
    simp only [Catalog.issues, List.append_eq_nil_iff, validateOperations_eq_nil_iff, validateEvents_eq_nil_iff,
      validateFixtures_eq_nil_iff, validateScenarios_eq_nil_iff, List.not_mem_nil, not_false_eq_true, true_and]
    constructor
    · rintro ⟨⟨⟨⟨hmethods, hoperations⟩, hnames, hevents⟩, hpaths, hfixtures⟩, hscenarioNames, hscenarios⟩
      exact ⟨hmethods, hoperations, hnames, hevents, hpaths, hfixtures, hscenarioNames, hscenarios⟩
    · intro h
      exact ⟨⟨⟨⟨h.methods, h.operations⟩, h.names, h.events⟩, h.paths, h.fixtures⟩, h.scenarioNames, h.scenarios⟩
  rw [← hissues, Catalog.validate]
  split_ifs with hempty
  · simpa using hempty
  · simpa using hempty

end Values

end Rtvbp.Spec
