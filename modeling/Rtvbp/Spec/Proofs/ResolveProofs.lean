import Rtvbp.Spec.Rules
import Rtvbp.Lib.Registry
import Rtvbp.Lib.Reorder
import Mathlib.Tactic

/-!
# Proofs: resolved catalogs

Resolving is registering the schemas of all payload types, one entry after the other, beside what it reads of the
single operations, events and fixtures. Each schema of the table is, up to references, one that the catalog validator
has visited, so that the keywords in it are well formed; and the payload types of the operations and events are in it.
-/

namespace Rtvbp.Spec

variable {ν : Type}

/-! ## Validated schemas -/

/-- The keywords of a schema that other code relies on: every `minLength` of a property is a natural number, and the
two fields of an order are different. -/
structure RulesChecked (schema : Json) : Prop where
  minLength : ∀ properties field rule minLength, schema.get "properties" = some (.object properties) →
    (field, rule) ∈ properties → rule.get "minLength" = some minLength → ∃ n, minLength.asU64 = some n
  fieldOrder : ∀ entries entry lower upper, schema.get "x-rtvbp-field-order" = some (.array entries) →
    entry ∈ entries → (entry.get "lower").bind Json.asStr = some lower →
    (entry.get "upper").bind Json.asStr = some upper → lower ≠ upper

/-- The validator has visited the schema and found nothing. -/
def Visited (schema : Json) : Prop := ∃ location, validateSchemaNode location schema = []

theorem validateSchemaFields_mem {fields : List (String × Json)} {field : String × Json} {location : String}
    (h : validateSchemaFields location fields = []) (hmem : field ∈ fields) : Visited field.2 := by
  induction fields with
  | nil => cases hmem
  | cons first fields ih =>
    rcases first with ⟨key, value⟩
    have hfields : validateSchemaFields location fields = [] := by
      cases value <;> exact (List.append_eq_nil_iff.mp h).2
    rcases List.mem_cons.mp hmem with rfl | hmem
    · cases value with
      | object fields => exact ⟨_, (List.append_eq_nil_iff.mp h).1⟩
      | array items => exact ⟨location, rfl⟩
      | null => exact ⟨location, rfl⟩
      | bool b => exact ⟨location, rfl⟩
      | number n => exact ⟨location, rfl⟩
      | string s => exact ⟨location, rfl⟩
    · exact ih hfields hmem

/-- A validated object has valid keywords, and its fields are validated. -/
theorem Visited.object {fields : List (String × Json)} (h : Visited (.object fields)) :
    schemaNodeMessages fields = [] ∧ ∀ field ∈ fields, Visited field.2 := by
  obtain ⟨location, h⟩ := h
  rw [validateSchemaNode, List.append_eq_nil_iff, List.map_eq_nil_iff] at h
  exact ⟨h.1, fun field hmem => validateSchemaFields_mem h.2 hmem⟩

theorem get_eq_some {v w : Json} {name : String} (h : v.get name = some w) :
    ∃ fields, v = .object fields ∧ fields.lookup name = some w := by
  cases v with
  | object fields => exact ⟨fields, rfl, h⟩
  | null => cases h
  | bool b => cases h
  | number n => cases h
  | string s => cases h
  | array items => cases h

theorem Visited.get {v w : Json} {name : String} (h : Visited v) (hget : v.get name = some w) : Visited w := by
  obtain ⟨fields, rfl, hlookup⟩ := get_eq_some hget
  exact h.object.2 _ (Lib.mem_of_lookup_eq_some hlookup)

theorem Visited.minLength {rule minLength : Json} (h : Visited rule) (hget : rule.get "minLength" = some minLength) :
    ∃ n, minLength.asU64 = some n := by
  obtain ⟨fields, rfl, hlookup⟩ := get_eq_some hget
  have hmessages := h.object.1
  rw [schemaNodeMessages, hlookup] at hmessages
  have hnone := (List.append_eq_nil_iff.mp (List.append_eq_nil_iff.mp (List.append_eq_nil_iff.mp
    (List.append_eq_nil_iff.mp hmessages).1).1).1).1
  exact Option.isSome_iff_exists.mp (by simpa using messageIf_eq_nil_iff.1 hnone)

/-- What the validator asks of an entry of an order. -/
theorem orderEntryMessages_ne {properties : List (String × Json)} {required : List String} {entry : Json}
    {lower upper : String} (h : orderEntryMessages properties required entry = [])
    (hlower : (entry.get "lower").bind Json.asStr = some lower)
    (hupper : (entry.get "upper").bind Json.asStr = some upper) : lower ≠ upper := by
  cases entry with
  | object fields =>
    have hlower' : (fields.lookup "lower").bind Json.asStr = some lower := hlower
    have hupper' : (fields.lookup "upper").bind Json.asStr = some upper := hupper
    simp only [orderEntryMessages, Json.asObject] at h
    split at h
    · cases h
    · rw [hlower', hupper'] at h
      have hdifferent := messageIf_eq_nil_iff.1 (List.append_eq_nil_iff.mp h).2
      exact of_decide_eq_false hdifferent
  | null => cases hlower
  | bool b => cases hlower
  | number n => cases hlower
  | string s => cases hlower
  | array items => cases hlower

theorem Visited.fieldOrder {schema entry : Json} {entries : List Json} {lower upper : String} (h : Visited schema)
    (hget : schema.get "x-rtvbp-field-order" = some (.array entries)) (hmem : entry ∈ entries)
    (hlower : (entry.get "lower").bind Json.asStr = some lower)
    (hupper : (entry.get "upper").bind Json.asStr = some upper) : lower ≠ upper := by
  obtain ⟨fields, rfl, hlookup⟩ := get_eq_some hget
  have hmessages := h.object.1
  rw [schemaNodeMessages, hlookup] at hmessages
  have horder : validateFieldOrder fields (.array entries) = [] := (List.append_eq_nil_iff.mp hmessages).2
  rw [validateFieldOrder] at horder
  split at horder
  · cases horder
  · cases entries with
    | nil => cases hmem
    | cons first rest =>
      simp only [Json.asArray] at horder
      split at horder
      · cases horder
      · exact orderEntryMessages_ne (List.flatMap_eq_nil_iff.mp horder entry hmem) hlower hupper

/-- A validated schema has checked rules. -/
theorem Visited.rulesChecked {schema : Json} (h : Visited schema) : RulesChecked schema where
  minLength _ _ _ _ hproperties hmem hget := ((h.get hproperties).object.2 _ hmem).minLength hget
  fieldOrder _ _ _ _ hget hmem hlower hupper := h.fieldOrder hget hmem hlower hupper

/-! ## Rewritten schemas -/

theorem rewriteFields_eq_map (fields : List (String × Json)) :
    rewriteFields fields = fields.map fun field =>
      (field.1,
        if field.1 = "$ref" then rewriteReference (rewriteLocalRefs field.2) else rewriteLocalRefs field.2) := by
  induction fields with
  | nil => rfl
  | cons field fields ih => rw [rewriteFields, ih, List.map_cons]

theorem rewriteItems_eq_map (items : List Json) : rewriteItems items = items.map rewriteLocalRefs := by
  induction items with
  | nil => rfl
  | cons v items ih => rw [rewriteItems, ih, List.map_cons]

theorem lookup_rewriteFields {name : String} (hname : name ≠ "$ref") (fields : List (String × Json)) :
    (rewriteFields fields).lookup name = (fields.lookup name).map rewriteLocalRefs := by
  induction fields with
  | nil => rfl
  | cons field fields ih =>
    rcases field with ⟨key, v⟩
    rw [rewriteFields, List.lookup_cons, List.lookup_cons, ih]
    by_cases hkey : name = key
    · subst hkey
      simp [hname]
    · have hfalse : (name == key) = false := by simpa using hkey
      rw [hfalse]

/-- A keyword of a rewritten schema is that of the schema, rewritten. -/
theorem get_rewriteLocalRefs {name : String} (hname : name ≠ "$ref") (v : Json) :
    (rewriteLocalRefs v).get name = (v.get name).map rewriteLocalRefs := by
  cases v with
  | object fields => exact lookup_rewriteFields hname fields
  | null => rfl
  | bool b => rfl
  | number n => rfl
  | string s => rfl
  | array items => rfl

theorem get_rewriteReference (v : Json) (name : String) : (rewriteReference v).get name = v.get name := by
  cases v with
  | string s =>
    rw [rewriteReference]
    cases stripStart "#/$defs/".toList s.toList <;> rfl
  | null => rfl
  | bool b => rfl
  | number n => rfl
  | array items => rfl
  | object fields => rfl

theorem mem_rewriteFields {fields : List (String × Json)} {key : String} {v : Json}
    (h : (key, v) ∈ rewriteFields fields) :
    ∃ w, (key, w) ∈ fields ∧ ∀ name, v.get name = (rewriteLocalRefs w).get name := by
  rw [rewriteFields_eq_map] at h
  obtain ⟨⟨first, w⟩, hmem, heq⟩ := List.mem_map.mp h
  obtain ⟨rfl, rfl⟩ := Prod.mk.inj heq
  refine ⟨w, hmem, fun name => ?_⟩
  show (if first = "$ref" then _ else _ : Json).get name = _
  split
  · exact get_rewriteReference _ name
  · rfl

theorem mem_rewriteItems {items : List Json} {v : Json} (h : v ∈ rewriteItems items) :
    ∃ w ∈ items, v = rewriteLocalRefs w := by
  rw [rewriteItems_eq_map] at h
  obtain ⟨w, hmem, rfl⟩ := List.mem_map.mp h
  exact ⟨w, hmem, rfl⟩

theorem asU64_rewriteLocalRefs (v : Json) : (rewriteLocalRefs v).asU64 = v.asU64 := by
  cases v <;> rfl

theorem asStr_rewriteLocalRefs (v : Json) : (rewriteLocalRefs v).asStr = v.asStr := by
  cases v <;> rfl

theorem rewriteLocalRefs_eq_object {v : Json} {fields : List (String × Json)}
    (h : rewriteLocalRefs v = .object fields) : ∃ fields', v = .object fields' ∧ fields = rewriteFields fields' := by
  cases v <;> cases h
  exact ⟨_, rfl, rfl⟩

theorem rewriteLocalRefs_eq_array {v : Json} {items : List Json} (h : rewriteLocalRefs v = .array items) :
    ∃ items', v = .array items' ∧ items = rewriteItems items' := by
  cases v <;> cases h
  exact ⟨_, rfl, rfl⟩

/-- Rewriting keeps the keywords. -/
theorem RulesChecked.rewrite {schema : Json} (h : RulesChecked schema) : RulesChecked (rewriteLocalRefs schema) where
  minLength properties field rule minLength hproperties hmem hget := by
    rw [get_rewriteLocalRefs (by decide)] at hproperties
    obtain ⟨w, hw, hobject⟩ := Option.map_eq_some_iff.mp hproperties
    obtain ⟨properties', rfl, rfl⟩ := rewriteLocalRefs_eq_object hobject
    obtain ⟨rule', hmem', hrule⟩ := mem_rewriteFields hmem
    rw [hrule, get_rewriteLocalRefs (by decide)] at hget
    obtain ⟨minLength', hget', rfl⟩ := Option.map_eq_some_iff.mp hget
    rw [asU64_rewriteLocalRefs]
    exact h.minLength properties' field rule' minLength' hw hmem' hget'
  fieldOrder entries entry lower upper hget hmem hlower hupper := by
    rw [get_rewriteLocalRefs (by decide)] at hget
    obtain ⟨w, hw, harray⟩ := Option.map_eq_some_iff.mp hget
    obtain ⟨entries', rfl, rfl⟩ := rewriteLocalRefs_eq_array harray
    obtain ⟨entry', hmem', rfl⟩ := mem_rewriteItems hmem
    have hname : ∀ bound : String, bound ≠ "$ref" →
        ((rewriteLocalRefs entry').get bound).bind Json.asStr = (entry'.get bound).bind Json.asStr := by
      intro bound hbound
      rw [get_rewriteLocalRefs hbound]
      cases entry'.get bound with
      | none => rfl
      | some v => exact asStr_rewriteLocalRefs v
    rw [hname _ (by decide)] at hlower hupper
    exact h.fieldOrder entries' entry' lower upper hw hmem' hlower hupper

theorem get_bareRoot {name : String} (hdefs : name ≠ "$defs") (hschema : name ≠ "$schema") (htitle : name ≠ "title")
    (root : Json) : (bareRoot root).get name = root.get name := by
  cases root with
  | object fields =>
    show (fields.filter _).lookup name = fields.lookup name
    induction fields with
    | nil => rfl
    | cons field fields ih =>
      rcases field with ⟨key, v⟩
      rw [List.filter_cons, List.lookup_cons]
      by_cases hkey : name = key
      · subst hkey
        simp [hdefs, hschema, htitle]
      · have hfalse : (name == key) = false := by simpa using hkey
        split
        · rw [List.lookup_cons, hfalse]
          exact ih
        · rw [hfalse]
          exact ih
  | null => rfl
  | bool b => rfl
  | number n => rfl
  | string s => rfl
  | array items => rfl

theorem RulesChecked.bareRoot {root : Json} (h : RulesChecked root) : RulesChecked (bareRoot root) where
  minLength properties field rule minLength hproperties hmem hget := by
    rw [get_bareRoot (by decide) (by decide) (by decide)] at hproperties
    exact h.minLength properties field rule minLength hproperties hmem hget
  fieldOrder entries entry lower upper hget hmem hlower hupper := by
    rw [get_bareRoot (by decide) (by decide) (by decide)] at hget
    exact h.fieldOrder entries entry lower upper hget hmem hlower hupper

/-! ## The entries of the table of schemas -/

/-- The schemas that a payload type registers, by name. -/
def TypeRef.entries (payload : TypeRef Json ν) : List (String × Json) :=
  (payload.name, rewriteLocalRefs (bareRoot payload.schema)) ::
    (definitionsOf payload.schema).map fun definition => (definition.1, rewriteLocalRefs definition.2)

/-- The schemas that an operation registers. -/
def Operation.entries (operation : Operation Json ν) : List (String × Json) :=
  operation.request.entries ++ operation.response.entries

/-- Registration of entries by name, up to the comparison of JSON values. -/
abbrev registerEntries (schemas : Schemas) (entries : List (String × Json)) : Except ResolveError Schemas :=
  Lib.registerAll Json.same .conflictingSchema schemas entries

theorem registerSchema_eq (schemas : Schemas) (name : String) (schema : Json) :
    registerSchema schemas name schema = Lib.register Json.same .conflictingSchema schemas (name, schema) := by
  rw [registerSchema, Lib.register]
  cases schemas.lookup name with
  | none => rfl
  | some existing =>
    have hne : (existing != schema) = !existing.same schema := rfl
    show (if (existing != schema) = true then _ else _) = if existing.same schema = true then _ else _
    rw [hne]
    cases existing.same schema with
    | false => rfl
    | true => rfl

theorem registerDefinitions_eq (definitions : List (String × Json)) :
    ∀ schemas : Schemas, registerDefinitions schemas definitions =
      registerEntries schemas (definitions.map fun definition => (definition.1, rewriteLocalRefs definition.2)) := by
  induction definitions with
  | nil => intro schemas; rfl
  | cons definition definitions ih =>
    intro schemas
    rcases definition with ⟨name, schema⟩
    rw [registerDefinitions, List.map_cons, registerEntries, Lib.registerAll, registerSchema_eq]
    cases Lib.register Json.same ResolveError.conflictingSchema schemas (name, rewriteLocalRefs schema) with
    | error e => rfl
    | ok middle => exact ih middle

theorem registerType_eq (schemas : Schemas) (payload : TypeRef Json ν) :
    registerType schemas payload = registerEntries schemas payload.entries := by
  rw [registerType, TypeRef.entries, registerEntries, Lib.registerAll, registerSchema_eq]
  cases Lib.register Json.same ResolveError.conflictingSchema schemas
      (payload.name, rewriteLocalRefs (bareRoot payload.schema)) with
  | error e => rfl
  | ok middle => exact registerDefinitions_eq _ middle

theorem registerEntries_append_eq_ok_iff {schemas schemas' : Schemas} {first second : List (String × Json)} :
    registerEntries schemas (first ++ second) = .ok schemas' ↔
      ∃ middle, registerEntries schemas first = .ok middle ∧ registerEntries middle second = .ok schemas' :=
  Lib.registerAll_append_eq_ok_iff

/-! ## Operations and events -/

/-- What resolving reads of an operation beside its schemas. -/
def Operation.resolved? (operation : Operation Json ν) : Option (ResolvedOperation ν) := do
  let handledBy ← operation.handledBy
  let docs ← operation.docs
  return {
    method := operation.method
    handledBy := handledBy
    terminal := operation.terminal
    rejections := operation.rejections
    docs := docs
    request := operation.request.name
    response := operation.response.name
    examples := sortByName OperationExample.name operation.examples }

/-- What resolving reads of an event beside its schemas. -/
def Event.resolved? (event : Event Json ν) : Option (ResolvedEvent ν) := do
  let emittedBy ← event.emittedBy
  let docs ← event.docs
  return {
    name := event.name
    emittedBy := emittedBy
    docs := docs
    data := event.data.name
    examples := sortByName EventExample.name event.examples }

/-- A loop over items that resolves each of them and registers its entries. -/
theorem loop_eq_ok_iff {α β : Type} {step : Schemas → α → Except ResolveError (β × Schemas)}
    {loop : Schemas → List α → Except ResolveError (List β × Schemas)} {read : α → Option β}
    {entries : α → List (String × Json)} (hnil : ∀ schemas, loop schemas [] = .ok ([], schemas))
    (hcons : ∀ schemas item items, loop schemas (item :: items) = do
      let (resolved, schemas) ← step schemas item
      let (rest, schemas) ← loop schemas items
      return (resolved :: rest, schemas))
    (hstep : ∀ schemas schemas' item resolved, step schemas item = .ok (resolved, schemas') ↔
      read item = some resolved ∧ registerEntries schemas (entries item) = .ok schemas') (items : List α) :
    ∀ {schemas schemas' : Schemas} {resolved : List β}, loop schemas items = .ok (resolved, schemas') ↔
      List.Forall₂ (fun item result => read item = some result) items resolved ∧
        registerEntries schemas (items.flatMap entries) = .ok schemas' := by
  induction items with
  | nil =>
    intro schemas schemas' resolved
    rw [hnil, List.forall₂_nil_left_iff]
    constructor
    · intro h
      obtain ⟨rfl, rfl⟩ := Prod.mk.inj (Except.ok.inj h)
      exact ⟨rfl, rfl⟩
    · rintro ⟨rfl, h⟩
      obtain rfl := Except.ok.inj h
      rfl
  | cons item items ih =>
    intro schemas schemas' resolved
    rw [hcons, List.flatMap_cons, registerEntries_append_eq_ok_iff, List.forall₂_cons_left_iff]
    constructor
    · intro h
      obtain ⟨⟨first, middle⟩, hfirst, h⟩ := Lib.exists_of_bind_eq_ok h
      obtain ⟨⟨rest, last⟩, hrest, h⟩ := Lib.exists_of_bind_eq_ok h
      obtain ⟨rfl, rfl⟩ := Prod.mk.inj (Except.ok.inj h)
      obtain ⟨hresolved, hentries⟩ := (hstep _ _ _ _).mp hfirst
      obtain ⟨hall, hentries'⟩ := ih.mp hrest
      exact ⟨⟨first, rest, hresolved, hall, rfl⟩, middle, hentries, hentries'⟩
    · rintro ⟨⟨first, rest, hresolved, hall, rfl⟩, middle, hentries, hentries'⟩
      rw [(hstep _ _ _ _).mpr ⟨hresolved, hentries⟩]
      show loop middle items >>= _ = _
      rw [ih.mpr ⟨hall, hentries'⟩]
      rfl

theorem elim_eq_ok {α ε : Type} {o : Option α} {e : ε} {a : α} (h : o.elim (.error e) Except.ok = .ok a) :
    o = some a := by
  cases o with
  | none => cases h
  | some b => exact congrArg some (Except.ok.inj h)

theorem resolveOperation_eq_ok_iff {schemas schemas' : Schemas} {operation : Operation Json ν}
    {resolved : ResolvedOperation ν} :
    resolveOperation schemas operation = .ok (resolved, schemas') ↔
      operation.resolved? = some resolved ∧
        registerEntries schemas operation.entries = .ok schemas' := by
  rw [Operation.entries, registerEntries_append_eq_ok_iff, resolveOperation, registerType_eq]
  constructor
  · intro h
    obtain ⟨middle, hfirst, h⟩ := Lib.exists_of_bind_eq_ok h
    obtain ⟨last, hsecond, h⟩ := Lib.exists_of_bind_eq_ok h
    obtain ⟨handledBy, hhandled, h⟩ := Lib.exists_of_bind_eq_ok h
    obtain ⟨docs, hdocs, h⟩ := Lib.exists_of_bind_eq_ok h
    obtain ⟨rfl, rfl⟩ := Prod.mk.inj (Except.ok.inj h)
    rw [registerType_eq] at hsecond
    refine ⟨?_, middle, hfirst, hsecond⟩
    rw [Operation.resolved?, elim_eq_ok hhandled, elim_eq_ok hdocs]
    rfl
  · rintro ⟨hresolved, middle, hfirst, hsecond⟩
    rw [Operation.resolved?] at hresolved
    obtain ⟨handledBy, hhandled, hresolved⟩ := Option.bind_eq_some_iff.mp hresolved
    obtain ⟨docs, hdocs, hresolved⟩ := Option.bind_eq_some_iff.mp hresolved
    obtain rfl := Option.some.inj hresolved
    rw [hfirst, hhandled, hdocs]
    show registerType middle operation.response >>= _ = _
    rw [registerType_eq, hsecond]
    rfl

theorem resolveOperations_eq_ok_iff {operations : List (Operation Json ν)} {schemas schemas' : Schemas}
    {resolved : List (ResolvedOperation ν)} :
    resolveOperations schemas operations = .ok (resolved, schemas') ↔
      List.Forall₂ (fun operation result => operation.resolved? = some result) operations resolved ∧
        registerEntries schemas (operations.flatMap Operation.entries) = .ok schemas' :=
  loop_eq_ok_iff (fun _ => rfl) (fun _ _ _ => rfl) (fun _ _ _ _ => resolveOperation_eq_ok_iff) operations

theorem resolveEvent_eq_ok_iff {schemas schemas' : Schemas} {event : Event Json ν} {resolved : ResolvedEvent ν} :
    resolveEvent schemas event = .ok (resolved, schemas') ↔
      event.resolved? = some resolved ∧ registerEntries schemas event.data.entries = .ok schemas' := by
  rw [resolveEvent, registerType_eq]
  constructor
  · intro h
    obtain ⟨last, hentries, h⟩ := Lib.exists_of_bind_eq_ok h
    obtain ⟨emittedBy, hemitted, h⟩ := Lib.exists_of_bind_eq_ok h
    obtain ⟨docs, hdocs, h⟩ := Lib.exists_of_bind_eq_ok h
    obtain ⟨rfl, rfl⟩ := Prod.mk.inj (Except.ok.inj h)
    refine ⟨?_, hentries⟩
    rw [Event.resolved?, elim_eq_ok hemitted, elim_eq_ok hdocs]
    rfl
  · rintro ⟨hresolved, hentries⟩
    rw [Event.resolved?] at hresolved
    obtain ⟨emittedBy, hemitted, hresolved⟩ := Option.bind_eq_some_iff.mp hresolved
    obtain ⟨docs, hdocs, hresolved⟩ := Option.bind_eq_some_iff.mp hresolved
    obtain rfl := Option.some.inj hresolved
    rw [hentries, hemitted, hdocs]
    rfl

theorem resolveEvents_eq_ok_iff {events : List (Event Json ν)} {schemas schemas' : Schemas}
    {resolved : List (ResolvedEvent ν)} :
    resolveEvents schemas events = .ok (resolved, schemas') ↔
      List.Forall₂ (fun event result => event.resolved? = some result) events resolved ∧
        registerEntries schemas (events.flatMap fun event => event.data.entries) = .ok schemas' :=
  loop_eq_ok_iff (fun _ => rfl) (fun _ _ _ => rfl) (fun _ _ _ _ => resolveEvent_eq_ok_iff) events

/-! ## Catalogs -/

/-- The schemas that a catalog registers, in the order in which it does. -/
def Catalog.entries (catalog : Catalog Json ν) : List (String × Json) :=
  catalog.operations.flatMap Operation.entries ++ catalog.events.flatMap fun event => event.data.entries

/-- Resolving succeeds if every item does and the schemas can be registered. -/
theorem resolve_eq_ok_iff {parse : List UInt8 → Except String ν} {catalog : Catalog Json ν}
    {resolved : ResolvedCatalog ν} :
    resolve parse catalog = .ok resolved ↔
      ∃ operations events schemas fixtures,
        List.Forall₂ (fun operation result => operation.resolved? = some result) catalog.operations operations ∧
        List.Forall₂ (fun event result => event.resolved? = some result) catalog.events events ∧
        registerEntries [] catalog.entries = .ok schemas ∧
        List.Forall₂ (fun fixture result => resolveFixture parse (sortByName ResolvedOperation.method operations)
          (sortByName ResolvedEvent.name events) fixture = .ok result) catalog.fixtures fixtures ∧
        resolved = {
          id := catalog.id
          operations := sortByName ResolvedOperation.method operations
          events := sortByName ResolvedEvent.name events
          schemas := schemas
          fixtures := sortByName ResolvedFixture.path fixtures
          scenarios := sortByName Scenario.name catalog.scenarios } := by
  rw [resolve, Catalog.entries]
  simp only [registerEntries_append_eq_ok_iff]
  constructor
  · intro h
    obtain ⟨⟨operations, middle⟩, hoperations, h⟩ := Lib.exists_of_bind_eq_ok h
    obtain ⟨⟨events, schemas⟩, hevents, h⟩ := Lib.exists_of_bind_eq_ok h
    obtain ⟨fixtures, hfixtures, h⟩ := Lib.exists_of_bind_eq_ok h
    obtain ⟨hoperations, hmiddle⟩ := resolveOperations_eq_ok_iff.1 hoperations
    obtain ⟨hevents, hschemas⟩ := resolveEvents_eq_ok_iff.1 hevents
    exact ⟨operations, events, schemas, fixtures, hoperations, hevents, ⟨middle, hmiddle, hschemas⟩,
      Lib.mapM_eq_ok_iff.1 hfixtures, (Except.ok.inj h).symm⟩
  · rintro ⟨operations, events, schemas, fixtures, hoperations, hevents, ⟨middle, hmiddle, hschemas⟩, hfixtures, rfl⟩
    rw [resolveOperations_eq_ok_iff.2 ⟨hoperations, hmiddle⟩]
    show resolveEvents middle catalog.events >>= _ = _
    rw [resolveEvents_eq_ok_iff.2 ⟨hevents, hschemas⟩]
    show catalog.fixtures.mapM (resolveFixture parse (sortByName ResolvedOperation.method operations)
      (sortByName ResolvedEvent.name events)) >>= _ = _
    rw [Lib.mapM_eq_ok_iff.2 hfixtures]
    rfl

/-! ## The resolved operations and events -/

/-- What a resolved operation is to the operation it comes from. -/
structure ResolvedFrom (operation : Operation Json ν) (resolved : ResolvedOperation ν) : Prop where
  method : resolved.method = operation.method
  handledBy : operation.handledBy = some resolved.handledBy
  request : resolved.request = operation.request.name
  response : resolved.response = operation.response.name
  examples : resolved.examples.Perm operation.examples

theorem Operation.resolvedFrom {operation : Operation Json ν} {resolved : ResolvedOperation ν}
    (h : operation.resolved? = some resolved) : ResolvedFrom operation resolved := by
  rw [Operation.resolved?] at h
  obtain ⟨handledBy, hhandled, h⟩ := Option.bind_eq_some_iff.mp h
  obtain ⟨docs, -, h⟩ := Option.bind_eq_some_iff.mp h
  obtain rfl := Option.some.inj h
  exact ⟨rfl, hhandled, rfl, rfl, List.perm_insertionSort _ _⟩

theorem Event.resolved?_name {event : Event Json ν} {resolved : ResolvedEvent ν}
    (h : event.resolved? = some resolved) : event.name = resolved.name := by
  rw [Event.resolved?] at h
  obtain ⟨emittedBy, -, h⟩ := Option.bind_eq_some_iff.mp h
  obtain ⟨docs, -, h⟩ := Option.bind_eq_some_iff.mp h
  rw [← Option.some.inj h]

/-- The payload types of the operation are in the table. -/
def ResolvedOperation.Declared (operation : ResolvedOperation ν) (schemas : Schemas) : Prop :=
  (∃ schema, schemas.lookup operation.request = some schema) ∧ ∃ schema, schemas.lookup operation.response = some schema

/-! ## Validated catalogs -/

/-- The definitions are the fields of the object under the key. -/
theorem mem_definitionsOf {root : Json} {definition : String × Json} (h : definition ∈ definitionsOf root) :
    ∃ fields definitions, root = .object fields ∧ ("$defs", .object definitions) ∈ fields ∧
      definition ∈ definitions := by
  rw [definitionsOf] at h
  cases hget : root.get "$defs" with
  | none => simp [hget] at h
  | some value =>
    obtain ⟨fields, rfl, hlookup⟩ := get_eq_some hget
    cases value with
    | object definitions =>
      rw [hget] at h
      exact ⟨fields, definitions, rfl, Lib.mem_of_lookup_eq_some hlookup, h⟩
    | _ => simp [hget, Json.asObject] at h

theorem Visited.of_validateSchemaRules {payload : TypeRef Json ν} (h : validateSchemaRules payload = []) :
    Visited payload.schema :=
  ⟨"$", List.map_eq_nil_iff.mp h⟩

/-- The definitions of a validated schema are validated. -/
theorem Visited.definitions {root : Json} (h : Visited root) :
    ∀ definition ∈ definitionsOf root, Visited definition.2 := by
  intro definition hdefinition
  obtain ⟨fields, definitions, rfl, hdefs, hmem⟩ := mem_definitionsOf hdefinition
  exact (h.object.2 _ hdefs).object.2 definition hmem

/-- A payload type with a validated schema registers checked ones. -/
theorem Visited.entries {payload : TypeRef Json ν} (h : Visited payload.schema) :
    ∀ entry ∈ payload.entries, RulesChecked entry.2 := by
  refine List.forall_mem_cons.mpr ⟨h.rulesChecked.bareRoot.rewrite, fun entry hentry => ?_⟩
  obtain ⟨definition, hdefinition, rfl⟩ := List.mem_map.mp hentry
  exact (h.definitions definition hdefinition).rulesChecked.rewrite

/-- A new name before names that are new after it. -/
theorem new_name_cons {name : String} {names seen : List String} (hnew : name ∉ seen)
    (h : names.Nodup ∧ ∀ other ∈ names, other ∉ name :: seen) :
    (name :: names).Nodup ∧ ∀ other ∈ name :: names, other ∉ seen := by
  have hfirst : name ∉ names := fun hmem => h.2 name hmem List.mem_cons_self
  refine ⟨List.nodup_cons.mpr ⟨hfirst, h.1⟩, List.forall_mem_cons.mpr ⟨hnew, fun other hother hmem => ?_⟩⟩
  exact h.2 other hother (List.mem_cons_of_mem _ hmem)

/-- What the loop over the names of the examples asks of them. -/
theorem exampleNameIssues_spec {kind : CatalogItemKind} {name : String} {names : List String} :
    ∀ seen : List String, exampleNameIssues (ν := ν) kind name seen names = [] →
      names.Nodup ∧ ∀ exampleName ∈ names, exampleName ∉ seen := by
  induction names with
  | nil => simp
  | cons exampleName names ih =>
    intro seen h
    rw [exampleNameIssues] at h
    split at h
    · cases h
    · split at h
      · cases h
      · next hseen =>
        have hnew : exampleName ∉ seen := by simpa using hseen
        exact new_name_cons hnew (ih _ h)

theorem nodup_of_validateItemMetadata {kind : CatalogItemKind} {name : String} {docs : Option String}
    {exampleNames : List String} (h : validateItemMetadata (ν := ν) kind name docs exampleNames = []) :
    exampleNames.Nodup := by
  rw [validateItemMetadata, List.append_eq_nil_iff, List.append_eq_nil_iff] at h
  exact (exampleNameIssues_spec [] h.1.2).1

section Validated

variable [BEq ν]

/-- What the loop over the operations asks of each of them. -/
theorem validateOperations_spec {operations : List (Operation Json ν)} :
    ∀ seen : List String, validateOperations seen operations = [] →
      (operations.map Operation.method).Nodup ∧ ∀ operation ∈ operations, operation.method ∉ seen ∧
        Visited operation.request.schema ∧ Visited operation.response.schema ∧
          (operation.examples.map OperationExample.name).Nodup := by
  induction operations with
  | nil => simp
  | cons operation operations ih =>
    intro seen h
    rw [validateOperations, List.append_eq_nil_iff] at h
    obtain ⟨hissues, hrest⟩ := h
    simp only [operationIssues, List.append_eq_nil_iff] at hissues
    obtain ⟨⟨⟨⟨⟨⟨⟨-, -⟩, hseen⟩, hmetadata⟩, hrequest⟩, hresponse⟩, -⟩, -⟩ := hissues
    have hnew : operation.method ∉ seen := by
      intro hmem
      simp [hmem] at hseen
    exact Lib.new_names_cons.1 ⟨⟨hnew, .of_validateSchemaRules hrequest, .of_validateSchemaRules hresponse,
      nodup_of_validateItemMetadata hmetadata⟩, ih _ hrest⟩

/-- What the loop over the events asks of each of them. -/
theorem validateEvents_spec {events : List (Event Json ν)} :
    ∀ seen : List String, validateEvents seen events = [] →
      (events.map Event.name).Nodup ∧ ∀ event ∈ events, event.name ∉ seen ∧ Visited event.data.schema ∧
        (event.examples.map EventExample.name).Nodup := by
  induction events with
  | nil => simp
  | cons event events ih =>
    intro seen h
    rw [validateEvents, List.append_eq_nil_iff] at h
    obtain ⟨hissues, hrest⟩ := h
    simp only [eventIssues, List.append_eq_nil_iff] at hissues
    obtain ⟨⟨⟨⟨-, hseen⟩, hmetadata⟩, hdata⟩, -⟩ := hissues
    have hnew : event.name ∉ seen := by
      intro hmem
      simp [hmem] at hseen
    exact Lib.new_names_cons.1
      ⟨⟨hnew, .of_validateSchemaRules hdata, nodup_of_validateItemMetadata hmetadata⟩, ih _ hrest⟩

theorem issues_of_validate {catalog : Catalog Json ν} (h : catalog.validate = .ok ()) : catalog.issues = [] := by
  rw [Catalog.validate] at h
  split at h
  · next hempty => simpa using hempty
  · cases h

/-- A validated and resolved catalog: names are unique, the schemas of its table are checked, and those of its
operations are in the table. -/
structure ResolvedCatalog.Checked (catalog : ResolvedCatalog ν) : Prop where
  methods : (catalog.operations.map ResolvedOperation.method).Nodup
  events : (catalog.events.map ResolvedEvent.name).Nodup
  schemas : ∀ entry ∈ catalog.schemas, RulesChecked entry.2
  declared : ∀ operation ∈ catalog.operations, operation.Declared catalog.schemas

theorem resolve_checked {parse : List UInt8 → Except String ν} {catalog : Catalog Json ν}
    {resolved : ResolvedCatalog ν} (hvalid : catalog.validate = .ok ())
    (hresolve : resolve parse catalog = .ok resolved) : resolved.Checked := by
  have hissues := issues_of_validate hvalid
  simp only [Catalog.issues, List.append_eq_nil_iff] at hissues
  obtain ⟨⟨⟨hoperations, hevents⟩, -⟩, -⟩ := hissues
  obtain ⟨hmethods, hvisited⟩ := validateOperations_spec [] hoperations
  obtain ⟨hnames, hvisitedEvents⟩ := validateEvents_spec [] hevents
  obtain ⟨operations, events, schemas, fixtures, hresolved, hresolvedEvents, hschemas, -, rfl⟩ :=
    resolve_eq_ok_iff.1 hresolve
  have hextends := Lib.extends_of_registerAll hschemas
  constructor
  · have hperm : ((sortByName ResolvedOperation.method operations).map ResolvedOperation.method).Perm
        (operations.map ResolvedOperation.method) := (List.perm_insertionSort _ _).map _
    have hsame : catalog.operations.map Operation.method = operations.map ResolvedOperation.method :=
      Lib.map_eq_map_of_forall₂ (hresolved.imp fun _ _ h => (Operation.resolvedFrom h).method.symm)
    rw [hperm.nodup_iff, ← hsame]
    exact hmethods
  · have hperm : ((sortByName ResolvedEvent.name events).map ResolvedEvent.name).Perm
        (events.map ResolvedEvent.name) := (List.perm_insertionSort _ _).map _
    have hsame : catalog.events.map Event.name = events.map ResolvedEvent.name :=
      Lib.map_eq_map_of_forall₂ (hresolvedEvents.imp fun _ _ => Event.resolved?_name)
    rw [hperm.nodup_iff, ← hsame]
    exact hnames
  · intro entry hentry
    rcases hextends.mem entry hentry with hentry | hentry
    · cases hentry
    · rcases List.mem_append.mp hentry with hentry | hentry
      · obtain ⟨operation, hoperation, hentry⟩ := List.mem_flatMap.mp hentry
        obtain ⟨-, hrequest, hresponse, -⟩ := hvisited operation hoperation
        rcases List.mem_append.mp hentry with hentry | hentry
        · exact hrequest.entries entry hentry
        · exact hresponse.entries entry hentry
      · obtain ⟨event, hevent, hentry⟩ := List.mem_flatMap.mp hentry
        exact (hvisitedEvents event hevent).2.1.entries entry hentry
  · intro resolved hmem
    have hmem' : resolved ∈ operations := (List.perm_insertionSort _ _).mem_iff.mp hmem
    obtain ⟨operation, hoperation, hread⟩ := Lib.exists_of_mem_right hresolved hmem'
    have hfrom := Operation.resolvedFrom hread
    have hin : ∀ entry ∈ operation.entries, ∃ schema, schemas.lookup entry.1 = some schema := fun entry hentry =>
      hextends.has entry (List.mem_append_left _ (List.mem_flatMap.mpr ⟨operation, hoperation, hentry⟩))
    rw [ResolvedOperation.Declared, hfrom.request, hfrom.response]
    exact ⟨hin _ (List.mem_append_left _ List.mem_cons_self), hin _ (List.mem_append_right _ List.mem_cons_self)⟩

end Validated

end Rtvbp.Spec
