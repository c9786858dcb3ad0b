import Rtvbp.Spec.Resolution
import Rtvbp.Spec.Proofs.ResolveProofs
import Rtvbp.Spec.Proofs.ScenarioProofs
import Mathlib.Data.String.Basic

/-!
# Proofs: resolving in any order

The order in which a catalog declares its items decides neither whether it can be resolved nor the result, since the
entries of the table of schemas can be registered in any order and the items are sorted by distinct names. References
in the table stay in it, since a definition is registered with the schema that refers to it.
-/

namespace Rtvbp.Spec

variable {ν : Type}

/-! ## Well-formed schemas -/

theorem wellFormed_rewriteReference {v : Json} (h : v.wellFormed = true) : (rewriteReference v).wellFormed = true := by
  cases v with
  | string reference =>
    simp only [rewriteReference]
    split
    · exact Json.wellFormed_string _
    · exact h
  | _ => exact h

theorem wellFormed_rewriteLocalRefs (v : Json) (h : v.wellFormed = true) : (rewriteLocalRefs v).wellFormed = true := by
  induction v using Json.inductionOn with
  | null => exact h
  | bool b => exact h
  | number n => exact h
  | string s => exact h
  | array items ih =>
    rw [rewriteLocalRefs, rewriteItems_eq_map]
    refine Json.everywhere_array.2 ⟨rfl, fun w hw => ?_⟩
    obtain ⟨v, hv, rfl⟩ := List.mem_map.mp hw
    exact ih v hv (Json.wellFormed_array h v hv)
  | object fields ih =>
    obtain ⟨hnodup, hfields⟩ := Json.wellFormed_object.1 h
    rw [rewriteLocalRefs, rewriteFields_eq_map, Json.wellFormed_object, List.map_map]
    refine ⟨hnodup, fun entry hentry => ?_⟩
    obtain ⟨field, hfield, rfl⟩ := List.mem_map.mp hentry
    have hvalue := ih field hfield (hfields field hfield)
    show (if field.1 = "$ref" then _ else _ : Json).wellFormed = true
    split
    · exact wellFormed_rewriteReference hvalue
    · exact hvalue

theorem wellFormed_bareRoot {root : Json} (h : root.wellFormed = true) : (bareRoot root).wellFormed = true := by
  cases root with
  | object fields =>
    obtain ⟨hnodup, hfields⟩ := Json.wellFormed_object.1 h
    rw [bareRoot, Json.wellFormed_object]
    refine ⟨hnodup.sublist (List.filter_sublist.map _), fun field hfield => ?_⟩
    exact hfields field (List.mem_filter.mp hfield).1
  | _ => exact h

/-- What a payload type registers under well-formed schemas. -/
theorem wellFormed_entries {payload : TypeRef Json ν} (h : payload.schema.wellFormed = true) :
    ∀ entry ∈ payload.entries, entry.2.wellFormed = true := by
  intro entry hentry
  rw [TypeRef.entries] at hentry
  rcases List.mem_cons.mp hentry with rfl | hentry
  · exact wellFormed_rewriteLocalRefs _ (wellFormed_bareRoot h)
  · obtain ⟨definition, hdefinition, rfl⟩ := List.mem_map.mp hentry
    obtain ⟨fields, definitions, hroot, hdefs, hmem⟩ := mem_definitionsOf hdefinition
    rw [hroot] at h
    have hobject := (Json.wellFormed_object.1 h).2 _ hdefs
    exact wellFormed_rewriteLocalRefs _ ((Json.wellFormed_object.1 hobject).2 definition hmem)

/-- Every entry of a catalog is one of a payload type. -/
theorem mem_entries_iff {catalog : Catalog Json ν} {entry : String × Json} :
    entry ∈ catalog.entries ↔ ∃ payload ∈ catalog.payloads, entry ∈ payload.entries := by
  rw [Catalog.entries, Catalog.payloads]
  simp only [List.mem_append, List.mem_flatMap, List.mem_map, Operation.entries, Operation.payloads, List.mem_cons,
    List.not_mem_nil, or_false]
  constructor
  · rintro (⟨operation, hoperation, hentry | hentry⟩ | ⟨event, hevent, hentry⟩)
    · exact ⟨_, Or.inl ⟨operation, hoperation, Or.inl rfl⟩, hentry⟩
    · exact ⟨_, Or.inl ⟨operation, hoperation, Or.inr rfl⟩, hentry⟩
    · exact ⟨_, Or.inr ⟨event, hevent, rfl⟩, hentry⟩
  · rintro ⟨payload, ⟨operation, hoperation, rfl | rfl⟩ | ⟨event, hevent, rfl⟩, hentry⟩
    · exact Or.inl ⟨operation, hoperation, Or.inl hentry⟩
    · exact Or.inl ⟨operation, hoperation, Or.inr hentry⟩
    · exact Or.inr ⟨event, hevent, hentry⟩

theorem Catalog.SchemasWellFormed.entries {catalog : Catalog Json ν} (h : catalog.SchemasWellFormed) :
    ∀ entry ∈ catalog.entries, entry.2.wellFormed = true := by
  intro entry hentry
  obtain ⟨payload, hpayload, hentry⟩ := mem_entries_iff.1 hentry
  exact wellFormed_entries (h payload hpayload) entry hentry

/-! ## Distinct names -/

/-- What the validator makes sure of: the names that a catalog declares are distinct, in each of its lists. -/
structure Catalog.DistinctNames (catalog : Catalog Json ν) : Prop where
  methods : (catalog.operations.map Operation.method).Nodup
  events : (catalog.events.map Event.name).Nodup
  paths : (catalog.fixtures.map CatalogFixture.path).Nodup
  scenarios : (catalog.scenarios.map Scenario.name).Nodup
  operationExamples : ∀ operation ∈ catalog.operations, (operation.examples.map OperationExample.name).Nodup
  eventExamples : ∀ event ∈ catalog.events, (event.examples.map EventExample.name).Nodup

theorem Operation.Reordered.symm {operation other : Operation Json ν} (h : operation.Reordered other) :
    other.Reordered operation := by
  refine ⟨?_, h.examples.symm⟩
  rw [h.rest]

theorem Event.Reordered.symm {event other : Event Json ν} (h : event.Reordered other) : other.Reordered event := by
  refine ⟨?_, h.examples.symm⟩
  rw [h.rest]

theorem Catalog.Reordered.symm {catalog other : Catalog Json ν} (h : catalog.Reordered other) :
    other.Reordered catalog where
  id := h.id.symm
  operations := Lib.Reordered.symm (fun _ _ => Operation.Reordered.symm) h.operations
  events := Lib.Reordered.symm (fun _ _ => Event.Reordered.symm) h.events
  fixtures := h.fixtures.symm
  scenarios := h.scenarios.symm

/-- The names stay distinct in another order. -/
theorem Catalog.DistinctNames.reordered {catalog other : Catalog Json ν} (hnames : catalog.DistinctNames)
    (h : catalog.Reordered other) : other.DistinctNames where
  methods := by
    have hmethod : ∀ operation ∈ catalog.operations, ∀ other, operation.Reordered other →
        operation.method = other.method := fun operation _ other hother => by rw [hother.rest]
    exact (h.operations.map_perm hmethod).nodup_iff.mp hnames.methods
  events := by
    have hname : ∀ event ∈ catalog.events, ∀ other, event.Reordered other → event.name = other.name :=
      fun event _ other hother => by rw [hother.rest]
    exact (h.events.map_perm hname).nodup_iff.mp hnames.events
  paths := (h.fixtures.map _).nodup_iff.mp hnames.paths
  scenarios := (h.scenarios.map _).nodup_iff.mp hnames.scenarios
  operationExamples operation hoperation := by
    obtain ⟨original, horiginal, hreordered⟩ := h.operations.exists_mem hoperation
    exact (hreordered.examples.map _).nodup_iff.mp (hnames.operationExamples original horiginal)
  eventExamples event hevent := by
    obtain ⟨original, horiginal, hreordered⟩ := h.events.exists_mem hevent
    exact (hreordered.examples.map _).nodup_iff.mp (hnames.eventExamples original horiginal)

/-- The schemas stay those of a JSON library. -/
theorem Catalog.SchemasWellFormed.reordered {catalog other : Catalog Json ν} (hschemas : catalog.SchemasWellFormed)
    (h : catalog.Reordered other) : other.SchemasWellFormed := by
  intro payload hpayload
  rw [Catalog.payloads, List.mem_append] at hpayload
  refine hschemas payload ?_
  rw [Catalog.payloads, List.mem_append]
  rcases hpayload with hpayload | hpayload
  · obtain ⟨operation, hoperation, hpayload⟩ := List.mem_flatMap.mp hpayload
    obtain ⟨original, horiginal, hreordered⟩ := h.operations.exists_mem hoperation
    rw [hreordered.rest] at hpayload
    exact Or.inl (List.mem_flatMap.mpr ⟨original, horiginal, hpayload⟩)
  · obtain ⟨event, hevent, rfl⟩ := List.mem_map.mp hpayload
    obtain ⟨original, horiginal, hreordered⟩ := h.events.exists_mem hevent
    rw [hreordered.rest]
    exact Or.inr (List.mem_map.mpr ⟨original, horiginal, rfl⟩)

/-- Sorting by distinct names forgets the order. -/
theorem sortByName_eq_of_perm {α : Type} {name : α → String} {items others : List α}
    (hnodup : (items.map name).Nodup) (h : items.Perm others) : sortByName name items = sortByName name others :=
  Lib.insertionSort_eq_of_perm hnodup h

/-! ## Another order -/

/-- The order of the examples is not seen in a resolved operation. -/
theorem Operation.Reordered.resolved?_eq {operation other : Operation Json ν} (h : operation.Reordered other)
    (hnames : (operation.examples.map OperationExample.name).Nodup) : operation.resolved? = other.resolved? := by
  rw [h.rest]
  unfold Operation.resolved?
  rw [sortByName_eq_of_perm hnames h.examples]

theorem Operation.Reordered.entries_eq {operation other : Operation Json ν} (h : operation.Reordered other) :
    operation.entries = other.entries := by
  rw [h.rest]
  rfl

theorem Event.Reordered.resolved?_eq {event other : Event Json ν} (h : event.Reordered other)
    (hnames : (event.examples.map EventExample.name).Nodup) : event.resolved? = other.resolved? := by
  rw [h.rest]
  unfold Event.resolved?
  rw [sortByName_eq_of_perm hnames h.examples]

theorem resolveFixture_path {parse : List UInt8 → Except String ν} {operations : List (ResolvedOperation ν)}
    {events : List (ResolvedEvent ν)} {fixture : CatalogFixture} {resolved : ResolvedFixture ν}
    (h : resolveFixture parse operations events fixture = .ok resolved) : fixture.path = resolved.path := by
  rw [resolveFixture] at h
  split at h
  · cases h
  · split at h
    · rw [← Except.ok.inj h]
    · cases h

/-- Items that are resolved one by one, and sorted by their distinct names, are sorted to the same list in any
order. -/
theorem exists_sorted_results {α β : Type} {R : α → α → Prop} {S : α → β → Prop} {key : α → String} {name : β → String}
    {items others : List α} {results : List β} (h : Lib.Reordered R items others)
    (hS : ∀ a ∈ items, ∀ b r, R a b → S a r → S b r) (hkey : ∀ a r, S a r → key a = name r)
    (hnodup : (items.map key).Nodup) (hresults : List.Forall₂ S items results) :
    ∃ results', List.Forall₂ S others results' ∧ sortByName name results = sortByName name results' := by
  obtain ⟨results', hall, hperm⟩ := h.exists_results hS hresults
  have hnames : items.map key = results.map name := Lib.map_eq_map_of_forall₂ (hresults.imp hkey)
  exact ⟨results', hall, sortByName_eq_of_perm (hnames ▸ hnodup) hperm⟩

theorem Catalog.Reordered.entries_perm {catalog other : Catalog Json ν} (h : catalog.Reordered other) :
    catalog.entries.Perm other.entries := by
  have hoperations : (catalog.operations.map Operation.entries).Perm (other.operations.map Operation.entries) :=
    h.operations.map_perm fun operation _ other hother => hother.entries_eq
  have hevents : (catalog.events.map fun event => event.data.entries).Perm
      (other.events.map fun event => event.data.entries) :=
    h.events.map_perm fun event _ other hother => by rw [hother.rest]
  rw [Catalog.entries, Catalog.entries, List.flatMap_def, List.flatMap_def, List.flatMap_def, List.flatMap_def]
  exact hoperations.flatten.append hevents.flatten

/-- The schemas can be registered in any order, and the tables are the same map. -/
theorem exists_registered {entries others : List (String × Json)} {schemas : Schemas} (h : entries.Perm others)
    (hwellFormed : ∀ entry ∈ entries, entry.2.wellFormed = true) (hschemas : registerEntries [] entries = .ok schemas) :
    ∃ schemas', registerEntries [] others = .ok schemas' ∧ (Json.object schemas).same (.object schemas') = true := by
  have hwellFormed' : ∀ entry ∈ others, entry.2.wellFormed = true :=
    fun entry hentry => hwellFormed entry (h.mem_iff.mpr hentry)
  have hrepresents : Lib.Represents Json.same entries schemas :=
    Lib.represents_of_registerAll Json.same_equivalence hwellFormed hschemas
  have hconsistent : Lib.Consistent Json.same others := by
    intro entry hentry other hother
    exact hrepresents.consistent Json.same_equivalence hwellFormed entry (h.mem_iff.mpr hentry) other
      (h.mem_iff.mpr hother)
  obtain ⟨schemas', hschemas'⟩ : ∃ schemas', registerEntries [] others = .ok schemas' :=
    (Lib.registerAll_eq_ok_iff Json.same_equivalence hwellFormed').mpr hconsistent
  have hrepresents' : Lib.Represents Json.same others schemas' :=
    Lib.represents_of_registerAll Json.same_equivalence hwellFormed' hschemas'
  refine ⟨schemas', hschemas', (Json.same_object_iff hrepresents.nodup hrepresents'.nodup).mpr fun name => ?_⟩
  exact hrepresents.lookup_agree Json.same_equivalence hwellFormed (fun _ => h.mem_iff) hrepresents' name

/-- A catalog that can be resolved can be so in another order, with the same result. -/
theorem Catalog.Reordered.resolve {parse : List UInt8 → Except String ν} {catalog other : Catalog Json ν}
    {resolved : ResolvedCatalog ν} (h : catalog.Reordered other) (hnames : catalog.DistinctNames)
    (hwellFormed : catalog.SchemasWellFormed) (hresolve : Spec.resolve parse catalog = .ok resolved) :
    ∃ resolved', Spec.resolve parse other = .ok resolved' ∧ resolved.Same resolved' := by
  obtain ⟨operations, events, schemas, fixtures, hoperations, hevents, hschemas, hfixtures, rfl⟩ :=
    resolve_eq_ok_iff.1 hresolve
  obtain ⟨operations', hoperations', hsortedOperations⟩ := exists_sorted_results
    (S := fun operation result => operation.resolved? = some result) h.operations
    (fun a ha b r hab hr => (hab.resolved?_eq (hnames.operationExamples a ha)).symm.trans hr)
    (fun _ _ h => (Operation.resolvedFrom h).method.symm) hnames.methods hoperations
  obtain ⟨events', hevents', hsortedEvents⟩ := exists_sorted_results
    (S := fun event result => event.resolved? = some result) h.events
    (fun a ha b r hab hr => (hab.resolved?_eq (hnames.eventExamples a ha)).symm.trans hr)
    (fun _ _ => Event.resolved?_name) hnames.events hevents
  obtain ⟨schemas', hschemas', hsame⟩ := exists_registered h.entries_perm hwellFormed.entries hschemas
  obtain ⟨fixtures', hfixtures', hsortedFixtures⟩ := exists_sorted_results
    (S := fun fixture result => resolveFixture parse (sortByName ResolvedOperation.method operations)
      (sortByName ResolvedEvent.name events) fixture = .ok result)
    (Lib.reordered_of_perm (R := Eq) (fun _ => rfl) h.fixtures)
    (fun a _ b r hab hr => hab ▸ hr) (fun _ _ => resolveFixture_path) hnames.paths hfixtures
  rw [hsortedOperations, hsortedEvents] at hfixtures'
  refine ⟨_, resolve_eq_ok_iff.2 ⟨operations', events', schemas', fixtures', hoperations', hevents', hschemas',
    hfixtures', rfl⟩, ?_⟩
  exact {
    id := h.id
    operations := hsortedOperations
    events := hsortedEvents
    schemas := hsame
    fixtures := hsortedFixtures
    scenarios := sortByName_eq_of_perm hnames.scenarios h.scenarios }

/-! ## References -/

/-- The text of a reference after the rewriting. -/
def rewrittenRef (reference : String) : String :=
  match stripStart "#/$defs/".toList reference.toList with
  | some name => schemaReference (unescapePointer name)
  | none => reference

theorem fieldReferences_eq_flatMap (fields : List (String × Json)) :
    fieldReferences fields =
      fields.flatMap fun field => (if field.1 = "$ref" then field.2.asStr.toList else []) ++ references field.2 := by
  induction fields with
  | nil => rfl
  | cons field fields ih => rw [fieldReferences, ih, List.flatMap_cons]

theorem itemReferences_eq_flatMap (items : List Json) : itemReferences items = items.flatMap references := by
  induction items with
  | nil => rfl
  | cons v items ih => rw [itemReferences, ih, List.flatMap_cons]

theorem references_rewriteReference (v : Json) : references (rewriteReference v) = references v := by
  cases v with
  | string reference =>
    simp only [rewriteReference]
    split
    · rfl
    · rfl
  | _ => rfl

theorem asStr_rewriteReference (v : Json) :
    (rewriteReference (rewriteLocalRefs v)).asStr.toList = v.asStr.toList.map rewrittenRef := by
  cases v with
  | string reference =>
    show (rewriteReference (.string reference)).asStr.toList = [rewrittenRef reference]
    simp only [rewriteReference, rewrittenRef]
    cases stripStart "#/$defs/".toList reference.toList with
    | some name => rfl
    | none => rfl
  | _ => rfl

/-- Rewriting a schema rewrites each of its references and no more. -/
theorem references_rewriteLocalRefs (v : Json) : references (rewriteLocalRefs v) = (references v).map rewrittenRef := by
  induction v using Json.inductionOn with
  | null => rfl
  | bool b => rfl
  | number n => rfl
  | string s => rfl
  | array items ih =>
    rw [rewriteLocalRefs, references, references, rewriteItems_eq_map, itemReferences_eq_flatMap,
      itemReferences_eq_flatMap, List.flatMap_map, List.map_flatMap]
    exact List.flatMap_congr ih
  | object fields ih =>
    rw [rewriteLocalRefs, references, references, rewriteFields_eq_map, fieldReferences_eq_flatMap,
      fieldReferences_eq_flatMap, List.flatMap_map, List.map_flatMap]
    refine List.flatMap_congr fun field hfield => ?_
    rw [List.map_append]
    by_cases hkey : field.1 = "$ref"
    · simp only [if_pos hkey]
      rw [asStr_rewriteReference, references_rewriteReference, ih field hfield]
    · simp only [if_neg hkey]
      rw [ih field hfield]
      rfl

theorem references_field_subset {fields : List (String × Json)} {field : String × Json} (h : field ∈ fields) :
    ∀ reference ∈ references field.2, reference ∈ references (.object fields) := by
  intro reference hreference
  rw [references, fieldReferences_eq_flatMap]
  exact List.mem_flatMap.mpr ⟨field, h, List.mem_append_right _ hreference⟩

theorem references_bareRoot_subset (root : Json) :
    ∀ reference ∈ references (bareRoot root), reference ∈ references root := by
  intro reference hreference
  cases root with
  | object fields =>
    rw [bareRoot, references, fieldReferences_eq_flatMap] at hreference
    rw [references, fieldReferences_eq_flatMap]
    obtain ⟨field, hfield, hreference⟩ := List.mem_flatMap.mp hreference
    exact List.mem_flatMap.mpr ⟨field, (List.mem_filter.mp hfield).1, hreference⟩
  | _ => exact hreference

/-- A reference in what a payload type registers is a reference of its schema, rewritten. -/
theorem references_entries {payload : TypeRef Json ν} {entry : String × Json} (h : entry ∈ payload.entries) :
    ∀ reference ∈ references entry.2, ∃ original ∈ references payload.schema, reference = rewrittenRef original := by
  intro reference hreference
  rw [TypeRef.entries] at h
  rcases List.mem_cons.mp h with rfl | h
  · rw [references_rewriteLocalRefs] at hreference
    obtain ⟨original, horiginal, rfl⟩ := List.mem_map.mp hreference
    exact ⟨original, references_bareRoot_subset _ original horiginal, rfl⟩
  · obtain ⟨definition, hdefinition, rfl⟩ := List.mem_map.mp h
    rw [references_rewriteLocalRefs] at hreference
    obtain ⟨original, horiginal, rfl⟩ := List.mem_map.mp hreference
    obtain ⟨fields, definitions, hroot, hdefs, hmem⟩ := mem_definitionsOf hdefinition
    rw [hroot]
    exact ⟨original, references_field_subset hdefs _ (references_field_subset hmem _ horiginal), rfl⟩

/-- A local reference after the rewriting was one before. -/
theorem isLocal_of_rewrittenRef {reference : String} (h : isLocal (rewrittenRef reference) = true) :
    isLocal reference = true := by
  rw [rewrittenRef] at h
  split at h
  · next name hname =>
    rw [stripStart] at hname
    split at hname
    · next hstart =>
      obtain ⟨rest, hrest⟩ := List.isPrefixOf_iff_prefix.mp hstart
      rw [isLocal, ← hrest]
      rfl
    · cases hname
  · exact h

/-- A reference that names a definition is rewritten to one that names the schema. -/
theorem schemaRefName_rewrittenRef {reference name : String} (h : definitionRefName reference = some name) :
    schemaRefName (rewrittenRef reference) = some name := by
  rw [definitionRefName] at h
  obtain ⟨segment, hsegment, rfl⟩ := Option.map_eq_some_iff.mp h
  have hrewritten : rewrittenRef reference = schemaReference (unescapePointer segment) := by
    rw [rewrittenRef, hsegment]
  rw [hrewritten, schemaRefName, stripStart_schemaReference, Option.map_some, unescape_escape]

/-- The references in the table are to schemas of the table, if the references of the payload types are to their own
definitions. -/
theorem refsRegistered_of_represents {catalog : Catalog Json ν} {schemas : Schemas}
    (hdefined : ∀ payload ∈ catalog.payloads, payload.RefsDefined)
    (h : Lib.Represents Json.same catalog.entries schemas) : RefsRegistered schemas := by
  intro entry hentry reference hreference hlocal
  obtain ⟨payload, hpayload, hmem⟩ := mem_entries_iff.1 (h.mem entry hentry)
  obtain ⟨original, horiginal, rfl⟩ := references_entries hmem reference hreference
  obtain ⟨definition, hdefinition, hname⟩ :=
    hdefined payload hpayload original horiginal (isLocal_of_rewrittenRef hlocal)
  have hregistered : (definition.1, rewriteLocalRefs definition.2) ∈ payload.entries :=
    List.mem_cons_of_mem _ (List.mem_map.mpr ⟨definition, hdefinition, rfl⟩)
  obtain ⟨schema, hlookup, -⟩ := h.agrees _ (mem_entries_iff.2 ⟨payload, hpayload, hregistered⟩)
  exact ⟨_, Lib.mem_of_lookup_eq_some hlookup, schemaRefName_rewrittenRef hname⟩

/-! ## Validated catalogs -/

theorem fixture_paths_nodup {catalog : Catalog Json ν} {fixtures : List CatalogFixture} :
    ∀ seen : List String, validateFixtures catalog seen fixtures = [] →
      (fixtures.map CatalogFixture.path).Nodup ∧ ∀ path ∈ fixtures.map CatalogFixture.path, path ∉ seen := by
  induction fixtures with
  | nil => simp
  | cons fixture fixtures ih =>
    intro seen h
    rw [validateFixtures, List.append_eq_nil_iff] at h
    obtain ⟨hissues, hrest⟩ := h
    rw [List.append_eq_nil_iff, List.append_eq_nil_iff] at hissues
    have hnew : fixture.path ∉ seen := by
      intro hmem
      simp [hmem] at hissues
    exact new_name_cons hnew (ih _ hrest)

section Validated

variable [BEq ν]

/-- A validated catalog declares distinct names. -/
theorem Catalog.DistinctNames.of_validate {catalog : Catalog Json ν} (h : catalog.validate = .ok ()) :
    catalog.DistinctNames := by
  have hissues := issues_of_validate h
  simp only [Catalog.issues, List.append_eq_nil_iff] at hissues
  obtain ⟨⟨⟨hoperations, hevents⟩, hfixtures⟩, hscenarios⟩ := hissues
  obtain ⟨hmethods, hcheckedOperations⟩ := validateOperations_spec [] hoperations
  obtain ⟨hnames, hcheckedEvents⟩ := validateEvents_spec [] hevents
  exact {
    methods := hmethods
    events := hnames
    paths := (fixture_paths_nodup [] hfixtures).1
    scenarios := (validateScenarios_eq_nil_iff.1 hscenarios).1
    operationExamples := fun operation hoperation => (hcheckedOperations operation hoperation).2.2.2
    eventExamples := fun event hevent => (hcheckedEvents event hevent).2.2 }

/-- A validated catalog is resolved alike in every order of its declarations: it fails in both orders, or it gives
equal catalogs. And where it succeeds, every local reference in the result is to a schema of the result, if those of
the payload types are to their own definitions. -/
theorem resolve_order_independent {parse : List UInt8 → Except String ν} {catalog : Catalog Json ν}
    (hvalid : catalog.validate = .ok ()) (hschemas : catalog.SchemasWellFormed) :
    (∀ other, catalog.Reordered other →
      (∃ e e', resolve parse catalog = .error e ∧ resolve parse other = .error e') ∨
        ∃ resolved resolved', resolve parse catalog = .ok resolved ∧ resolve parse other = .ok resolved' ∧
          resolved.Same resolved') ∧
      ∀ resolved, resolve parse catalog = .ok resolved → (∀ payload ∈ catalog.payloads, payload.RefsDefined) →
        RefsRegistered resolved.schemas := by
  have hnames := Catalog.DistinctNames.of_validate hvalid
  constructor
  · intro other hother
    cases hresolve : resolve parse catalog with
    | ok resolved =>
      obtain ⟨resolved', hresolve', hsame⟩ := hother.resolve hnames hschemas hresolve
      exact Or.inr ⟨resolved, resolved', rfl, hresolve', hsame⟩
    | error e =>
      cases hresolve' : resolve parse other with
      | error e' => exact Or.inl ⟨e, e', rfl, rfl⟩
      | ok resolved' =>
        -- the first order is one of the second, which is resolved
        have hschemas' : other.SchemasWellFormed := hschemas.reordered hother
        obtain ⟨resolved, hok, -⟩ := hother.symm.resolve (hnames.reordered hother) hschemas' hresolve'
        rw [hresolve] at hok
        cases hok
  · intro resolved hresolve hdefined
    obtain ⟨operations, events, schemas, fixtures, -, -, hregistered, -, rfl⟩ := resolve_eq_ok_iff.1 hresolve
    exact refsRegistered_of_represents hdefined
      (Lib.represents_of_registerAll Json.same_equivalence hschemas.entries hregistered)

end Validated

/-! ## Two letters -/

/-- The schema of a letter, with a definition and a reference to it. -/
def letterSchema : Json :=
  .object [
    ("title", .string "Letter"),
    ("type", .string "object"),
    ("properties", .object [("from", .object [("$ref", .string "#/$defs/Person")])]),
    ("$defs", .object [("Person", .object [("type", .string "string")])])]

/-- The payload type of a letter. -/
def letterType : TypeRef Json Value := ⟨"Letter", letterSchema, .ok, .ok⟩

/-- An operation that takes a letter and returns it. -/
def letterOperation (method : String) : Operation Json Value where
  method := method
  handledBy := some .voice
  request := letterType
  response := letterType
  terminal := false
  rejections := []
  docs := some "Handle a letter."
  examples := [⟨"letter", .string "a letter", .string "a letter"⟩]

/-- Two operations in an order. -/
def letterCatalog (first second : String) : Catalog Json Value where
  id := ⟨"letters", 1⟩
  operations := [letterOperation first, letterOperation second]
  events := []
  fixtures := []
  scenarios := []

theorem letters_resolved_alike :
    ∃ resolved resolved',
      resolve (fun _ => .error "no fixture") (letterCatalog "letter.read" "letter.send") = .ok resolved ∧
      resolve (fun _ => .error "no fixture") (letterCatalog "letter.send" "letter.read") = .ok resolved' ∧
      resolved.Same resolved' ∧ RefsRegistered resolved.schemas := by
  have hvalid : (letterCatalog "letter.read" "letter.send").validate = .ok () := rfl
  have hpayloads : ∀ payload ∈ (letterCatalog "letter.read" "letter.send").payloads, payload = letterType := by
    intro payload hpayload
    rcases List.mem_append.mp hpayload with hpayload | hpayload
    · obtain ⟨operation, hoperation, hpayload⟩ := List.mem_flatMap.mp hpayload
      simp only [letterCatalog, List.mem_cons, List.not_mem_nil, or_false] at hoperation
      rcases hoperation with rfl | rfl
      · simpa [Operation.payloads, letterOperation] using hpayload
      · simpa [Operation.payloads, letterOperation] using hpayload
    · cases hpayload
  have hschemas : (letterCatalog "letter.read" "letter.send").SchemasWellFormed := by
    intro payload hpayload
    rw [hpayloads payload hpayload]
    decide
  have hdefined : ∀ payload ∈ (letterCatalog "letter.read" "letter.send").payloads, payload.RefsDefined := by
    intro payload hpayload reference hreference _
    rw [hpayloads payload hpayload] at hreference ⊢
    obtain rfl := List.mem_singleton.mp hreference
    exact ⟨_, List.mem_singleton_self _, rfl⟩
  have hreordered : (letterCatalog "letter.read" "letter.send").Reordered (letterCatalog "letter.send" "letter.read") :=
    ⟨rfl, Lib.reordered_of_perm (fun _ => ⟨rfl, .refl _⟩) (.swap _ _ _), Lib.reordered_of_perm (fun _ => ⟨rfl, .refl _⟩)
      (.refl _), .refl _, .refl _⟩
  obtain ⟨horder, hclosed⟩ := @resolve_order_independent Value _ (fun _ => .error "no fixture") _ hvalid hschemas
  obtain ⟨e, -, herror, -⟩ | ⟨resolved, resolved', hresolved, hresolved', hsame⟩ := horder _ hreordered
  · cases herror
  · exact ⟨resolved, resolved', hresolved, hresolved', hsame, hclosed resolved hresolved hdefined⟩

end Rtvbp.Spec
