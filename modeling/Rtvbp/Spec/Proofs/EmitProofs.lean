import Rtvbp.Spec.Emit
import Rtvbp.Spec.Proofs.ResolveProofs

/-!
# Proofs: identifiers in the generated code

The names of a validated catalog are unique, so that a list of identifiers has no duplicate exactly if the conversion
of names to identifiers is injective on the catalog. The check of the role surfaces compares the identifiers of one
role only.
-/

namespace Rtvbp.Spec

variable {ν ε : Type} {catalog : ResolvedCatalog ν}

/-! ## Names and identifiers -/

section Lists

variable {α : Type} {l : List α} {name f : α → String}

/-- Items with unique names have unique identifiers exactly if the identifier determines the name. -/
theorem nodup_map_iff (h : (l.map name).Nodup) :
    (l.map f).Nodup ↔ ∀ a ∈ l, ∀ b ∈ l, f a = f b → name a = name b := by
  rw [List.nodup_map_iff_inj_on (List.Nodup.of_map name h)]
  constructor
  · intro hinj a ha b hb heq
    rw [hinj a ha b hb heq]
  · intro hinj a ha b hb heq
    exact List.inj_on_of_nodup_map h ha hb (hinj a ha b hb heq)

/-- The same for some of the items. -/
theorem nodup_filter_map_iff (h : (l.map name).Nodup) {p : α → Bool} :
    ((l.filter p).map f).Nodup ↔ ∀ a ∈ l, ∀ b ∈ l, p a = true → p b = true → f a = f b → name a = name b := by
  have hsub : ((l.filter p).map name).Nodup := h.sublist (List.filter_sublist.map name)
  rw [nodup_map_iff hsub]
  constructor
  · intro hinj a ha b hb hpa hpb
    exact hinj a (List.mem_filter.mpr ⟨ha, hpa⟩) b (List.mem_filter.mpr ⟨hb, hpb⟩)
  · intro hinj a ha b hb
    obtain ⟨ha, hpa⟩ := List.mem_filter.mp ha
    obtain ⟨hb, hpb⟩ := List.mem_filter.mp hb
    exact hinj a ha b hb hpa hpb

end Lists

/-! ## The check of the role surfaces -/

theorem ensureUniqueMethods_eq_ok_iff {surface : String} {items : List (String × String)} :
    ∀ methods : List (String × String), ensureUniqueMethods surface methods items = .ok () ↔
      (items.map Prod.snd).Nodup ∧ ∀ item ∈ items, item.2 ∉ methods.map Prod.fst ∧ True := by
  induction items with
  | nil => simp [ensureUniqueMethods]
  | cons item items ih =>
    intro methods
    rcases item with ⟨wireName, method⟩
    rw [← Lib.new_names_cons, ensureUniqueMethods]
    cases hlookup : methods.lookup method with
    | some first =>
      have hmem : method ∈ methods.map Prod.fst :=
        List.mem_map.mpr ⟨(method, first), Lib.mem_of_lookup_eq_some hlookup, rfl⟩
      simp only [reduceCtorEq, false_iff]
      intro h
      exact h.1.1 hmem
    | none =>
      have hmem : method ∉ methods.map Prod.fst := by
        intro hmem
        obtain ⟨entry, hentry, heq⟩ := List.mem_map.mp hmem
        have hne := List.lookup_eq_none_iff.mp hlookup entry hentry
        simp [heq] at hne
      simp only [ih, List.map_cons]
      constructor
      · intro h
        exact ⟨⟨hmem, trivial⟩, h⟩
      · intro h
        exact h.2

/-- A surface is accepted exactly if its methods are unique. -/
theorem ensureUniqueMethods_nil_eq_ok_iff {surface : String} {items : List (String × String)} :
    ensureUniqueMethods surface [] items = .ok () ↔ (items.map Prod.snd).Nodup := by
  rw [ensureUniqueMethods_eq_ok_iff]
  simp

/-- Two roles meet exactly if one peer owns both. -/
theorem meets_iff_owns {a b : Role} :
    a.Meets b ↔ ∃ role : LocalRole, role.owns a = true ∧ role.owns b = true := by
  constructor
  · rintro (rfl | rfl | rfl)
    · cases a
      · exact ⟨.voice, rfl, rfl⟩
      · exact ⟨.application, rfl, rfl⟩
      · exact ⟨.voice, rfl, rfl⟩
    · cases b
      · exact ⟨.voice, rfl, rfl⟩
      · exact ⟨.application, rfl, rfl⟩
      · exact ⟨.voice, rfl, rfl⟩
    · cases a
      · exact ⟨.voice, rfl, rfl⟩
      · exact ⟨.application, rfl, rfl⟩
      · exact ⟨.voice, rfl, rfl⟩
  · rintro ⟨role, ha, hb⟩
    cases role <;> cases a <;> cases b <;> simp_all [LocalRole.owns, Role.Meets]

/-- Two roles meet exactly if one peer receives from both. -/
theorem meets_iff_receives {a b : Role} :
    a.Meets b ↔ ∃ role : LocalRole, role.receives a = true ∧ role.receives b = true := by
  have hsame : ∀ role : LocalRole, ∃ other : LocalRole, ∀ c : Role, role.owns c = other.receives c := by
    intro role
    cases role with
    | application => exact ⟨.voice, fun c => by cases c <;> rfl⟩
    | voice => exact ⟨.application, fun c => by cases c <;> rfl⟩
  have hback : ∀ role : LocalRole, ∃ other : LocalRole, ∀ c : Role, role.receives c = other.owns c := by
    intro role
    cases role with
    | application => exact ⟨.voice, fun c => by cases c <;> rfl⟩
    | voice => exact ⟨.application, fun c => by cases c <;> rfl⟩
  rw [meets_iff_owns]
  constructor
  · rintro ⟨role, ha, hb⟩
    obtain ⟨other, hother⟩ := hsame role
    exact ⟨other, hother a ▸ ha, hother b ▸ hb⟩
  · rintro ⟨role, ha, hb⟩
    obtain ⟨other, hother⟩ := hback role
    exact ⟨other, hother a ▸ ha, hother b ▸ hb⟩

section Surfaces

variable {member : String → String} {surface : LocalRole → String}

/-- The items of every role have unique identifiers exactly if those of roles that meet have. -/
theorem surfaces_nodup_iff {α : Type} {l : List α} {name f : α → String} {roleOf : α → Role}
    {has : LocalRole → Role → Bool} (h : (l.map name).Nodup)
    (hmeets : ∀ a b : Role, a.Meets b ↔ ∃ role, has role a = true ∧ has role b = true) :
    (∀ role, ((l.filter fun item => has role (roleOf item)).map f).Nodup) ↔
      ∀ a ∈ l, ∀ b ∈ l, (roleOf a).Meets (roleOf b) → f a = f b → name a = name b := by
  constructor
  · intro hall a ha b hb hab heq
    obtain ⟨role, hhas, hhas'⟩ := (hmeets _ _).mp hab
    exact (nodup_filter_map_iff h).mp (hall role) a ha b hb hhas hhas' heq
  · intro hall role
    rw [nodup_filter_map_iff h]
    intro a ha b hb hhas hhas' heq
    exact hall a ha b hb ((hmeets _ _).mpr ⟨role, hhas, hhas'⟩) heq

/-- The operations of no surface collide. -/
theorem handlers_ok_iff (h : catalog.Checked) :
    (∀ role, ensureUniqueMethods (surface role) [] (handlerMethods member catalog role) = .ok ()) ↔
      ∀ a ∈ catalog.operations, ∀ b ∈ catalog.operations, a.handledBy.Meets b.handledBy →
        member a.method = member b.method → a.method = b.method := by
  simp only [ensureUniqueMethods_nil_eq_ok_iff, handlerMethods, List.map_map]
  exact surfaces_nodup_iff h.methods fun _ _ => meets_iff_owns

/-- The events that one role emits do not collide. -/
theorem emitted_ok_iff (h : catalog.Checked) :
    (∀ role, ensureUniqueMethods (surface role) [] (emittedMethods member catalog role) = .ok ()) ↔
      ∀ a ∈ catalog.events, ∀ b ∈ catalog.events, a.emittedBy.Meets b.emittedBy →
        member a.name = member b.name → a.name = b.name := by
  simp only [ensureUniqueMethods_nil_eq_ok_iff, emittedMethods, List.map_map]
  exact surfaces_nodup_iff h.events fun _ _ => meets_iff_owns

/-- The events that one role receives do not collide. -/
theorem received_ok_iff (h : catalog.Checked) :
    (∀ role, ensureUniqueMethods (surface role) [] (receivedMethods member catalog role) = .ok ()) ↔
      ∀ a ∈ catalog.events, ∀ b ∈ catalog.events, a.emittedBy.Meets b.emittedBy →
        member a.name = member b.name → a.name = b.name := by
  simp only [ensureUniqueMethods_nil_eq_ok_iff, receivedMethods, List.map_map]
  exact surfaces_nodup_iff h.events fun _ _ => meets_iff_receives

/-- Nothing collides. -/
theorem not_collides_iff :
    ¬ Collides member catalog ↔
      (∀ a ∈ catalog.operations, ∀ b ∈ catalog.operations, a.handledBy.Meets b.handledBy →
        member a.method = member b.method → a.method = b.method) ∧
      ∀ a ∈ catalog.events, ∀ b ∈ catalog.events, a.emittedBy.Meets b.emittedBy →
        member a.name = member b.name → a.name = b.name := by
  constructor
  · intro h
    constructor
    · intro a ha b hb hmeets heq
      by_contra hne
      exact h (Or.inl ⟨a, ha, b, hb, hne, hmeets, heq⟩)
    · intro a ha b hb hmeets heq
      by_contra hne
      exact h (Or.inr ⟨a, ha, b, hb, hne, hmeets, heq⟩)
  · rintro ⟨hoperations, hevents⟩ (⟨a, ha, b, hb, hne, hmeets, heq⟩ | ⟨a, ha, b, hb, hne, hmeets, heq⟩)
    · exact hne (hoperations a ha b hb hmeets heq)
    · exact hne (hevents a ha b hb hmeets heq)

end Surfaces

/-! ## What the emitters return -/

theorem bind_eq_ok_iff {α β : Type} {x : Except α Unit} {y : Except α β} {b : β} :
    (x >>= fun _ => y) = .ok b ↔ x = .ok () ∧ y = .ok b := by
  constructor
  · intro h
    obtain ⟨_, hx, hy⟩ := Lib.exists_of_bind_eq_ok h
    exact ⟨hx, hy⟩
  · rintro ⟨rfl, rfl⟩
    rfl

theorem mapError_eq_ok_iff {α β : Type} {x : Except α Unit} {f : α → β} :
    x.mapError f = .ok () ↔ x = .ok () := by
  cases x <;> simp [Except.mapError]

/-- A check that is made for either role. -/
theorem forM_all_eq_ok_iff {f : LocalRole → Except RoleMethodCollision Unit} :
    LocalRole.all.forM f = .ok () ↔ ∀ role, f role = .ok () := by
  have hforM : LocalRole.all.forM f = (f .application >>= fun _ => f .voice >>= fun _ => .ok ()) := rfl
  rw [hforM, bind_eq_ok_iff, bind_eq_ok_iff]
  constructor
  · rintro ⟨happlication, hvoice, -⟩ role
    cases role with
    | application => exact happlication
    | voice => exact hvoice
  · intro h
    exact ⟨h .application, h .voice, rfl⟩

/-- The Go emitter refuses exactly the catalogs in which names collide on a surface. -/
theorem GoEmit.validateMethodNames_eq_ok_iff (h : catalog.Checked) :
    validateMethodNames catalog = .ok () ↔ ¬ Collides pascalWireName catalog := by
  rw [validateMethodNames, forM_all_eq_ok_iff, not_collides_iff]
  simp only [bind_eq_ok_iff, forall_and]
  rw [handlers_ok_iff h, emitted_ok_iff h, received_ok_iff h, and_self]

/-- The Rust emitter refuses exactly the catalogs in which names collide on a surface. -/
theorem RustEmit.validateMethodNames_eq_ok_iff (h : catalog.Checked) :
    validateMethodNames catalog = .ok () ↔ ¬ Collides snakeWireName catalog := by
  rw [validateMethodNames, forM_all_eq_ok_iff, not_collides_iff]
  simp only [bind_eq_ok_iff, forall_and]
  rw [handlers_ok_iff h, received_ok_iff h]

/-- The TypeScript emitter refuses exactly the catalogs in which names collide on a surface. -/
theorem TypeScriptEmit.validateRoleNames_eq_ok_iff (h : catalog.Checked) :
    validateRoleNames catalog = .ok () ↔ ¬ Collides memberName catalog := by
  rw [validateRoleNames, forM_all_eq_ok_iff, not_collides_iff]
  simp only [bind_eq_ok_iff, forall_and]
  rw [handlers_ok_iff h, received_ok_iff h]

/-! ## Constants and types -/

/-- The constants of the operations and events are unique exactly if the identifiers of the names are. -/
theorem constants_nodup_iff (h : catalog.Checked) {identifier : String → String} {start other : String}
    (hstart : ∀ x y : String, start ++ x ≠ other ++ y) :
    (catalog.operations.map (fun operation => start ++ identifier operation.method) ++
        catalog.events.map fun event => other ++ identifier event.name).Nodup ↔
      DistinctNames identifier catalog := by
  rw [List.nodup_append, nodup_map_iff h.methods, nodup_map_iff h.events]
  simp only [String.append_right_inj]
  constructor
  · rintro ⟨hoperations, hevents, -⟩
    exact ⟨hoperations, hevents⟩
  · rintro ⟨hoperations, hevents⟩
    refine ⟨hoperations, hevents, fun x hx y hy => ?_⟩
    obtain ⟨operation, -, rfl⟩ := List.mem_map.mp hx
    obtain ⟨event, -, rfl⟩ := List.mem_map.mp hy
    exact hstart _ _

/-- The request and event types are unique exactly if no two operations or events share one. -/
theorem types_nodup_iff (h : catalog.Checked) :
    ((catalog.operations.map ResolvedOperation.request).Nodup ∧ (catalog.events.map ResolvedEvent.data).Nodup) ↔
      DistinctTypes catalog := by
  rw [nodup_map_iff h.methods, nodup_map_iff h.events]
  exact ⟨fun ⟨hoperations, hevents⟩ => ⟨hoperations, hevents⟩, fun ⟨hoperations, hevents⟩ => ⟨hoperations, hevents⟩⟩

/-- Texts that start differently differ. -/
theorem start_ne {start other : String} (h : start.toList.head? ≠ other.toList.head?) (hstart : start.toList ≠ [])
    (hother : other.toList ≠ []) (x y : String) : start ++ x ≠ other ++ y := by
  intro heq
  have hlists : start.toList ++ x.toList = other.toList ++ y.toList := by
    rw [← String.toList_append, ← String.toList_append, heq]
  have hheads := congrArg List.head? hlists
  rw [List.head?_append_of_ne_nil _ hstart, List.head?_append_of_ne_nil _ hother] at hheads
  exact h hheads

/-- The Go code is unique exactly if the identifiers and types of the catalog are. -/
theorem GoEmit.render_unique_iff (h : catalog.Checked) : (render catalog).Unique ↔ Distinct catalog := by
  have hconstants : (render catalog).constants.Nodup ↔ DistinctNames pascalWireName catalog :=
    constants_nodup_iff h (start_ne (by decide) (by decide) (by decide))
  have hmethods : (render catalog).methodNames.Nodup ↔ (catalog.operations.map ResolvedOperation.request).Nodup ∧
      ∀ a ∈ catalog.operations, a.request ≠ "roleTestRequest" ∧ a.request ≠ "roleTestInvalidRequest" := by
    show (catalog.operations.map ResolvedOperation.request ++ ["roleTestRequest", "roleTestInvalidRequest"]).Nodup ↔ _
    rw [List.nodup_append]
    simp
  have hevents : (render catalog).eventNames.Nodup ↔ (catalog.events.map ResolvedEvent.data).Nodup ∧
      ∀ a ∈ catalog.events, a.data ≠ "roleTestInvalidEvent" := by
    show (catalog.events.map ResolvedEvent.data ++ ["roleTestInvalidEvent"]).Nodup ↔ _
    rw [List.nodup_append]
    simp
  have htypes := types_nodup_iff h
  constructor
  · intro hunique
    obtain ⟨hrequests, htests⟩ := hmethods.mp hunique.methodNames
    obtain ⟨hdata, htestEvents⟩ := hevents.mp hunique.eventNames
    exact ⟨hconstants.mp hunique.constants, htypes.mp ⟨hrequests, hdata⟩, htests, htestEvents⟩
  · intro hdistinct
    obtain ⟨hrequests, hdata⟩ := htypes.mpr hdistinct.types
    exact ⟨hconstants.mpr hdistinct.names, hmethods.mpr ⟨hrequests, hdistinct.requests⟩,
      hevents.mpr ⟨hdata, hdistinct.data⟩⟩

/-- The Rust code is unique exactly if the identifiers and types of the catalog are. -/
theorem RustEmit.render_unique_iff (h : catalog.Checked) : (render catalog).Unique ↔ Distinct catalog := by
  have hnames : (catalog.operations.map (fun operation => operationConstant operation.method) ++
      catalog.events.map fun event => eventConstant event.name).Nodup ↔ DistinctNames screamingWireName catalog :=
    constants_nodup_iff h (start_ne (by decide) (by decide) (by decide))
  have hconstants : (render catalog).constants.Nodup ↔ DistinctNames screamingWireName catalog := by
    show (_ ++ _ ++ ["APPLICATION_HANDLER_METHODS", "VOICE_HANDLER_METHODS"]).Nodup ↔ _
    rw [List.nodup_append, hnames]
    constructor
    · rintro ⟨hdistinct, -⟩
      exact hdistinct
    · intro hdistinct
      refine ⟨hdistinct, by decide, fun constant hconstant role hrole => ?_⟩
      have hroles : role = "APPLICATION_HANDLER_METHODS" ++ "" ∨ role = "VOICE_HANDLER_METHODS" ++ "" := by
        simpa using hrole
      rcases List.mem_append.mp hconstant with hmem | hmem
      · obtain ⟨operation, -, rfl⟩ := List.mem_map.mp hmem
        rcases hroles with rfl | rfl <;> exact start_ne (by decide) (by decide) (by decide) _ _
      · obtain ⟨event, -, rfl⟩ := List.mem_map.mp hmem
        rcases hroles with rfl | rfl <;> exact start_ne (by decide) (by decide) (by decide) _ _
  have htypes := types_nodup_iff h
  constructor
  · intro hunique
    exact ⟨hconstants.mp hunique.constants, htypes.mp ⟨hunique.namedRequests, hunique.namedEvents⟩⟩
  · intro hdistinct
    obtain ⟨hrequests, hdata⟩ := htypes.mpr hdistinct.types
    exact ⟨hconstants.mpr hdistinct.names, hrequests, hdata⟩

/-- The TypeScript code is unique exactly if the identifiers of the catalog are. -/
theorem TypeScriptEmit.render_unique_iff (h : catalog.Checked) : (render catalog).Unique ↔ Distinct catalog := by
  have hnames : (catalog.operations.map (fun operation => operationConstant operation.method) ++
      catalog.events.map fun event => eventConstant event.name).Nodup ↔ DistinctNames screaming catalog :=
    constants_nodup_iff h (start_ne (by decide) (by decide) (by decide))
  have hfixed : catalogPrefix catalog.id ++ "_CATALOG_ID" ≠ catalogPrefix catalog.id ++ "_SCHEMAS" := by
    rw [Ne, String.append_right_inj]
    decide
  have htypes : (render catalog).types.Nodup ↔ Distinct catalog := by
    show ([catalogPrefix catalog.id ++ "_CATALOG_ID", catalogPrefix catalog.id ++ "_SCHEMAS"] ++ _ ++ _).Nodup ↔ _
    rw [List.append_assoc, List.nodup_append, hnames]
    constructor
    · rintro ⟨-, hdistinct, hapart⟩
      refine ⟨hdistinct, fun operation hmem => ?_, fun event hmem => ?_⟩
      · have hmap : operationConstant operation.method ∈
            catalog.operations.map fun operation => operationConstant operation.method :=
          List.mem_map.mpr ⟨operation, hmem, rfl⟩
        have hconstant := List.mem_append_left (catalog.events.map fun event => eventConstant event.name) hmap
        exact ⟨(hapart _ (by simp) _ hconstant).symm, (hapart _ (by simp) _ hconstant).symm⟩
      · have hmap : eventConstant event.name ∈ catalog.events.map fun event => eventConstant event.name :=
          List.mem_map.mpr ⟨event, hmem, rfl⟩
        have hconstant := List.mem_append_right
          (catalog.operations.map fun operation => operationConstant operation.method) hmap
        exact ⟨(hapart _ (by simp) _ hconstant).symm, (hapart _ (by simp) _ hconstant).symm⟩
    · intro hdistinct
      refine ⟨by simp [hfixed], hdistinct.names, fun fixed hmem constant hconstant => ?_⟩
      have hfixedCases : fixed = catalogPrefix catalog.id ++ "_CATALOG_ID" ∨
          fixed = catalogPrefix catalog.id ++ "_SCHEMAS" := by simpa using hmem
      rcases List.mem_append.mp hconstant with hmem | hmem
      · obtain ⟨operation, hoperation, rfl⟩ := List.mem_map.mp hmem
        obtain ⟨hid, hschemas⟩ := hdistinct.operations operation hoperation
        rcases hfixedCases with rfl | rfl
        · exact hid.symm
        · exact hschemas.symm
      · obtain ⟨event, hevent, rfl⟩ := List.mem_map.mp hmem
        obtain ⟨hid, hschemas⟩ := hdistinct.events event hevent
        rcases hfixedCases with rfl | rfl
        · exact hid.symm
        · exact hschemas.symm
  constructor
  · intro hunique
    exact htypes.mp hunique.types
  · intro hdistinct
    have hroles : ["APPLICATION_HANDLER_METHODS", "VOICE_HANDLER_METHODS"].Nodup := by decide
    exact ⟨htypes.mpr hdistinct, hroles⟩

/-! ## The emitters -/

variable {stages : EmitStages ν ε}

/-- An emitter that returns one output once its stages and its check are passed has a property exactly if a stage
fails, or the check does, or the output has the property. -/
theorem returns_iff {α : Type} {x y : Except ε Unit} {check : Except RoleMethodCollision Unit} {emitted : α}
    {collides : Prop} {P : α → Prop} {result : Except (EmitError ε) α}
    (hresult : ∀ output, result = .ok output ↔ x = .ok () ∧ y = .ok () ∧ check = .ok () ∧ emitted = output)
    (hcheck : check = .ok () ↔ ¬ collides) :
    (∀ output, result = .ok output → P output) ↔ (x ≠ .ok () ∨ y ≠ .ok ()) ∨ collides ∨ P emitted := by
  constructor
  · intro h
    by_cases hx : x = .ok ()
    · by_cases hy : y = .ok ()
      · by_cases hcollides : collides
        · exact Or.inr (Or.inl hcollides)
        · exact Or.inr (Or.inr (h emitted ((hresult emitted).mpr ⟨hx, hy, hcheck.mpr hcollides, rfl⟩)))
      · exact Or.inl (Or.inr hy)
    · exact Or.inl (Or.inl hx)
  · intro h output houtput
    obtain ⟨hx, hy, hok, rfl⟩ := (hresult output).mp houtput
    rcases h with (hfail | hfail) | hcollides | hP
    · exact absurd hx hfail
    · exact absurd hy hfail
    · exact absurd hcollides (hcheck.mp hok)
    · exact hP

theorem GoEmit.unique_iff (h : catalog.Checked) :
    (∀ output, emit stages catalog = .ok output → output.Unique) ↔
      stages.Fail catalog ∨ Collides pascalWireName catalog ∨ Distinct catalog := by
  have hresult : ∀ output, emit stages catalog = .ok output ↔ stages.types catalog = .ok () ∧
      stages.tests catalog = .ok () ∧ validateMethodNames catalog = .ok () ∧ render catalog = output := by
    intro output
    rw [emit, bind_eq_ok_iff, bind_eq_ok_iff, bind_eq_ok_iff, mapError_eq_ok_iff, mapError_eq_ok_iff,
      mapError_eq_ok_iff]
    simp only [pure, Except.pure, Except.ok.injEq]
  rw [returns_iff hresult (validateMethodNames_eq_ok_iff h), render_unique_iff h]
  rfl

theorem RustEmit.unique_iff (h : catalog.Checked) :
    (∀ output, emit stages catalog = .ok output → output.Unique) ↔
      stages.Fail catalog ∨ Collides snakeWireName catalog ∨ Distinct catalog := by
  have hresult : ∀ output, emit stages catalog = .ok output ↔ stages.types catalog = .ok () ∧
      stages.tests catalog = .ok () ∧ validateMethodNames catalog = .ok () ∧ render catalog = output := by
    intro output
    rw [emit, bind_eq_ok_iff, bind_eq_ok_iff, bind_eq_ok_iff, mapError_eq_ok_iff, mapError_eq_ok_iff,
      mapError_eq_ok_iff]
    simp only [pure, Except.pure, Except.ok.injEq]
  rw [returns_iff hresult (validateMethodNames_eq_ok_iff h), render_unique_iff h]
  rfl

theorem TypeScriptEmit.unique_iff (h : catalog.Checked) :
    (∀ output, emit stages catalog = .ok output → output.Unique) ↔
      stages.Fail catalog ∨ Collides memberName catalog ∨ Distinct catalog := by
  have hresult : ∀ output, emit stages catalog = .ok output ↔ stages.types catalog = .ok () ∧
      stages.tests catalog = .ok () ∧ validateRoleNames catalog = .ok () ∧ render catalog = output := by
    intro output
    rw [emit, bind_eq_ok_iff, bind_eq_ok_iff, bind_eq_ok_iff, mapError_eq_ok_iff, mapError_eq_ok_iff,
      mapError_eq_ok_iff]
    simp only [pure, Except.pure, Except.ok.injEq]
    tauto
  rw [returns_iff hresult (validateRoleNames_eq_ok_iff h), render_unique_iff h]
  rfl

/-- For a validated catalog, each emitter returns an error or declares every identifier once, exactly if for each of
them another stage fails, two names of one role surface collide, or names and payload types are distinct. -/
theorem identifiers_unique_iff [BEq ν] {parse : List UInt8 → Except String ν} {source : Catalog Json ν}
    {catalog : ResolvedCatalog ν} (hvalid : source.validate = .ok ()) (hresolve : resolve parse source = .ok catalog)
    (goStages rustStages typeScriptStages : EmitStages ν ε) :
    ((∀ output, GoEmit.emit goStages catalog = .ok output → output.Unique) ∧
        (∀ output, RustEmit.emit rustStages catalog = .ok output → output.Unique) ∧
        ∀ output, TypeScriptEmit.emit typeScriptStages catalog = .ok output → output.Unique) ↔
      (goStages.Fail catalog ∨ Collides GoEmit.pascalWireName catalog ∨ GoEmit.Distinct catalog) ∧
        (rustStages.Fail catalog ∨ Collides RustEmit.snakeWireName catalog ∨ RustEmit.Distinct catalog) ∧
        (typeScriptStages.Fail catalog ∨ Collides TypeScriptEmit.memberName catalog ∨
          TypeScriptEmit.Distinct catalog) := by
  have h : catalog.Checked := resolve_checked hvalid hresolve
  rw [GoEmit.unique_iff h, RustEmit.unique_iff h, TypeScriptEmit.unique_iff h]

/-! ## Two names of one constant -/

/-- A payload type without fields. -/
def emptyType (name : String) : TypeRef Json Value := ⟨name, .object [("type", .string "object")], .ok, .ok⟩

/-- A payload without fields. -/
def emptyPayload : Value := ⟨.object [], rfl⟩

/-- An operation of a role, with its own payload types. -/
def emptyOperation (method : String) (handledBy : Role) (request : String) : Operation Json Value where
  method := method
  handledBy := some handledBy
  request := emptyType request
  response := emptyType "Done"
  terminal := false
  rejections := []
  docs := some "Do it."
  examples := [⟨"empty", emptyPayload, emptyPayload⟩]

/-- Two operations, of which each is handled by another role. -/
def twoOperations (method other : String) : Catalog Json Value where
  id := ⟨"demo", 1⟩
  operations := [emptyOperation method .voice "First", emptyOperation other .application "Second"]
  events := []
  fixtures := []
  scenarios := []

/-- An operation of the two, resolved. -/
def emptyResolved (method : String) (handledBy : Role) (request : String) : ResolvedOperation Value where
  method := method
  handledBy := handledBy
  terminal := false
  rejections := []
  docs := "Do it."
  request := request
  response := "Done"
  examples := [⟨"empty", emptyPayload, emptyPayload⟩]

/-- The two operations, resolved. -/
def twoResolved (method other : String) : ResolvedCatalog Value where
  id := ⟨"demo", 1⟩
  operations := [emptyResolved method .voice "First", emptyResolved other .application "Second"]
  events := []
  schemas := [("First", .object [("type", .string "object")]), ("Done", .object [("type", .string "object")]),
    ("Second", .object [("type", .string "object")])]
  fixtures := []
  scenarios := []

/-- Stages that find nothing. -/
def passingStages : EmitStages Value Unit := ⟨fun _ => .ok (), fun _ => .ok ()⟩

/-- Two operations whose names differ in their letters. -/
theorem identifiers_unique_two :
    ((∀ output, GoEmit.emit passingStages (twoResolved "call.hold" "call.move") = .ok output → output.Unique) ∧
        (∀ output, RustEmit.emit passingStages (twoResolved "call.hold" "call.move") = .ok output → output.Unique) ∧
        ∀ output, TypeScriptEmit.emit passingStages (twoResolved "call.hold" "call.move") = .ok output →
          output.Unique) ↔
      (passingStages.Fail (twoResolved "call.hold" "call.move") ∨
          Collides GoEmit.pascalWireName (twoResolved "call.hold" "call.move") ∨
          GoEmit.Distinct (twoResolved "call.hold" "call.move")) ∧
        (passingStages.Fail (twoResolved "call.hold" "call.move") ∨
          Collides RustEmit.snakeWireName (twoResolved "call.hold" "call.move") ∨
          RustEmit.Distinct (twoResolved "call.hold" "call.move")) ∧
        (passingStages.Fail (twoResolved "call.hold" "call.move") ∨
          Collides TypeScriptEmit.memberName (twoResolved "call.hold" "call.move") ∨
          TypeScriptEmit.Distinct (twoResolved "call.hold" "call.move")) := by
  have hvalid : (twoOperations "call.hold" "call.move").validate = .ok () := rfl
  have hresolve : resolve (fun _ => .error "no fixture") (twoOperations "call.hold" "call.move") =
      .ok (twoResolved "call.hold" "call.move") := rfl
  exact identifiers_unique_iff hvalid hresolve passingStages passingStages passingStages

/-- Names that differ in a separator only, of operations of different roles: every emitter declares one constant
twice. -/
theorem separator_declared_twice :
    (twoOperations "call.move" "call_move").validate = .ok () ∧
      resolve (fun _ => .error "no fixture") (twoOperations "call.move" "call_move") =
        .ok (twoResolved "call.move" "call_move") ∧
      (∃ output, GoEmit.emit passingStages (twoResolved "call.move" "call_move") = .ok output ∧ ¬ output.Unique) ∧
      (∃ output, RustEmit.emit passingStages (twoResolved "call.move" "call_move") = .ok output ∧ ¬ output.Unique) ∧
      ∃ output, TypeScriptEmit.emit passingStages (twoResolved "call.move" "call_move") = .ok output ∧
        ¬ output.Unique := by
  refine ⟨rfl, rfl, ⟨_, rfl, fun h => ?_⟩, ⟨_, rfl, fun h => ?_⟩, ⟨_, rfl, fun h => ?_⟩⟩
  · have hnodup : ["MethodCallMove", "MethodCallMove"].Nodup := h.constants
    exact absurd hnodup (by decide)
  · have hnodup : ["METHOD_CALL_MOVE", "METHOD_CALL_MOVE", "APPLICATION_HANDLER_METHODS",
      "VOICE_HANDLER_METHODS"].Nodup := h.constants
    exact absurd hnodup (by decide)
  · have hnodup : ["DEMO_V1_CATALOG_ID", "DEMO_V1_SCHEMAS", "METHOD_CALL_MOVE", "METHOD_CALL_MOVE"].Nodup := h.types
    exact absurd hnodup (by decide)

end Rtvbp.Spec
