import Rtvbp.Validation.Emitters
import Rtvbp.TypeScript.Proofs.ValidationProofs

/-!
# Whether the generated validators agree

Each validator is reduced to the rules of the schema. The Rust one asks for the rules of the fields of the object
itself. The TypeScript one asks for more, the rules inside the fields; and the Go one differs in two ways from the
Rust one, since it counts the bytes of a string and checks the zero value of an absent field. The validators agree
on a payload exactly when these differences cancel out.
-/

namespace Rtvbp.Validation

open Rtvbp.TypeScript.Validation (Reports)

/-- The validators of the three languages all accept the payload, or all reject it. -/
def Agree (R : Registry) (name : String) (payload : Json) : Prop :=
  (Go.Validation.validate R name payload = none ∧ Rust.Validation.validate R name payload = none ∧
    Reports R name payload []) ∨
  (Go.Validation.validate R name payload ≠ none ∧ Rust.Validation.validate R name payload ≠ none ∧
    ∃ issues, issues ≠ [] ∧ Reports R name payload issues)

/-! ## The rules of a field -/

/-- The value keeps `minLength`, `minimum` and `x-rtvbp-nonzero` of its own schema. -/
structure Kept (schema : Schema) (v : Json) : Prop where
  minLength : ∀ m ∈ schema.minLength, isShort String.length m v = false
  minimum : ∀ m ∈ schema.minimum, isBelow m.value v = false
  nonzero : schema.nonzero = true → isZero v = false

/-- The schema without these rules. -/
def Schema.inner : Schema → Schema
  | .string _ => .string none
  | .integer _ maximum _ => .integer none maximum false
  | .number _ maximum => .number none maximum
  | schema => schema

/-- Zero breaks a rule of the schema. -/
def Schema.ZeroBreaks (schema : Schema) : Prop := (∃ m ∈ schema.minimum, 0 < m.value) ∨ schema.nonzero = true

/-- A string that is too short, although it has enough bytes or is the empty value of an optional field. -/
def Property.Unseen (p : Property) (v : Json) : Prop :=
  ∃ s m, v = .string s ∧ p.schema.minLength = some m ∧ s.length < m ∧
    (m ≤ Go.Validation.len s ∨ (p.required = false ∧ p.pointerHint = false ∧ s = ""))

/-! ## The payload as a whole -/

variable (R : Registry) (s : Struct) (fields : List (String × Json))

/-- The fields keep their own rules. -/
def Struct.Keeps : Prop := ∀ p ∈ s.properties, ∀ v, field fields p.name = some v → Kept p.schema v

/-- An optional field is absent, and zero breaks a rule of it. -/
def Struct.Trapped : Prop :=
  ∃ p ∈ s.properties, p.required = false ∧ field fields p.name = none ∧ p.schema.ZeroBreaks

/-- The rest of the schemas is met: inside references and arrays, `maximum`, and `null` where the schema takes
it. -/
def Struct.InnerMeets : Prop :=
  ∀ p ∈ s.properties, ∀ v, fields.lookup p.name = some v → ¬ (isNull v = true ∧ p.acceptsNull = true) →
    Meets R p.schema.inner v

/-- The condition of the agreement on an object. A payload that keeps the rules of its own fields meets the rest
too and leaves out no field that zero would break; and a payload that breaks a rule of its own fields leaves out
such a field, or breaks an order or a rule in a way that the bytes show. -/
structure Struct.Even : Prop where
  kept : s.Keeps fields → s.Ordered fields → ¬ s.Trapped fields ∧ s.InnerMeets R fields
  broken : ¬ (s.Keeps fields ∧ s.Ordered fields) → s.Trapped fields ∨ ¬ s.Ordered fields ∨
    ∃ p ∈ s.properties, ∃ v, field fields p.name = some v ∧ ¬ Kept p.schema v ∧ ¬ p.Unseen v

/-- The condition of the agreement. Only TypeScript checks a payload whose type is not a struct. -/
def Even (payload : Json) : Declaration → Prop
  | .defined schema => Meets R schema payload
  | .struct s => ∀ fields, payload = .object fields → s.Even R fields

end Rtvbp.Validation

/-!
## Proofs about the agreement of the validators

The Go and the Rust validator are characterised by the rules that they see, and the agreement follows by cases on
whether the payload keeps the rules of its own fields.
-/

namespace Rtvbp.Validation

open Rtvbp.TypeScript.Validation (Reports reports_of_decodes)

variable {R : Registry} {s : Struct} {fields : List (String × Json)} {p : Property}

/-! ## Decoded fields -/

theorem field_eq_some_iff {name : String} {v : Json} :
    field fields name = some v ↔ fields.lookup name = some v ∧ isNull v = false := by
  simp [field, Option.filter_eq_some_iff]

/-- A schema with a rule of its own does not take `null`. -/
theorem not_decodes_null (h : Decodes R p.schema .null) :
    p.schema.minLength = none ∧ p.schema.minimum = none ∧ p.schema.nonzero = false := by
  cases hschema : p.schema with
  | string _ => rw [hschema] at h; cases h
  | integer _ _ _ => rw [hschema] at h; cases h
  | number _ _ => rw [hschema] at h; cases h
  | _ => exact ⟨rfl, rfl, rfl⟩

/-- What decoding gives for the properties of an object. -/
structure Decoded (R : Registry) (s : Struct) (fields : List (String × Json)) : Prop where
  present : ∀ p ∈ s.properties, p.required = true → (fields.lookup p.name).isSome = true
  value : ∀ p ∈ s.properties, ∀ v, fields.lookup p.name = some v →
    ¬ (isNull v = true ∧ (p.nullable = true ∨ p.acceptsNull = true)) → Decodes R p.schema v

theorem decoded_of_decodes {name : String} (declared : R name = some (.struct s))
    (h : Decodes R (.ref name) (.object fields)) : Decoded R s fields := by
  cases h with
  | struct declared' _ present properties =>
    obtain rfl : _ = s := by simpa using declared'.symm.trans declared
    exact { present := present, value := properties }
  | defined declared' => simp [declared'] at declared

/-- A required field without a value is a nil pointer, or no rule of its own stands on it. -/
theorem Decoded.required_none (h : Decoded R s fields) (hp : p ∈ s.properties) (hres : p.Resolved R)
    (hreq : p.required = true) (hnone : field fields p.name = none) :
    p.nullable = true ∨ Decodes R p.schema .null := by
  obtain ⟨v, hv⟩ := Option.isSome_iff_exists.mp (h.present p hp hreq)
  obtain rfl : v = .null := by
    by_contra hne
    have hnotNull : isNull v = false := by cases v <;> simp_all [isNull]
    rw [field_eq_some_iff.2 ⟨hv, hnotNull⟩] at hnone
    cases hnone
  by_cases hnullable : p.nullable = true
  · exact Or.inl hnullable
  · refine Or.inr (h.value p hp _ hv ?_)
    have haccepts := hres.required hreq (by simpa using hnullable)
    simp [hnullable, haccepts]

/-! ## Orders -/

/-- The order of two fields, when both are taken as they are decoded. -/
theorem exceeds_eq_false_iff {lower upper : String} :
    exceeds (field fields lower) (field fields upper) = false ↔
      ∀ l u, numberField fields lower = some l → numberField fields upper = some u → l ≤ u := by
  have hnumber : ∀ name, (∃ n, field fields name = some (.number n) ∧ numberField fields name = some (toRat n)) ∨
      ((∀ n, field fields name ≠ some (.number n)) ∧ numberField fields name = none) := by
    intro name
    cases hlookup : fields.lookup name with
    | none => exact Or.inr (by simp [field, numberField, hlookup])
    | some v => cases v <;> simp [field, numberField, hlookup, isNull]
  obtain ⟨n, hl, hln⟩ | ⟨hl, hln⟩ := hnumber lower
  · obtain ⟨m, hu, hum⟩ | ⟨hu, hum⟩ := hnumber upper
    · simp [hl, hu, hln, hum, exceeds]
    · simp only [hl, hum, reduceCtorEq, false_implies, implies_true, iff_true]
      cases hupper : field fields upper with
      | none => rfl
      | some v => cases v <;> first | rfl | exact absurd hupper (hu _)
  · simp only [hln, reduceCtorEq, false_implies, implies_true, iff_true]
    cases hlower : field fields lower with
    | none => rfl
    | some v => cases v <;> first | rfl | exact absurd hlower (hl _)

/-! ## The Rust validator -/

theorem rust_accepts_iff {name : String} (declared : R name = some (.struct s)) :
    Rust.Validation.validate R name (.object fields) = none ↔ s.Keeps fields ∧ s.Ordered fields := by
  simp only [Rust.Validation.validate, declared, renderValidation_eq_none_iff]
  refine and_congr (forall₂_congr fun p _ => ?_) (forall₂_congr fun order _ => exceeds_eq_false_iff)
  simp only [Rust.Validation.fieldCondition]
  cases hfield : field fields p.name with
  | none => simp
  | some v =>
    simp only [Option.any_some, Option.some.injEq, forall_eq']
    exact ⟨fun h => ⟨h.1, h.2.1, h.2.2⟩, fun h => ⟨h.minLength, h.minimum, h.nonzero⟩⟩

/-! ## The Go validator -/

open Go.Validation in
theorem length_le_len (t : String) : t.length ≤ len t := by
  rw [len, ← String.length_toList]
  calc t.toList.length = (t.toList.map fun _ => 1).sum := by simp
    _ ≤ (t.toList.map Char.utf8Size).sum := List.sum_le_sum fun c _ => Char.utf8Size_pos c

open Go.Validation in
theorem guardedCondition_of_some {v : Json} {condition : Json → Bool} (hsome : field fields p.name = some v) :
    guardedCondition fields p false condition = condition v := by
  simp [guardedCondition, fieldValue, hsome]

/-- The checks of `Validate` on a field fail where the rules are broken and seen to be, or zero breaks them. -/
def GoPasses (fields : List (String × Json)) (p : Property) : Prop :=
  (∀ m ∈ p.schema.minLength,
    Go.Validation.guardedCondition fields p (!p.required) (isShort Go.Validation.len m) = false) ∧
  (∀ m ∈ p.schema.minimum, Go.Validation.guardedCondition fields p false (isBelow m.value) = false) ∧
  (p.schema.nonzero = true → Go.Validation.guardedCondition fields p false isZero = false)

open Go.Validation in
/-- The check of `minLength` on a field that is there. -/
theorem isShort_passes_iff {v : Json} {m : Nat} (hres : p.Resolved R) (hschema : p.schema.minLength = some m)
    (hsome : field fields p.name = some v) :
    guardedCondition fields p (!p.required) (isShort len m) = false ↔
      isShort String.length m v = false ∨ p.Unseen v := by
  have hpointer : (p.required = false ∧ p.pointerHint = false) ↔ (p.required = false ∧ pointer p = false) := by
    refine and_congr_right fun hoptional => ?_
    have hnullable : p.nullable = false := by
      by_contra hn
      simp [hres.nullable (by simpa using hn)] at hoptional
    simp [pointer, hnullable]
  cases v with
  | string t =>
    have hlen := length_le_len t
    have hunseen : p.Unseen (.string t) ↔ t.length < m ∧
        (m ≤ len t ∨ (p.required = false ∧ pointer p = false ∧ t = "")) := by
      rw [← and_assoc (a := p.required = false), ← hpointer, and_assoc]
      constructor
      · rintro ⟨t', m', ht, hm, h⟩
        obtain rfl : t = t' := by simpa using ht
        obtain rfl : m = m' := by simpa [hschema] using hm
        exact h
      · intro h
        exact ⟨t, m, rfl, hschema, h⟩
    rw [hunseen]
    simp only [guardedCondition, fieldValue, hsome, isShort, isEmpty]
    cases pointer p <;> cases p.required <;> by_cases hempty : t = "" <;> simp [hempty] <;> omega
  | _ => simp [guardedCondition, fieldValue, hsome, isShort]

theorem numeric_rules_of_minLength {schema : Schema} {m : Nat} (h : schema.minLength = some m) :
    schema.minimum = none ∧ schema.nonzero = false := by
  cases schema with
  | string _ => exact ⟨rfl, rfl⟩
  | _ => simp [Schema.minLength] at h

theorem goPasses_of_some {v : Json} (hres : p.Resolved R) (hsome : field fields p.name = some v) :
    GoPasses fields p ↔ Kept p.schema v ∨ p.Unseen v := by
  simp only [GoPasses, guardedCondition_of_some hsome]
  cases hschema : p.schema.minLength with
  | none =>
    have hseen : ¬ p.Unseen v := by
      rintro ⟨_, m, -, hm, -⟩
      simp [hschema] at hm
    rw [or_iff_left hseen]
    exact ⟨fun h => ⟨by simp [hschema], h.2.1, h.2.2⟩, fun h => ⟨by simp, h.minimum, h.nonzero⟩⟩
  | some m =>
    obtain ⟨hminimum, hnonzero⟩ := numeric_rules_of_minLength hschema
    have hkept : Kept p.schema v ↔ isShort String.length m v = false := by
      refine ⟨fun h => h.minLength m hschema, fun h => ⟨?_, by simp [hminimum], by simp [hnonzero]⟩⟩
      simpa [hschema] using h
    rw [hkept, ← isShort_passes_iff hres hschema hsome]
    simp [hminimum, hnonzero]

open Go.Validation in
theorem goPasses_of_none (hres : p.Resolved R) (hp : p ∈ s.properties) (hdec : Decoded R s fields)
    (hnone : field fields p.name = none) :
    GoPasses fields p ↔ ¬ (p.required = false ∧ p.schema.ZeroBreaks) := by
  by_cases hpointer : pointer p = true
  · have hpass : GoPasses fields p := by simp [GoPasses, guardedCondition, fieldValue, hnone, hpointer]
    refine iff_of_true hpass ?_
    rintro ⟨hoptional, hzero⟩
    -- an optional pointer is a string
    have hhint : p.pointerHint = true := by
      by_contra hhint
      have hnullable : p.nullable = true := by simpa [pointer, hhint] using hpointer
      rw [hres.nullable hnullable] at hoptional
      cases hoptional
    obtain ⟨-, minLength, hschema⟩ := hres.pointer hhint
    simp [Schema.ZeroBreaks, hschema, Schema.minimum, Schema.nonzero] at hzero
  · by_cases hreq : p.required = true
    · have hnull : Decodes R p.schema .null := by
        rcases hdec.required_none hp hres hreq hnone with hnullable | hnull
        · simp [pointer, hnullable] at hpointer
        · exact hnull
      obtain ⟨hlength, hminimum, hnonzero⟩ := not_decodes_null hnull
      refine iff_of_true (by simp [GoPasses, hlength, hminimum, hnonzero]) (by simp [hreq])
    · have hoptional : p.required = false := by simpa using hreq
      simp only [GoPasses, guardedCondition, fieldValue, hnone, hpointer, hoptional, Schema.ZeroBreaks]
      cases hschema : p.schema with
      | string minLength => simp [zero, isEmpty, Schema.minimum, Schema.nonzero]
      | integer minimum maximum nonzero =>
        simp [zero, isBelow, isZero, toRat, Schema.minLength, Schema.minimum, Schema.nonzero]
      | number minimum maximum =>
        simp [zero, isBelow, isZero, toRat, Schema.minLength, Schema.minimum, Schema.nonzero]
      | _ => simp [Schema.minLength, Schema.minimum, Schema.nonzero]

open Go.Validation in
/-- The order of two fields of a struct, which are required integers, as Go takes them. -/
theorem order_value (hacc : s.Accepted R) (hdec : Decoded R s fields) {order : String × String}
    (horder : order ∈ s.fieldOrder) {name : String} (hname : name = order.1 ∨ name = order.2) :
    (s.property? name).bind (fieldValue fields) = field fields name := by
  obtain ⟨p, hfind, hinteger, hreq⟩ := (hacc.ordered order horder).2 name hname
  have hp : p ∈ s.properties := List.mem_of_find?_eq_some hfind
  obtain rfl : p.name = name := by simpa using List.find?_some hfind
  rw [hfind, Option.bind_some, fieldValue]
  cases hfield : field fields p.name with
  | some v => rfl
  | none =>
    rcases hdec.required_none hp (hacc.resolved p hp) hreq hfield with hnullable | hnull
    · simp [pointer, hnullable]
    · cases hschema : p.schema with
      | integer _ _ _ => rw [hschema] at hnull; cases hnull
      | _ => simp [hschema, Schema.isInteger] at hinteger

theorem go_accepts_iff {name : String} (declared : R name = some (.struct s)) (hacc : s.Accepted R)
    (hdec : Decoded R s fields) :
    Go.Validation.validate R name (.object fields) = none ↔
      (∀ p ∈ s.properties, ∀ v, field fields p.name = some v → Kept p.schema v ∨ p.Unseen v) ∧
        ¬ s.Trapped fields ∧ s.Ordered fields := by
  simp only [Go.Validation.validate, declared, renderValidation_eq_none_iff]
  rw [← and_assoc]
  refine and_congr ?_ (forall₂_congr fun order horder => ?_)
  · have hpasses : ∀ p ∈ s.properties, GoPasses fields p ↔
        (∀ v, field fields p.name = some v → Kept p.schema v ∨ p.Unseen v) ∧
          ¬ (p.required = false ∧ field fields p.name = none ∧ p.schema.ZeroBreaks) := by
      intro p hp
      cases hfield : field fields p.name with
      | none => simp [goPasses_of_none (hacc.resolved p hp) hp hdec hfield]
      | some v => simp [goPasses_of_some (hacc.resolved p hp) hfield]
    have htrapped : ¬ s.Trapped fields ↔
        ∀ p ∈ s.properties, ¬ (p.required = false ∧ field fields p.name = none ∧ p.schema.ZeroBreaks) := by
      simp [Struct.Trapped]
    rw [htrapped, ← forall₂_and]
    exact forall₂_congr hpasses
  · rw [order_value hacc hdec horder (Or.inl rfl), order_value hacc hdec horder (Or.inr rfl)]
    exact exceeds_eq_false_iff

/-! ## The TypeScript validator -/

theorem kept_of_no_rule {schema : Schema} {v : Json} (hlength : schema.minLength = none)
    (hminimum : schema.minimum = none) (hnonzero : schema.nonzero = false) : Kept schema v where
  minLength := by simp [hlength]
  minimum := by simp [hminimum]
  nonzero := by simp [hnonzero]

theorem kept_string_iff {minLength : Option Nat} {t : String} :
    Kept (.string minLength) (.string t) ↔ ∀ m ∈ minLength, m ≤ t.length := by
  refine ⟨fun h m hm => by simpa [isShort] using h.minLength m hm, fun h => ?_⟩
  exact { minLength := fun m hm => by simpa [isShort] using h m hm
          minimum := by simp [Schema.minimum]
          nonzero := by simp [Schema.nonzero] }

theorem kept_integer_iff {minimum maximum : Option Int} {nonzero : Bool} {n : Int} :
    Kept (.integer minimum maximum nonzero) (.number (.int n)) ↔
      (∀ m ∈ minimum, m ≤ n) ∧ (nonzero = true → n ≠ 0) := by
  constructor
  · intro h
    refine ⟨fun m hm => ?_, fun hnonzero => ?_⟩
    · have hm' := h.minimum (.ofInt m) (by simpa [Schema.minimum] using ⟨m, hm, rfl⟩)
      simpa [isBelow, toRat, Literal.ofInt] using hm'
    · simpa [isZero, toRat] using h.nonzero hnonzero
  · intro h
    exact { minLength := by simp [Schema.minLength]
            minimum := by simpa [Schema.minimum, isBelow, toRat, Literal.ofInt] using h.1
            nonzero := by simpa [Schema.nonzero, isZero, toRat] using h.2 }

theorem kept_number_iff {minimum maximum : Option Literal} {n : JsonNumber} :
    Kept (.number minimum maximum) (.number n) ↔ ∀ m ∈ minimum, m.value ≤ toRat n := by
  refine ⟨fun h m hm => by simpa [isBelow] using h.minimum m hm, fun h => ?_⟩
  exact { minLength := by simp [Schema.minLength]
          minimum := fun m hm => by simpa [isBelow] using h m hm
          nonzero := by simp [Schema.nonzero] }

/-- The rules of a schema are its own ones and the rest. -/
theorem meets_iff_kept_inner {schema : Schema} {v : Json} :
    Meets R schema v ↔ Kept schema v ∧ Meets R schema.inner v := by
  cases schema with
  | string minLength =>
    simp only [Schema.inner, meets_string_iff]
    constructor
    · rintro ⟨t, rfl, h⟩
      exact ⟨kept_string_iff.2 h, t, rfl, by simp⟩
    · rintro ⟨hkept, t, rfl, -⟩
      exact ⟨t, rfl, kept_string_iff.1 hkept⟩
  | integer minimum maximum nonzero =>
    simp only [Schema.inner, meets_integer_iff]
    constructor
    · rintro ⟨n, rfl, habove, hbelow, hzero⟩
      exact ⟨kept_integer_iff.2 ⟨habove, hzero⟩, n, rfl, by simp, hbelow, by simp⟩
    · rintro ⟨hkept, n, rfl, -, hbelow, -⟩
      obtain ⟨habove, hzero⟩ := kept_integer_iff.1 hkept
      exact ⟨n, rfl, habove, hbelow, hzero⟩
  | number minimum maximum =>
    simp only [Schema.inner, meets_number_iff]
    constructor
    · rintro ⟨n, rfl, habove, hbelow⟩
      exact ⟨kept_number_iff.2 habove, n, rfl, by simp, hbelow⟩
    · rintro ⟨hkept, n, rfl, -, hbelow⟩
      exact ⟨n, rfl, kept_number_iff.1 hkept, hbelow⟩
  | _ => exact ⟨fun h => ⟨kept_of_no_rule rfl rfl rfl, h⟩, And.right⟩

/-- What the TypeScript validator asks of an object is what the Rust one does, and the rest of the schemas. -/
theorem meets_struct_iff_keeps {name : String} (declared : R name = some (.struct s)) :
    Meets R (.ref name) (.object fields) ↔ (s.Keeps fields ∧ s.Ordered fields) ∧ s.InnerMeets R fields := by
  rw [meets_struct_iff declared]
  constructor
  · rintro ⟨hprops, hordered⟩
    refine ⟨⟨fun p hp v hv => ?_, hordered⟩, fun p hp v hv hnull => ?_⟩
    · obtain ⟨hlookup, hnotNull⟩ := field_eq_some_iff.1 hv
      exact (meets_iff_kept_inner.1 (hprops p hp v hlookup (by simp [hnotNull]))).1
    · exact (meets_iff_kept_inner.1 (hprops p hp v hv hnull)).2
  · rintro ⟨⟨hkeeps, hordered⟩, hinner⟩
    refine ⟨fun p hp v hv hnull => meets_iff_kept_inner.2 ⟨?_, hinner p hp v hv hnull⟩, hordered⟩
    by_cases hisNull : isNull v = true
    · -- `null` has neither a length nor a size
      obtain rfl : v = .null := by cases v <;> simp [isNull] at hisNull ⊢
      exact ⟨fun _ _ => rfl, fun _ _ => rfl, fun _ => rfl⟩
    · exact hkeeps p hp v (field_eq_some_iff.2 ⟨hv, by simpa using hisNull⟩)

/-! ## The agreement -/

/-- Agreement in terms of what each validator asks for. -/
theorem agree_iff {name : String} {v : Json} {declaration : Declaration} (hacc : R.Accepted)
    (hdecl : R name = some declaration) (hdec : Decodes R (.ref name) v) :
    Agree R name v ↔
      (Go.Validation.validate R name v = none ∧ Rust.Validation.validate R name v = none ∧
        Meets R (.ref name) v) ∨
      (Go.Validation.validate R name v ≠ none ∧ Rust.Validation.validate R name v ≠ none ∧
        ¬ Meets R (.ref name) v) := by
  obtain ⟨issues, hreports, hissues⟩ := reports_of_decodes hacc hdecl hdec
  have hnil : Reports R name v [] ↔ Meets R (.ref name) v := by
    rw [← hissues]
    exact ⟨fun h => hreports.unique h, fun h => h ▸ hreports⟩
  have hsome : (∃ issues, issues ≠ [] ∧ Reports R name v issues) ↔ ¬ Meets R (.ref name) v := by
    rw [← hissues]
    constructor
    · rintro ⟨issues', hne, h⟩
      rwa [hreports.unique h]
    · exact fun hne => ⟨issues, hne, hreports⟩
  rw [Agree, hnil, hsome]

/-- On a payload that decodes, the three validators agree exactly when their differences cancel out. -/
theorem validators_agree_iff (R : Registry) (name : String) (v : Json) (declaration : Declaration)
    (hacc : R.Accepted) (hdecl : R name = some declaration) (hdec : Decodes R (.ref name) v) :
    Agree R name v ↔ Even R v declaration := by
  rw [agree_iff hacc hdecl hdec]
  cases declaration with
  | defined schema =>
    have hgo : Go.Validation.validate R name v = none := by simp [Go.Validation.validate, hdecl]
    have hrust : Rust.Validation.validate R name v = none := by simp [Rust.Validation.validate, hdecl]
    simp [hgo, hrust, Even, meets_defined_iff hdecl]
  | struct s =>
    obtain ⟨fields, rfl⟩ : ∃ fields, v = .object fields := by
      cases hdec with
      | struct => exact ⟨_, rfl⟩
      | defined declared => simp [declared] at hdecl
    have hdecoded := decoded_of_decodes hdecl hdec
    have hs := hacc name s hdecl
    have hEven : Even R (.object fields) (.struct s) ↔ s.Even R fields := by simp [Even]
    rw [hEven, ne_eq, ne_eq, go_accepts_iff hdecl hs hdecoded, rust_accepts_iff hdecl,
      meets_struct_iff_keeps hdecl]
    by_cases hkept : s.Keeps fields ∧ s.Ordered fields
    · have hseen : ∀ p ∈ s.properties, ∀ v, field fields p.name = some v → Kept p.schema v ∨ p.Unseen v :=
        fun p hp v hv => Or.inl (hkept.1 p hp v hv)
      constructor
      · rintro (⟨⟨-, htrapped, -⟩, -, -, hinner⟩ | ⟨-, hrust, -⟩)
        · exact { kept := fun _ _ => ⟨htrapped, hinner⟩, broken := fun h => absurd hkept h }
        · exact absurd hkept hrust
      · intro heven
        obtain ⟨htrapped, hinner⟩ := heven.kept hkept.1 hkept.2
        exact Or.inl ⟨⟨hseen, htrapped, hkept.2⟩, hkept, hkept, hinner⟩
    · constructor
      · rintro (⟨-, hrust, -⟩ | ⟨hgo, -, -⟩)
        · exact absurd hrust hkept
        · refine { kept := fun h h' => absurd ⟨h, h'⟩ hkept, broken := fun _ => ?_ }
          by_contra hnone
          push Not at hnone
          obtain ⟨htrapped, hordered, hunseen⟩ := hnone
          refine hgo ⟨fun p hp v hv => ?_, htrapped, hordered⟩
          by_cases h : Kept p.schema v
          · exact Or.inl h
          · exact Or.inr (hunseen p hp v hv h)
      · intro heven
        refine Or.inr ⟨?_, hkept, fun h => hkept h.1⟩
        rintro ⟨hseen, htrapped, hordered⟩
        rcases heven.broken hkept with h | h | ⟨p, hp, v, hv, hbroken, hunseen⟩
        · exact htrapped h
        · exact h hordered
        · exact (hseen p hp v hv).elim hbroken hunseen

/-! ## A catalog of one payload type -/

def limit : Property where
  name := "limit"
  schema := .integer (some 1) none false
  required := false
  acceptsNull := false
  nullable := false
  pointerHint := false

def page : Struct where
  properties := [limit]
  fieldOrder := []

def pageCatalog : Registry := fun name => if name = "Page" then some (.struct page) else none

theorem pageCatalog_accepted : pageCatalog.Accepted := by
  intro name s hs
  obtain ⟨-, rfl⟩ : name = "Page" ∧ page = s := by simpa [pageCatalog] using hs
  refine { names := by decide, resolved := ?_, ordered := by simp [page] }
  intro p hp
  obtain rfl : p = limit := by simpa [page] using hp
  exact { denotes := .inline (by simp [limit])
          nullable := by simp [limit]
          pointer := by simp [limit]
          required := by simp [limit] }

theorem pageCatalog_decodes {fields : List (String × Json)} (hkeys : (fields.map Prod.fst).Nodup)
    (hlimit : ∀ v, fields.lookup "limit" = some v → ∃ n : Int, v = .number (.int n) ∧ Json.isSafeInteger n = true) :
    Decodes pageCatalog (.ref "Page") (.object fields) := by
  refine .struct (s := page) (by simp [pageCatalog]) hkeys (by simp [page, limit]) ?_
  intro p hp v hv _
  obtain rfl : p = limit := by simpa [page] using hp
  obtain ⟨n, rfl, hn⟩ := hlimit v hv
  exact .integer hn

/-- The validators agree on a payload with the field. -/
theorem page_with_limit_agrees : Agree pageCatalog "Page" (.object [("limit", .number (.int 3))]) := by
  refine (validators_agree_iff pageCatalog "Page" _ (.struct page) pageCatalog_accepted (by simp [pageCatalog])
    (pageCatalog_decodes (by decide) ?_)).mpr ?_
  · intro v hv
    exact ⟨3, by simpa using hv.symm, by decide⟩
  · rintro _ ⟨rfl⟩
    have hkept : Kept limit.schema (.number (.int 3)) := kept_integer_iff.2 (by simp)
    have hlookup : ∀ v, field [("limit", Json.number (.int 3))] limit.name = some v → v = .number (.int 3) := by
      intro v hv
      simpa [limit] using (field_eq_some_iff.1 hv).1.symm
    refine { kept := fun _ _ => ⟨?_, ?_⟩, broken := fun h => absurd ⟨?_, ?_⟩ h }
    · rintro ⟨p, hp, -, hnone, -⟩
      obtain rfl : p = limit := by simpa [page] using hp
      simp [field, limit, isNull] at hnone
    · intro p hp v hv _
      obtain rfl : p = limit := by simpa [page] using hp
      obtain rfl : v = .number (.int 3) := by simpa [limit] using hv.symm
      exact (meets_iff_kept_inner.1 (meets_integer_iff.2 ⟨3, rfl, by simp⟩)).2
    · intro p hp v hv
      obtain rfl : p = limit := by simpa [page] using hp
      rw [hlookup v hv]
      exact hkept
    · simp [Struct.Ordered, page]

/-- An absent optional field with a minimum is refused by the Go validator only. -/
theorem page_without_limit_disagrees :
    pageCatalog.Accepted ∧ Decodes pageCatalog (.ref "Page") (.object []) ∧
      Go.Validation.validate pageCatalog "Page" (.object []) = some "limit must be at least 1" ∧
      Rust.Validation.validate pageCatalog "Page" (.object []) = none ∧
      Reports pageCatalog "Page" (.object []) [] ∧ ¬ Agree pageCatalog "Page" (.object []) := by
  have hgo : Go.Validation.validate pageCatalog "Page" (.object []) = some "limit must be at least 1" := by decide
  have hrust : Rust.Validation.validate pageCatalog "Page" (.object []) = none := by decide
  refine ⟨pageCatalog_accepted, pageCatalog_decodes (by decide) (by simp), hgo, hrust, ⟨1, ?_⟩, ?_⟩
  · intro fuel _
    simp [TypeScript.Validation.validateCatalogValue, pageCatalog, TypeScript.Validation.validateDeclaration, page,
      TypeScript.Validation.validateProperty, limit, TypeScript.Validation.orderIssues]
  · rintro (⟨h, -⟩ | ⟨-, h, -⟩)
    · rw [hgo] at h
      cases h
    · exact h hrust

end Rtvbp.Validation
