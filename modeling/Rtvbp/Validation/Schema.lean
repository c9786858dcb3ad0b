import Rtvbp.TypeScript.Wire

/-!
# Payload schemas

The schemas of a catalog as the emitters of `spec/crates/rtvbp-spec-gen` take them, with the rules that
`validate_schema_node` of `spec/crates/rtvbp-spec-model/src/catalog.rs` admits: `minLength` stands on strings,
`minimum` on numbers and `x-rtvbp-nonzero` on integers, so that these rules are part of the schemas. A field
refers to a declaration by name; declarations may refer to each other, and to themselves.

`Decodes` are the payloads that the generated types of all three languages hold, and `Meets` says what the rules
mean, wherever they stand.
-/

namespace Rtvbp.Validation

open Rtvbp.TypeScript (JsNumber)

/-! ## Schemas -/

/-- A number in a schema, with the texts that `serde_json` and JavaScript write for it. -/
structure Literal where
  text : String
  script : String
  value : ℚ

def Literal.ofInt (n : Int) : Literal := { text := toString n, script := toString n, value := n }

/-- The schema of a value, apart from `null`. -/
inductive Schema where
  /-- `$ref`. -/
  | ref (name : String)
  | string (minLength : Option Nat)
  | boolean
  | integer (minimum maximum : Option Int) (nonzero : Bool)
  | number (minimum maximum : Option Literal)
  | array (items : Schema)
  /-- An object without properties, which is empty unless `additionalProperties` is true. -/
  | object (additional : Bool)
  | any

/-- A property of a declared object. -/
structure Property where
  name : String
  /-- The schema without `null`. -/
  schema : Schema
  required : Bool
  /-- The schema accepts `null`. -/
  acceptsNull : Bool
  /-- `x-rtvbp-presence` is `nullable`. -/
  nullable : Bool
  /-- `x-go-type` is `*string`. -/
  pointerHint : Bool

/-- A declared object, with `x-rtvbp-field-order` by lower and upper fields. -/
structure Struct where
  properties : List Property
  fieldOrder : List (String × String)

/-- A declaration of the catalog. -/
inductive Declaration where
  | struct (struct : Struct)
  | defined (schema : Schema)

/-- The declarations of a catalog by name. -/
abbrev Registry := String → Option Declaration

def Schema.isInteger : Schema → Bool
  | .integer _ _ _ => true
  | _ => false

def Struct.property? (s : Struct) (name : String) : Option Property :=
  s.properties.find? fun property => property.name = name

/-- The references of the schema end, so that it has a type. -/
inductive Denotes (R : Registry) : Schema → Prop where
  | struct {name : String} {s : Struct} (declared : R name = some (.struct s)) : Denotes R (.ref name)
  | defined {name : String} {schema : Schema} (declared : R name = some (.defined schema))
      (target : Denotes R schema) : Denotes R (.ref name)
  | inline {schema : Schema} (noRef : ∀ name, schema ≠ .ref name) : Denotes R schema

/-- What `resolve_field` asks of a property. -/
structure Property.Resolved (R : Registry) (p : Property) : Prop where
  denotes : Denotes R p.schema
  nullable : p.nullable = true → p.required = true
  pointer : p.pointerHint = true → p.required = false ∧ ∃ minLength, p.schema = .string minLength
  required : p.required = true → p.nullable = false → p.acceptsNull = false

/-- What the emitters and `validate_field_order` ask of a declared object. -/
structure Struct.Accepted (R : Registry) (s : Struct) : Prop where
  names : (s.properties.map Property.name).Nodup
  resolved : ∀ p ∈ s.properties, p.Resolved R
  ordered : ∀ order ∈ s.fieldOrder, order.1 ≠ order.2 ∧ ∀ name, name = order.1 ∨ name = order.2 →
    ∃ p, s.property? name = some p ∧ p.schema.isInteger = true ∧ p.required = true

/-- Every declared object of the catalog is accepted. -/
def Registry.Accepted (R : Registry) : Prop := ∀ name s, R name = some (.struct s) → s.Accepted R

/-! ## Payloads -/

/-- The value is `null`. -/
def isNull : Json → Bool
  | .null => true
  | _ => false

/-- The number that a JSON number denotes. -/
def toRat : JsonNumber → ℚ
  | .int n => n
  | .float bits =>
    let biased := (bits.extractLsb' 52 11).toNat
    let mantissa := (bits.extractLsb' 0 52).toNat
    let significand := if biased = 0 then mantissa else mantissa + 2 ^ 52
    let exponent : Int := (if biased = 0 then 1 else biased) - 1075
    (if bits.msb then -1 else 1) * significand * (2 : ℚ) ^ exponent

/-- The number is one that `decodeWireJson` takes. -/
def safeNumber (n : JsonNumber) : Bool :=
  match JsNumber.ofJson n with
  | .integer k => Json.isSafeInteger k
  | .fraction _ => true
  | _ => false

/-- Every number inside the value is one that `decodeWireJson` takes. -/
def safeValue (v : Json) : Bool :=
  v.everywhere fun node =>
    match node with
    | .number n => safeNumber n
    | _ => true

/-- The value decodes into the generated type of the schema in all three languages. A property that is required
is there, and `null` stands for one that is nullable or whose schema accepts it. -/
inductive Decodes (R : Registry) : Schema → Json → Prop where
  | struct {name : String} {s : Struct} {fields : List (String × Json)} (declared : R name = some (.struct s))
      (keys : (fields.map Prod.fst).Nodup)
      (present : ∀ p ∈ s.properties, p.required = true → (fields.lookup p.name).isSome = true)
      (properties : ∀ p ∈ s.properties, ∀ v, fields.lookup p.name = some v →
        ¬ (isNull v = true ∧ (p.nullable = true ∨ p.acceptsNull = true)) → Decodes R p.schema v) :
      Decodes R (.ref name) (.object fields)
  | defined {name : String} {schema : Schema} {v : Json} (declared : R name = some (.defined schema))
      (value : Decodes R schema v) : Decodes R (.ref name) v
  | string {minLength : Option Nat} {s : String} : Decodes R (.string minLength) (.string s)
  | boolean {b : Bool} : Decodes R .boolean (.bool b)
  | integer {minimum maximum : Option Int} {nonzero : Bool} {n : Int} (safe : Json.isSafeInteger n = true) :
      Decodes R (.integer minimum maximum nonzero) (.number (.int n))
  | number {minimum maximum : Option Literal} {n : JsonNumber} (safe : safeNumber n = true) :
      Decodes R (.number minimum maximum) (.number n)
  | array {schema : Schema} {items : List Json} (items_decode : ∀ v ∈ items, Decodes R schema v) :
      Decodes R (.array schema) (.array items)
  | object {additional : Bool} {fields : List (String × Json)} (closed : additional = false → fields = [])
      (safe : safeValue (.object fields) = true) : Decodes R (.object additional) (.object fields)
  | any {v : Json} (safe : safeValue v = true) : Decodes R .any v

/-! ## The meaning of the rules -/

/-- The number that a field holds. -/
def numberField (fields : List (String × Json)) (name : String) : Option ℚ :=
  match fields.lookup name with
  | some (.number n) => some (toRat n)
  | _ => none

/-- The fields are in the order that is asked of them. -/
def Struct.Ordered (s : Struct) (fields : List (String × Json)) : Prop :=
  ∀ order ∈ s.fieldOrder, ∀ lower upper, numberField fields order.1 = some lower →
    numberField fields order.2 = some upper → lower ≤ upper

/-- The rules of the schema are met everywhere inside the value. -/
inductive Meets (R : Registry) : Schema → Json → Prop where
  | struct {name : String} {s : Struct} {fields : List (String × Json)} (declared : R name = some (.struct s))
      (properties : ∀ p ∈ s.properties, ∀ v, fields.lookup p.name = some v →
        ¬ (isNull v = true ∧ p.acceptsNull = true) → Meets R p.schema v)
      (ordered : s.Ordered fields) : Meets R (.ref name) (.object fields)
  | defined {name : String} {schema : Schema} {v : Json} (declared : R name = some (.defined schema))
      (value : Meets R schema v) : Meets R (.ref name) v
  | string {minLength : Option Nat} {s : String} (long : ∀ m ∈ minLength, m ≤ s.length) :
      Meets R (.string minLength) (.string s)
  | boolean {b : Bool} : Meets R .boolean (.bool b)
  | integer {minimum maximum : Option Int} {nonzero : Bool} {n : Int} (above : ∀ m ∈ minimum, m ≤ n)
      (below : ∀ m ∈ maximum, n ≤ m) (zero : nonzero = true → n ≠ 0) :
      Meets R (.integer minimum maximum nonzero) (.number (.int n))
  | number {minimum maximum : Option Literal} {n : JsonNumber} (above : ∀ m ∈ minimum, m.value ≤ toRat n)
      (below : ∀ m ∈ maximum, toRat n ≤ m.value) : Meets R (.number minimum maximum) (.number n)
  | array {schema : Schema} {items : List Json} (items_meet : ∀ v ∈ items, Meets R schema v) :
      Meets R (.array schema) (.array items)
  | object {additional : Bool} {fields : List (String × Json)} : Meets R (.object additional) (.object fields)
  | any {v : Json} : Meets R .any v

variable {R : Registry} {name : String} {v : Json}

theorem meets_struct_iff {s : Struct} {fields : List (String × Json)} (declared : R name = some (.struct s)) :
    Meets R (.ref name) (.object fields) ↔
      (∀ p ∈ s.properties, ∀ v, fields.lookup p.name = some v → ¬ (isNull v = true ∧ p.acceptsNull = true) →
        Meets R p.schema v) ∧ s.Ordered fields := by
  constructor
  · intro h
    cases h with
    | struct declared' properties ordered =>
      obtain rfl : _ = s := by simpa using declared'.symm.trans declared
      exact ⟨properties, ordered⟩
    | defined declared' => simp [declared'] at declared
  · intro h
    exact .struct declared h.1 h.2

theorem not_meets_struct {s : Struct} (declared : R name = some (.struct s)) (hv : ∀ fields, v ≠ .object fields) :
    ¬ Meets R (.ref name) v := by
  intro h
  cases h with
  | struct _ _ _ => exact hv _ rfl
  | defined declared' => simp [declared'] at declared

theorem meets_defined_iff {schema : Schema} (declared : R name = some (.defined schema)) :
    Meets R (.ref name) v ↔ Meets R schema v := by
  constructor
  · intro h
    cases h with
    | struct declared' => simp [declared'] at declared
    | defined declared' value =>
      obtain rfl : _ = schema := by simpa using declared'.symm.trans declared
      exact value
  · exact .defined declared

theorem meets_array_iff {schema : Schema} {items : List Json} :
    Meets R (.array schema) (.array items) ↔ ∀ v ∈ items, Meets R schema v := by
  refine ⟨fun h => ?_, .array⟩
  cases h with
  | array items_meet => exact items_meet

theorem meets_string_iff {minLength : Option Nat} :
    Meets R (.string minLength) v ↔ ∃ s, v = .string s ∧ ∀ m ∈ minLength, m ≤ s.length := by
  constructor
  · intro h
    cases h with
    | string long => exact ⟨_, rfl, long⟩
  · rintro ⟨s, rfl, long⟩
    exact .string long

theorem meets_integer_iff {minimum maximum : Option Int} {nonzero : Bool} :
    Meets R (.integer minimum maximum nonzero) v ↔
      ∃ n : Int, v = .number (.int n) ∧ (∀ m ∈ minimum, m ≤ n) ∧ (∀ m ∈ maximum, n ≤ m) ∧
        (nonzero = true → n ≠ 0) := by
  constructor
  · intro h
    cases h with
    | integer above below zero => exact ⟨_, rfl, above, below, zero⟩
  · rintro ⟨n, rfl, above, below, zero⟩
    exact .integer above below zero

theorem meets_number_iff {minimum maximum : Option Literal} :
    Meets R (.number minimum maximum) v ↔
      ∃ n, v = .number n ∧ (∀ m ∈ minimum, m.value ≤ toRat n) ∧ ∀ m ∈ maximum, toRat n ≤ m.value := by
  constructor
  · intro h
    cases h with
    | number above below => exact ⟨_, rfl, above, below⟩
  · rintro ⟨n, rfl, above, below⟩
    exact .number above below

end Rtvbp.Validation
