import Rtvbp.Validation.Schema

/-!
# The checks of the generated validators

What the Go and the Rust emitters of `spec/crates/rtvbp-spec-gen/src/emit` have in common: `has_validation`, and
the order and the texts of the checks that `render_validation` writes. They differ in the length of a string and
in the test of a field, which are parameters here.
-/

namespace Rtvbp.Validation

/-! ## The rules of a field -/

/-- `minLength`. -/
def Schema.minLength : Schema → Option Nat
  | .string minLength => minLength
  | _ => none

/-- `minimum`. -/
def Schema.minimum : Schema → Option Literal
  | .integer minimum _ _ => minimum.map .ofInt
  | .number minimum _ => minimum
  | _ => none

/-- `x-rtvbp-nonzero`. -/
def Schema.nonzero : Schema → Bool
  | .integer _ _ nonzero => nonzero
  | _ => false

/-- The string is shorter than the bound. -/
def isShort (length : String → Nat) (bound : Nat) : Json → Bool
  | .string s => length s < bound
  | _ => false

/-- The number is less than the bound. -/
def isBelow (bound : ℚ) : Json → Bool
  | .number n => toRat n < bound
  | _ => false

def isZero : Json → Bool
  | .number n => toRat n = 0
  | _ => false

/-- The lower field is greater than the upper one; a field without a value is not compared. -/
def exceeds : Option Json → Option Json → Bool
  | some (.number lower), some (.number upper) => toRat upper < toRat lower
  | _, _ => false

/-- The value of a field that is there and not `null`. -/
def field (fields : List (String × Json)) (name : String) : Option Json :=
  (fields.lookup name).filter fun v => !isNull v

/-! ## The generated method -/

/-- A condition under which the method returns an error, and the text of the error. -/
abbrev Check := Bool × String

/-- `has_validation`. -/
def hasValidation (s : Struct) : Bool :=
  !s.fieldOrder.isEmpty ||
    s.properties.any fun p => p.schema.minLength.isSome || p.schema.minimum.isSome || p.schema.nonzero

/-- The checks of a field. `test` makes a condition on the value of the field one on the object, and is told
whether the empty value is left out. -/
def fieldChecks (length : String → Nat) (test : Bool → (Json → Bool) → Bool) (p : Property) : List Check :=
  p.schema.minLength.toList.map (fun m =>
    (test (!p.required) (isShort length m), s!"{p.name} must contain at least {m} character(s)")) ++
  p.schema.minimum.toList.map (fun m =>
    (test false (isBelow m.value), s!"{p.name} must be at least {m.text}")) ++
  if p.schema.nonzero then [(test false isZero, s!"{p.name} must be non-zero")] else []

/-- The check of an entry of `x-rtvbp-field-order`. -/
def orderCheck (value : String → Option Json) (order : String × String) : Check :=
  (exceeds (value order.1) (value order.2), s!"{order.2} must be greater than or equal to {order.1}")

/-- `render_validation`: the error that the method returns. -/
def renderValidation (length : String → Nat) (test : Property → Bool → (Json → Bool) → Bool)
    (value : String → Option Json) (s : Struct) : Option String :=
  if hasValidation s then
    let checks := s.properties.flatMap (fun p => fieldChecks length (test p) p) ++
      s.fieldOrder.map (orderCheck value)
    (checks.find? Prod.fst).map Prod.snd
  else none

theorem fieldChecks_false_iff {length : String → Nat} {test : Bool → (Json → Bool) → Bool} {p : Property} :
    (∀ check ∈ fieldChecks length test p, check.1 = false) ↔
      (∀ m ∈ p.schema.minLength, test (!p.required) (isShort length m) = false) ∧
      (∀ m ∈ p.schema.minimum, test false (isBelow m.value) = false) ∧
      (p.schema.nonzero = true → test false isZero = false) := by
  cases hnonzero : p.schema.nonzero <;> simp [fieldChecks, hnonzero, or_imp, forall_and]

/-- The method returns no error exactly when no rule of a field and no order fails. -/
theorem renderValidation_eq_none_iff {length : String → Nat} {test : Property → Bool → (Json → Bool) → Bool}
    {value : String → Option Json} {s : Struct} :
    renderValidation length test value s = none ↔
      (∀ p ∈ s.properties, (∀ m ∈ p.schema.minLength, test p (!p.required) (isShort length m) = false) ∧
        (∀ m ∈ p.schema.minimum, test p false (isBelow m.value) = false) ∧
        (p.schema.nonzero = true → test p false isZero = false)) ∧
      ∀ order ∈ s.fieldOrder, exceeds (value order.1) (value order.2) = false := by
  by_cases hvalidation : hasValidation s = true
  · simp only [renderValidation, if_pos hvalidation, Option.map_eq_none_iff, List.find?_eq_none,
      Bool.not_eq_true]
    rw [List.forall_mem_append, List.forall_mem_flatMap, List.forall_mem_map]
    exact and_congr_left fun _ => forall₂_congr fun p _ => fieldChecks_false_iff
  · have hnone := Bool.not_eq_true _ ▸ hvalidation
    simp only [hasValidation, Bool.or_eq_false_iff, Bool.not_eq_false', List.isEmpty_iff, List.any_eq_false,
      Bool.not_eq_true, Option.isSome_eq_false_iff, Option.isNone_iff_eq_none] at hnone
    simp only [renderValidation, if_neg hvalidation, true_iff]
    refine ⟨fun p hp => ?_, by simp [hnone.1]⟩
    obtain ⟨⟨hlength, hminimum⟩, hnonzero⟩ := hnone.2 p hp
    simp [hlength, hminimum, hnonzero]

end Rtvbp.Validation

/-! ## The validators of the Go and Rust emitters -/

/-!
## The validators of the Go emitter

`render_validation` of `spec/crates/rtvbp-spec-gen/src/emit/go.rs`, as the method that it writes: `Validate` of
the decoded struct. A payload type that is not a struct has no method.
-/

namespace Rtvbp.Go.Validation

open Rtvbp.Validation

/-- `len` of a string: its bytes. -/
def len (s : String) : Nat := (s.toList.map Char.utf8Size).sum

/-- The zero value of the type of a schema, where it is a string, a boolean or a number. -/
def zero : Schema → Json
  | .string _ => .string ""
  | .boolean => .bool false
  | .integer _ _ _ => .number (.int 0)
  | .number _ _ => .number (.int 0)
  | _ => .null

/-- `pointer` of a `GoField`. -/
def pointer (p : Property) : Bool := p.nullable || p.pointerHint

/-- The value of a decoded field: a pointer without a value is nil, and another field is zero. -/
def fieldValue (fields : List (String × Json)) (p : Property) : Option Json :=
  match field fields p.name with
  | some v => some v
  | none => if pointer p then none else some (zero p.schema)

def isEmpty : Json → Bool
  | .string s => s = ""
  | _ => false

/-- `guarded_condition`. -/
def guardedCondition (fields : List (String × Json)) (p : Property) (skipZero : Bool) (condition : Json → Bool) :
    Bool :=
  match fieldValue fields p with
  | none => false
  | some v =>
    if pointer p then condition v
    else if skipZero then !isEmpty v && condition v
    else condition v

/-- `Validate` of the struct that the payload decodes into, or `none` where it returns nil. -/
def validate (R : Registry) (name : String) (payload : Json) : Option String :=
  match R name, payload with
  | some (.struct s), .object fields =>
    renderValidation len (guardedCondition fields) (fun name => (s.property? name).bind (fieldValue fields)) s
  | _, _ => none

end Rtvbp.Go.Validation

/-!
## The validators of the Rust emitter

`render_validation` of `spec/crates/rtvbp-spec-gen/src/emit/rust.rs`, as the method that it writes: `validate` of
the decoded struct. The implementation for a payload type that is not a struct is the default one, which accepts.
-/

namespace Rtvbp.Rust.Validation

open Rtvbp.Validation

/-- `chars().count()`. -/
def count (s : String) : Nat := s.length

/-- The condition on a field: `is_some_and` where it is an `Option`, and else on its value. -/
def fieldCondition (fields : List (String × Json)) (p : Property) (condition : Json → Bool) : Bool :=
  (field fields p.name).any condition

/-- `validate` of the struct that the payload decodes into, or `none` where it returns `Ok`. -/
def validate (R : Registry) (name : String) (payload : Json) : Option String :=
  match R name, payload with
  | some (.struct s), .object fields =>
    renderValidation count (fun p _ condition => fieldCondition fields p condition) (field fields) s
  | _, _ => none

end Rtvbp.Rust.Validation
