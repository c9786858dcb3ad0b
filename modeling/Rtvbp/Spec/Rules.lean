import Rtvbp.Spec.Resolve
import Rtvbp.Validation.Schema

/-!
# The rules of a schema

What it means that a value breaks a rule of a JSON Schema, for the keywords that the validators of the SDKs read. A
rule may be broken at the value itself, or inside it; a value is broken by alternatives if each of them is.
-/

namespace Rtvbp.Spec

open Validation (toRat)

/-- The value is of a JSON type. An integer is a number without a fraction. -/
def hasType (v : Json) (type : String) : Bool :=
  match v with
  | .null => type = "null"
  | .bool _ => type = "boolean"
  | .number n => type = "number" || (type = "integer" && (toRat n).den = 1)
  | .string _ => type = "string"
  | .array _ => type = "array"
  | .object _ => type = "object"

/-- The keyword `type` takes the value. -/
def takesType (schema v : Json) : Bool :=
  match schema.get "type" with
  | some (.string type) => hasType v type
  | some (.array types) => types.any fun type => type.asStr.any (hasType v)
  | _ => true

/-- The name that a reference to the table of schemas is for. -/
def referenceName (reference : String) : Option String :=
  (stripStart "#/schemas/".toList reference.toList).map fun name => String.ofList (unescapePointer name)

/-- The value breaks a rule of the schema. -/
inductive Breaks (schemas : Schemas) : Json → Json → Prop where
  | type {schema v : Json} (other : takesType schema v = false) : Breaks schemas schema v
  | minLength {schema : Json} {s : String} {n : Nat} (rule : (schema.get "minLength").bind Json.asU64 = some n)
      (short : s.length < n) : Breaks schemas schema (.string s)
  | minimum {schema : Json} {n bound : JsonNumber} (rule : schema.get "minimum" = some (.number bound))
      (below : toRat n < toRat bound) : Breaks schemas schema (.number n)
  | maximum {schema : Json} {n bound : JsonNumber} (rule : schema.get "maximum" = some (.number bound))
      (above : toRat bound < toRat n) : Breaks schemas schema (.number n)
  | nonzero {schema : Json} {n : JsonNumber} (rule : schema.get "x-rtvbp-nonzero" = some (.bool true))
      (zero : toRat n = 0) : Breaks schemas schema (.number n)
  | required {schema : Json} {fields : List (String × Json)} {names : List Json} {name : String}
      (rule : schema.get "required" = some (.array names)) (named : .string name ∈ names)
      (missing : fields.lookup name = none) : Breaks schemas schema (.object fields)
  | fieldOrder {schema entry : Json} {fields : List (String × Json)} {entries : List Json} {lower upper : String}
      {low high : JsonNumber} (rule : schema.get "x-rtvbp-field-order" = some (.array entries))
      (listed : entry ∈ entries) (lowerName : (entry.get "lower").bind Json.asStr = some lower)
      (upperName : (entry.get "upper").bind Json.asStr = some upper)
      (lowerValue : fields.lookup lower = some (.number low)) (upperValue : fields.lookup upper = some (.number high))
      (reversed : toRat high < toRat low) : Breaks schemas schema (.object fields)
  | property {schema rule v : Json} {fields properties : List (String × Json)} {name : String}
      (declared : schema.get "properties" = some (.object properties)) (listed : (name, rule) ∈ properties)
      (present : fields.lookup name = some v) (inside : Breaks schemas rule v) : Breaks schemas schema (.object fields)
  | items {schema rule v : Json} {items : List Json} (declared : schema.get "items" = some rule) (listed : v ∈ items)
      (inside : Breaks schemas rule v) : Breaks schemas schema (.array items)
  | reference {schema target v : Json} {reference name : String}
      (declared : schema.get "$ref" = some (.string reference)) (named : referenceName reference = some name)
      (found : schemas.lookup name = some target) (inside : Breaks schemas target v) : Breaks schemas schema v
  | anyOf {schema v : Json} {alternatives : List Json} (declared : schema.get "anyOf" = some (.array alternatives))
      (inside : ∀ alternative ∈ alternatives, Breaks schemas alternative v) : Breaks schemas schema v
  | oneOf {schema v : Json} {alternatives : List Json} (declared : schema.get "oneOf" = some (.array alternatives))
      (inside : ∀ alternative ∈ alternatives, Breaks schemas alternative v) : Breaks schemas schema v

end Rtvbp.Spec
