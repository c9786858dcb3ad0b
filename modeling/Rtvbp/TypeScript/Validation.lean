import Rtvbp.Validation.Schema
import Rtvbp.Lib.Agree

/-!
# The validator of the TypeScript SDK

`sdk/typescript/src/validation.ts`, which interprets the schemas while it runs, on what `decodeWireJson` returns
for a text. References may lead anywhere, so that `validateAt` takes fuel.
-/

namespace Rtvbp.TypeScript.Validation

open Rtvbp.Validation Rtvbp.Lib

/-- `ValidationIssue`. -/
structure ValidationIssue where
  path : String
  rule : String
  message : String

def issue (path rule message : String) : List ValidationIssue :=
  [{ path := path, rule := rule, message := message }]

mutual

/-- `validateAny`, on what a text decodes to: nothing is sparse, an accessor or foreign. -/
def validateAny (path : String) : Json → List ValidationIssue
  | .null => []
  | .bool _ => []
  | .string _ => []
  | .number n => if safeNumber n then [] else issue path "number" "must be a safe JSON number"
  | .array items => validateItems path 0 items
  | .object fields => (objectKeys (validateEntries path fields)).flatMap Prod.snd

/-- The items of an array, from an index on. -/
def validateItems (path : String) (index : Nat) : List Json → List ValidationIssue
  | [] => []
  | item :: items => validateAny s!"{path}[{index}]" item ++ validateItems path (index + 1) items

/-- The issues of the entries of an object, by their keys. -/
def validateEntries (path : String) : List (String × Json) → List (String × List ValidationIssue)
  | [] => []
  | (key, v) :: fields => (key, validateAny s!"{path}.{key}" v) :: validateEntries path fields

end

/-- The bounds of a number: `minimum`, `maximum` and `x-rtvbp-nonzero`. -/
def boundIssues (value : ℚ) (minimum maximum : Option Literal) (nonzero : Bool) (path : String) :
    List ValidationIssue :=
  (match minimum with
    | some m => if value < m.value then issue path "minimum" s!"must be at least {m.script}" else []
    | none => []) ++
  (match maximum with
    | some m => if m.value < value then issue path "maximum" s!"must be at most {m.script}" else []
    | none => []) ++
  if nonzero = true ∧ value = 0 then issue path "nonzero" "must be non-zero" else []

/-- The issues of `x-rtvbp-field-order`. -/
def orderIssues (s : Struct) (fields : List (String × Json)) (path : String) : List ValidationIssue :=
  s.fieldOrder.flatMap fun order =>
    match numberField fields order.1, numberField fields order.2 with
    | some lower, some upper =>
      if upper < lower then
        issue path "field_order" s!"'{order.1}' must be less than or equal to '{order.2}'"
      else []
    | _, _ => []

/-- A property of an object: it is there if it is required, `null` if the schema accepts that, or else valid. -/
def validateProperty (check : Json → Schema → String → Option (List ValidationIssue))
    (fields : List (String × Json)) (path : String) (p : Property) : Option (List ValidationIssue) :=
  match fields.lookup p.name with
  | none => some (if p.required then issue s!"{path}.{p.name}" "required" "is required" else [])
  | some v => if isNull v && p.acceptsNull then some [] else check v p.schema s!"{path}.{p.name}"

/-- `validateAt` for a declaration, which calls itself by `check`. -/
def validateDeclaration (check : Json → Schema → String → Option (List ValidationIssue)) (value : Json)
    (path : String) : Declaration → Option (List ValidationIssue)
  | .defined schema => check value schema path
  | .struct s =>
    match value with
    | .object fields =>
      (s.properties.mapM (validateProperty check fields path)).map fun issues =>
        issues.flatten ++ orderIssues s fields path
    | _ => some (issue path "type" "must be an object")

/-- `validateAt`. -/
def validateAt (R : Registry) : Nat → Json → Schema → String → Option (List ValidationIssue)
  | 0, _, _, _ => none
  | fuel + 1, value, .ref name, path =>
    match R name with
    | none => some (issue path "schema" s!"references missing schema '{name}'")
    | some target => validateDeclaration (validateAt R fuel) value path target
  | _ + 1, value, .string minLength, path =>
    match value, minLength with
    | .string s, some m =>
      some (if s.length < m then issue path "min_length" s!"must contain at least {m} characters" else [])
    | .string _, none => some []
    | _, _ => some (issue path "type" "must be a string")
  | _ + 1, value, .boolean, path =>
    match value with
    | .bool _ => some []
    | _ => some (issue path "type" "must be a boolean")
  | _ + 1, value, .integer minimum maximum nonzero, path =>
    match value with
    | .number n =>
      match JsNumber.ofJson n with
      | .integer k =>
        if Json.isSafeInteger k then
          some (boundIssues k (minimum.map .ofInt) (maximum.map .ofInt) nonzero path)
        else some (issue path "type" "must be a safe JavaScript integer")
      | _ => some (issue path "type" "must be a safe JavaScript integer")
    | _ => some (issue path "type" "must be a safe JavaScript integer")
  | _ + 1, value, .number minimum maximum, path =>
    match value with
    | .number n =>
      match JsNumber.ofJson n with
      | .negativeZero => some (issue path "type" "must be a finite JavaScript number")
      | .nonFinite _ => some (issue path "type" "must be a finite JavaScript number")
      | _ => some (boundIssues (toRat n) minimum maximum false path)
    | _ => some (issue path "type" "must be a finite JavaScript number")
  | fuel + 1, value, .array items, path =>
    match value with
    | .array vs =>
      (vs.zipIdx.mapM fun item => validateAt R fuel item.1 items s!"{path}[{item.2}]").map List.flatten
    | _ => some (issue path "type" "must be an array")
  | _ + 1, value, .object _, path =>
    match value with
    | .object _ => some []
    | _ => some (issue path "type" "must be an object")
  | _ + 1, value, .any, path => some (validateAny path value)

/-- `validateCatalogValue`. -/
def validateCatalogValue (R : Registry) (fuel : Nat) (value : Json) (schemaName : String) :
    Option (List ValidationIssue) :=
  match R schemaName with
  | none => some (issue "$" "schema" s!"missing schema '{schemaName}'")
  | some schema => validateDeclaration (validateAt R fuel) value "$" schema

/-- The validator returns the issues. -/
def Reports (R : Registry) (schemaName : String) (value : Json) (issues : List ValidationIssue) : Prop :=
  Returns (fun fuel => validateCatalogValue R fuel value schemaName) issues

end Rtvbp.TypeScript.Validation
