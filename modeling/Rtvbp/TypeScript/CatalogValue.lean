import Rtvbp.Spec.Rules
import Rtvbp.TypeScript.JsHeap
import Rtvbp.TypeScript.Validation
import Rtvbp.Lib.Agree

/-!
# Catalog values of the TypeScript SDK

`validateCatalogValue` and `serializeCatalogValue` of `sdk/typescript/src/validation.ts` and `encodeWireJson` of
`sdk/typescript/src/wire.ts`, on any JavaScript value. The schemas are the JSON objects of the registry. The three
walks take fuel, as a value can refer back to itself and a schema can refer to any other; a text is represented by the
JSON value it spells. The text of a number in a message is a parameter.
-/

namespace Rtvbp.TypeScript.CatalogValue

open Rtvbp.Validation (safeNumber toRat)
open Rtvbp.TypeScript.Validation (ValidationIssue issue)
open Json (asArray asStr)

/-! ## Schemas -/

/-- `SchemaRegistry`. -/
abbrev Registry := String → Option Value

/-- The value is the text `"null"`. -/
def isNullText (v : Json) : Bool := asStr v == some "null"

/-- A variant of `anyOf` or `oneOf` that is for `null`. -/
def isNullVariant (variant : Json) : Bool := (variant.get "type").any isNullText

/-- `isRecord` of a part of a schema. -/
def isRecord : Json → Bool
  | .object _ => true
  | _ => false

/-- `referenceName`. -/
def referenceName (reference : Option Json) : Option String := (reference.bind asStr).bind Spec.referenceName

/-- `acceptsNull`. -/
def acceptsNull (schema : Json) : Bool :=
  ((schema.get "type").bind asArray).any (fun types => types.any isNullText) ||
    ["anyOf", "oneOf"].any (fun keyword =>
      ((schema.get keyword).bind asArray).any fun variants => variants.any isNullVariant) ||
    (schema.get "type").any isNullText

/-- The only type of the list that is not `null`. -/
def soleType (schema : Json) : Option Json :=
  match ((schema.get "type").bind asArray).map (List.filter fun type => !isNullText type) with
  | some [type] => some type
  | _ => none

/-- The only variant that is not for `null`. -/
def soleVariant (schema : Json) (keyword : String) : Option Json :=
  match ((schema.get keyword).bind asArray).map (List.filter fun variant => !isNullVariant variant) with
  | some [variant] => if isRecord variant then some variant else none
  | _ => none

/-- `{ ...schema, type }`. -/
def withType (schema type : Json) : Json :=
  match schema with
  | .object fields => .object (Json.insertField fields "type" type)
  | _ => schema

/-- `nonNullSchema`. -/
def nonNullSchema (schema : Json) : Json :=
  match soleType schema with
  | some type => withType schema type
  | none => ((soleVariant schema "anyOf").or (soleVariant schema "oneOf")).getD schema

/-- The values of `type` that `validateAt` tells apart. -/
inductive SchemaType where
  | null
  | string
  | boolean
  | integer
  | number
  | array
  | object
  | absent
  | unsupported
  deriving DecidableEq

def schemaType (schema : Json) : SchemaType :=
  match schema.get "type" with
  | none => .absent
  | some (.string "null") => .null
  | some (.string "string") => .string
  | some (.string "boolean") => .boolean
  | some (.string "integer") => .integer
  | some (.string "number") => .number
  | some (.string "array") => .array
  | some (.string "object") => .object
  | some _ => .unsupported

/-- A keyword whose value is a record. -/
def recordKeyword (schema : Json) (keyword : String) : Option (List (String × Json)) :=
  (schema.get keyword).bind Json.asObject

/-- A keyword whose value is a number. -/
def numberKeyword (schema : Json) (keyword : String) : Option JsonNumber :=
  match schema.get keyword with
  | some (.number n) => some n
  | _ => none

/-! ## Numbers -/

def isNaN (n : JsonNumber) : Bool :=
  match JsNumber.ofJson n with
  | .nonFinite text => text == "NaN"
  | _ => false

/-- `<` of numbers; the infinities are beyond all other numbers. -/
def less (a b : JsonNumber) : Bool := !isNaN a && !isNaN b && decide (toRat a < toRat b)

/-- `Number.isSafeInteger`, without negative zero. -/
def isSafeInteger (bits : BitVec 64) : Bool :=
  match JsNumber.ofBits bits with
  | .integer n => Json.isSafeInteger n
  | _ => false

/-- `Number.isFinite`, without negative zero. -/
def isFinite (bits : BitVec 64) : Bool :=
  match JsNumber.ofBits bits with
  | .integer _ => true
  | .fraction _ => true
  | _ => false

/-! ## `validateCatalogValue` -/

/-- The issues of the items of a list, one after the other. -/
def collect {α : Type} (check : α → Except Failure (List ValidationIssue)) :
    List α → Except Failure (List ValidationIssue)
  | [] => .ok []
  | a :: rest => do
    let first ← check a
    let issues ← collect check rest
    return first ++ issues

/-- One item of an array, for `validateAny`. -/
def validateAnyItem (check : JsValue → String → Except Failure (List ValidationIssue)) (path : String)
    (item : Option Property × Nat) : Except Failure (List ValidationIssue) :=
  match item.1 with
  | none => .ok (issue s!"{path}[{item.2}]" "presence" "must not be sparse")
  | some property => do
    let v ← property.read
    check v s!"{path}[{item.2}]"

/-- One property of an object, for `validateAny`. -/
def validateAnyEntry (check : JsValue → String → Except Failure (List ValidationIssue)) (path : String)
    (entry : String × Property) : Except Failure (List ValidationIssue) :=
  match entry.2 with
  | .accessor _ => .ok (issue s!"{path}.{entry.1}" "object" "must not be an accessor")
  | .data v => check v s!"{path}.{entry.1}"

/-- `validateAny`. -/
def validateAny (H : Heap) : Nat → JsValue → String → Except Failure (List ValidationIssue)
  | 0, _, _ => .error .outOfFuel
  | _ + 1, .null, _ => .ok []
  | _ + 1, .string _, _ => .ok []
  | _ + 1, .boolean _, _ => .ok []
  | _ + 1, .number bits, path =>
    .ok (if safeNumber (.float bits) then [] else issue path "number" "must be a safe JSON number")
  | _ + 1, .unsupported typeof, path => .ok (issue path "type" s!"unsupported JSON value '{typeof}'")
  | fuel + 1, .ref a, path =>
    match H a with
    | .array items => collect (validateAnyItem (validateAny H fuel) path) items.zipIdx
    | .object o =>
      if o.plain then collect (validateAnyEntry (validateAny H fuel) path) o.entries
      else .ok (issue path "object" "must have a plain or null prototype")

/-- One item of an array; `forEach` leaves out what is not there. -/
def validateItem (check : JsValue → String → Except Failure (List ValidationIssue)) (path : String)
    (item : Option Property × Nat) : Except Failure (List ValidationIssue) :=
  match item.1 with
  | none => .ok []
  | some property => do
    let v ← property.read
    check v s!"{path}[{item.2}]"

/-- One declared property of an object. -/
def validateProperty (check : JsValue → Json → String → Except Failure (List ValidationIssue)) (o : JsObject)
    (required : List String) (path : String) (declared : String × Json) : Except Failure (List ValidationIssue) :=
  match o.own declared.1 with
  | none => .ok (if declared.1 ∈ required then issue s!"{path}.{declared.1}" "required" "is required" else [])
  | some property =>
    if isRecord declared.2 then do
      let v ← property.read
      check v declared.2 s!"{path}.{declared.1}"
    else .ok []

/-- The strings of `required`. -/
def requiredNames (schema : Json) : List String :=
  (((schema.get "required").bind asArray).getD []).filterMap asStr

/-- The bounds of a number. -/
def boundIssues (text : JsNumber → String) (schema : Json) (n : JsonNumber) (path : String) : List ValidationIssue :=
  (match numberKeyword schema "minimum" with
    | some m => if less n m then issue path "minimum" s!"must be at least {text (.ofJson m)}" else []
    | none => []) ++
  (match numberKeyword schema "maximum" with
    | some m => if less m n then issue path "maximum" s!"must be at most {text (.ofJson m)}" else []
    | none => []) ++
  if (schema.get "x-rtvbp-nonzero").any Json.isTrue ∧ toRat n = 0 then issue path "nonzero" "must be non-zero" else []

/-- The case of a string. -/
def validateString (text : JsNumber → String) (schema : Json) (value : JsValue) (path : String) :
    List ValidationIssue :=
  match value with
  | .string s =>
    match numberKeyword schema "minLength" with
    | some minimum =>
      if less (.int s.length) minimum then
        issue path "min_length" s!"must contain at least {text (.ofJson minimum)} characters"
      else []
    | none => []
  | _ => issue path "type" "must be a string"

/-- The case of a boolean. -/
def validateBoolean (value : JsValue) (path : String) : List ValidationIssue :=
  match value with
  | .boolean _ => []
  | _ => issue path "type" "must be a boolean"

/-- The cases of an integer and of a number, with the test that each of them makes. -/
def validateNumber (text : JsNumber → String) (test : BitVec 64 → Bool) (message : String) (schema : Json)
    (value : JsValue) (path : String) : List ValidationIssue :=
  match value with
  | .number bits => if test bits then boundIssues text schema (.float bits) path else issue path "type" message
  | _ => issue path "type" message

/-- One entry of `x-rtvbp-field-order`. -/
def orderIssues (o : JsObject) (path : String) (ordering : Json) : Except Failure (List ValidationIssue) :=
  match (ordering.get "lower").bind asStr, (ordering.get "upper").bind asStr with
  | some lowerName, some upperName => do
    let lower ← o.get lowerName
    let upper ← o.get upperName
    match lower, upper with
    | .number lower, .number upper =>
      if less (.float upper) (.float lower) then
        return issue path "field_order" s!"'{lowerName}' must be less than or equal to '{upperName}'"
      else return []
    | _, _ => return []
  | _, _ => .ok []

/-- `validateAt`. A value is a number or a record, so that the bounds and the field order are each checked where it
can be one. -/
def validateAt (H : Heap) (R : Registry) (text : JsNumber → String) :
    Nat → JsValue → Json → String → Except Failure (List ValidationIssue)
  | 0, _, _, _ => .error .outOfFuel
  | fuel + 1, value, schema, path =>
    if value = .null ∧ acceptsNull schema = true then .ok [] else
    let schema := nonNullSchema schema
    match referenceName (schema.get "$ref") with
    | some referenced =>
      match R referenced with
      | none => .ok (issue path "schema" s!"references missing schema '{referenced}'")
      | some target => validateAt H R text fuel value target.val path
    | none =>
      match schemaType schema with
      | .null => .ok (if value = .null then [] else issue path "type" "must be null")
      | .string => .ok (validateString text schema value path)
      | .boolean => .ok (validateBoolean value path)
      | .integer =>
        .ok (validateNumber text isSafeInteger "must be a safe JavaScript integer" schema value path)
      | .number => .ok (validateNumber text isFinite "must be a finite JavaScript number" schema value path)
      | .array =>
        match H.cell value with
        | some (.array items) =>
          match recordKeyword schema "items" with
          | some itemSchema =>
            collect (validateItem (fun v => validateAt H R text fuel v (.object itemSchema)) path) items.zipIdx
          | none => .ok []
        | _ => .ok (issue path "type" "must be an array")
      | .object =>
        match H.record value with
        | some o => do
          let properties := objectKeys ((recordKeyword schema "properties").getD [])
          let declared ← collect (validateProperty (validateAt H R text fuel) o (requiredNames schema) path) properties
          let order ← collect (orderIssues o path) (((schema.get "x-rtvbp-field-order").bind asArray).getD [])
          return declared ++ order
        | none => .ok (issue path "type" "must be an object")
      | .absent => validateAny H fuel value path
      | .unsupported => .ok (issue path "schema" "uses an unsupported schema shape")

/-- A value other than `null` is checked against the schema that a reference names. -/
theorem validateAt_reference {H : Heap} {R : Registry} {text : JsNumber → String} {fuel : Nat} {value : JsValue}
    {schema : Json} {path name : String} {target : Value} (hvalue : value ≠ .null)
    (named : referenceName ((nonNullSchema schema).get "$ref") = some name) (found : R name = some target) :
    validateAt H R text (fuel + 1) value schema path = validateAt H R text fuel value target.val path := by
  rw [validateAt, if_neg fun hnull => hvalue hnull.1]
  simp only [named, found]

/-- `validateCatalogValue`. -/
def validateCatalogValue (H : Heap) (R : Registry) (text : JsNumber → String) (fuel : Nat) (value : JsValue)
    (schemaName : String) : Except Failure (List ValidationIssue) :=
  match R schemaName with
  | none => .ok (issue "$" "schema" s!"missing schema '{schemaName}'")
  | some schema => validateAt H R text fuel value schema.val "$"

/-! ## `serializeCatalogValue` -/

/-- The message of `ProtocolValidationError`. -/
def ProtocolValidationError (issues : List ValidationIssue) : Failure :=
  .thrown (if issues.length = 0 then "protocol validation failed"
    else "; ".intercalate (issues.map fun issue => s!"{issue.path}: {issue.message}"))

/-- `assertCatalogValue`. -/
def assertCatalogValue (H : Heap) (R : Registry) (text : JsNumber → String) (fuel : Nat) (value : JsValue)
    (schemaName : String) : Except Failure Unit := do
  let issues ← validateCatalogValue H R text fuel value schemaName
  if issues.length ≠ 0 then .error (ProtocolValidationError issues) else .ok ()

/-- What the serializer returns: a value as it is, the new array of `map`, or a `wireObject`. -/
inductive WireEncodable where
  | value (v : JsValue)
  | array (items : List (Option WireEncodable))
  | ordered (entries : List (String × WireEncodable))

/-- The UTF-16 code units of a string. -/
def codeUnits (s : String) : List Nat :=
  s.toList.flatMap fun c =>
    if c.toNat < 0x10000 then [c.toNat]
    else [0xd800 + (c.toNat - 0x10000) / 0x400, 0xdc00 + (c.toNat - 0x10000) % 0x400]

/-- `wireMap`. -/
def wireMap (o : JsObject) : Except Failure WireEncodable := do
  let sorted := o.entries.mergeSort fun a b => decide (codeUnits a.1 ≤ codeUnits b.1)
  let entries ← sorted.mapM fun entry => do
    let v ← entry.2.read
    return (entry.1, WireEncodable.value v)
  return .ordered entries

/-- One item of `map`, which keeps what is not there. -/
def serializeItem (serialize : JsValue → Except Failure WireEncodable) :
    Option Property → Except Failure (Option WireEncodable)
  | none => .ok none
  | some property => do
    let v ← property.read
    let serialized ← serialize v
    return some serialized

/-- The loop over the declared properties. -/
def serializeProperties (serialize : JsValue → Json → Except Failure WireEncodable) (o : JsObject) :
    List (String × Json) → Except Failure (List (String × WireEncodable))
  | [] => .ok []
  | (name, child) :: properties =>
    match o.own name with
    | some property =>
      if isRecord child then do
        let v ← property.read
        let serialized ← serialize v child
        let entries ← serializeProperties serialize o properties
        return (name, serialized) :: entries
      else serializeProperties serialize o properties
    | none => serializeProperties serialize o properties

/-- `serializeAt`. -/
def serializeAt (H : Heap) (R : Registry) : Nat → JsValue → Json → Except Failure WireEncodable
  | 0, _, _ => .error .outOfFuel
  | fuel + 1, value, schema =>
    if value = .null then .ok (.value .null) else
    let schema := nonNullSchema schema
    match referenceName (schema.get "$ref") with
    | some referenced =>
      match R referenced with
      | none => .error (ProtocolValidationError (issue "$" "schema" s!"missing schema '{referenced}'"))
      | some target => serializeAt H R fuel value target.val
    | none =>
      match schemaType schema, H.cell value with
      | .array, some (.array items) =>
        match recordKeyword schema "items" with
        | some itemSchema => do
          let serialized ← items.mapM (serializeItem fun v => serializeAt H R fuel v (.object itemSchema))
          return .array serialized
        | none => .ok (.value value)
      | .object, some (.object o) =>
        match recordKeyword schema "properties" with
        | some properties => do
          let entries ← serializeProperties (serializeAt H R fuel) o (objectKeys properties)
          return .ordered entries
        | none => if (schema.get "additionalProperties").any Json.isTrue then wireMap o else .ok (.ordered [])
      | _, _ => .ok (.value value)

/-- A value other than `null` is serialized under the schema that a reference names. -/
theorem serializeAt_reference {H : Heap} {R : Registry} {fuel : Nat} {value : JsValue} {schema : Json} {name : String}
    {target : Value} (hvalue : value ≠ .null) (named : referenceName ((nonNullSchema schema).get "$ref") = some name)
    (found : R name = some target) : serializeAt H R (fuel + 1) value schema = serializeAt H R fuel value target.val := by
  rw [serializeAt, if_neg hvalue]
  simp only [named, found]

/-- `serializeCatalogValue`. -/
def serializeCatalogValue (H : Heap) (R : Registry) (text : JsNumber → String) (fuel : Nat) (value : JsValue)
    (schemaName : String) : Except Failure WireEncodable := do
  assertCatalogValue H R text fuel value schemaName
  match R schemaName with
  | none => .error (.thrown "Cannot read properties of undefined")
  | some schema => serializeAt H R fuel value schema.val

/-! ## `encodeWireJson` and `decodeWireJson` -/

/-- `encodeValue` of a number. -/
def encodeNumber (text : JsNumber → String) (bits : BitVec 64) : Except Failure Json :=
  match JsNumber.ofBits bits with
  | .integer n =>
    if Json.isSafeInteger n then .ok (.number (.int n))
    else .error (.thrown s!"number '{text (.integer n)}' is not a safe JavaScript number")
  | .fraction bits => .ok (.number (.float bits))
  | n => .error (.thrown s!"number '{text n}' is not a safe JavaScript number")

/-- One item of an array. -/
def encodeItem {α : Type} (encode : α → Except Failure Json) : Option α → Except Failure Json
  | none => .error (.thrown "sparse JSON array")
  | some item => encode item

/-- The value of an enumerable property, which must not be an accessor. -/
def plainEntry (entry : String × Property) : Except Failure (String × JsValue) :=
  match entry.2 with
  | .data v => .ok (entry.1, v)
  | .accessor _ => .error (.thrown s!"JSON property '{entry.1}' must not be an accessor")

/-- The entries of an object, with the keys seen so far. -/
def encodeEntries {α : Type} (encode : α → Except Failure Json) (seenKeys : List String) :
    List (String × α) → Except Failure (List (String × Json))
  | [] => .ok []
  | (key, entry) :: entries =>
    if key ∈ seenKeys then .error (.thrown s!"duplicate JSON key '{key}'")
    else do
      let encoded ← encode entry
      let rest ← encodeEntries encode (key :: seenKeys) entries
      return (key, encoded) :: rest

/-- `encodeValue`. What the serializer has built is new, so that only the objects and arrays of the caller can be
among their own ancestors. -/
def encodeValue (H : Heap) (text : JsNumber → String) : Nat → List Nat → WireEncodable → Except Failure Json
  | 0, _, _ => .error .outOfFuel
  | _ + 1, _, .value .null => .ok .null
  | _ + 1, _, .value (.string s) => .ok (.string s)
  | _ + 1, _, .value (.boolean b) => .ok (.bool b)
  | _ + 1, _, .value (.number bits) => encodeNumber text bits
  | _ + 1, _, .value (.unsupported typeof) => .error (.thrown s!"unsupported JSON value: {typeof}")
  | fuel + 1, ancestors, .value (.ref a) =>
    if a ∈ ancestors then .error (.thrown "cyclic JSON value") else
    let encode (v : JsValue) := encodeValue H text fuel (a :: ancestors) (.value v)
    match H a with
    | .array items => do
      let encoded ← items.mapM (encodeItem fun property => do
        let v ← property.read
        encode v)
      return .array encoded
    | .object o =>
      match o.ordered with
      | some entries => do
        let encoded ← encodeEntries encode [] entries
        return .object encoded
      | none =>
        if o.plain then do
          let entries ← o.entries.mapM plainEntry
          let encoded ← encodeEntries encode [] entries
          return .object encoded
        else .error (.thrown "JSON objects must have a plain or null prototype")
  | fuel + 1, ancestors, .array items => do
    let encoded ← items.mapM (encodeItem (encodeValue H text fuel ancestors))
    return .array encoded
  | fuel + 1, ancestors, .ordered entries => do
    let encoded ← encodeEntries (encodeValue H text fuel ancestors) [] entries
    return .object encoded

/-- `encodeWireJson`. -/
def encodeWireJson (H : Heap) (text : JsNumber → String) (fuel : Nat) (value : WireEncodable) : Except Failure Json :=
  encodeValue H text fuel [] value

/-- `decodeWireJson` of a text. -/
def decodeWireJson (json : LosslessJson) (bytes : Json) : Except String Value :=
  match JsonText.trees.parse bytes with
  | some value => json.decodeWireJson value
  | none => .error "invalid RTVBP JSON"

end Rtvbp.TypeScript.CatalogValue

/-!
## What a catalog value becomes on the wire

A schema says which parts of a value are on the wire. `Shows` relates a value to the JSON data that stands for it: of
a declared object only the declared properties are kept, of an open object every entry, and everything else is kept as
it is.

`Gap` are the values that the validator takes although the encoder does not, or encodes as something else. They are
where the validator does not look (inside an array without a schema for its items, or inside an open object), and
where it is laxer than the encoder.
-/

namespace Rtvbp.TypeScript.CatalogValue

open Rtvbp.Lib

/-- What a schema says of the parts of a value. -/
inductive Rule where
  /-- It is another schema of the registry. -/
  | reference (name : String)
  /-- The value has no parts, or they are not described. -/
  | whole (type : SchemaType)
  | items (schema : Json)
  /-- The properties that are declared by a record, which are the ones that the validator understands. -/
  | properties (declared : List (String × Json))
  /-- Any entry is allowed. -/
  | openMap
  | closed

/-- The rule of a schema, apart from `null`. -/
def ruleOf (schema : Json) : Rule :=
  let schema := nonNullSchema schema
  match referenceName (schema.get "$ref") with
  | some name => .reference name
  | none =>
    match schemaType schema with
    | .array =>
      match recordKeyword schema "items" with
      | some itemSchema => .items (.object itemSchema)
      | none => .whole .array
    | .object =>
      match recordKeyword schema "properties" with
      | some declared => .properties (declared.filter fun property => isRecord property.2)
      | none => if (schema.get "additionalProperties").any Json.isTrue then .openMap else .closed
    | type => .whole type

/-- The JSON data is the value, with every object restricted to what its schema keeps. -/
inductive Shows (H : Heap) (R : Registry) : Json → JsValue → Json → Prop where
  | null {schema : Json} : Shows H R schema .null .null
  | reference {schema : Json} {name : String} {target : Value} {v : JsValue} {json : Json}
      (rule : ruleOf schema = .reference name) (found : R name = some target)
      (inside : Shows H R target.val v json) : Shows H R schema v json
  | whole {schema : Json} {type : SchemaType} {v : JsValue} {json : Json} (rule : ruleOf schema = .whole type)
      (reads : Reads H v json) : Shows H R schema v json
  | items {schema child : Json} {a : Nat} {items : List (Option Property)} {values : List JsValue}
      {jsons : List Json} (rule : ruleOf schema = .items child) (cell : H a = .array items)
      (filled : List.Forall₂ Filled items values) (length : values.length = jsons.length)
      (inside : ∀ pair ∈ values.zip jsons, Shows H R child pair.1 pair.2) : Shows H R schema (.ref a) (.array jsons)
  | properties {schema : Json} {declared : List (String × Json)} {a : Nat} {o : JsObject}
      {fields : List (String × Json)} (rule : ruleOf schema = .properties declared) (cell : H a = .object o)
      (names : ∀ name, name ∈ fields.map Prod.fst ↔ name ∈ declared.map Prod.fst ∧ (o.own name).isSome = true)
      (inside : ∀ name child property v json, (name, child) ∈ declared → o.own name = some property →
        property.read = .ok v → (name, json) ∈ fields → Shows H R child v json) :
      Shows H R schema (.ref a) (.object fields)
  | openMap {schema : Json} {a : Nat} {o : JsObject} {fields : List (String × Json)}
      (rule : ruleOf schema = .openMap) (cell : H a = .object o)
      (names : ∀ name, name ∈ fields.map Prod.fst ↔ name ∈ o.entries.map Prod.fst)
      (inside : ∀ name property json, (name, property) ∈ o.entries → (name, json) ∈ fields →
        ∃ v, property.read = .ok v ∧ Reads H v json) : Shows H R schema (.ref a) (.object fields)
  | closed {schema : Json} {a : Nat} {o : JsObject} (rule : ruleOf schema = .closed) (cell : H a = .object o) :
      Shows H R schema (.ref a) (.object [])

/-- Somewhere in the value is something that the validator takes and the encoder does not keep. -/
inductive Gap (H : Heap) (R : Registry) : Json → JsValue → Prop where
  | reference {schema : Json} {name : String} {target : Value} {v : JsValue} (rule : ruleOf schema = .reference name)
      (found : R name = some target) (inside : Gap H R target.val v) : Gap H R schema v
  /-- A number that is an integer, but not a safe one. -/
  | number {schema : Json} {bits : BitVec 64} {n : Int} (rule : ruleOf schema = .whole .number)
      (integer : JsNumber.ofBits bits = .integer n) (large : Json.isSafeInteger n = false) :
      Gap H R schema (.number bits)
  /-- An object that `wireObject` made. -/
  | wrapped {schema : Json} {v : JsValue} (rule : ruleOf schema = .whole .absent) (inside : Wrapped H v) :
      Gap H R schema v
  /-- An array that is not described and not JSON data. -/
  | list {schema : Json} {v : JsValue} (rule : ruleOf schema = .whole .array) (other : ¬ IsJson H v) :
      Gap H R schema v
  /-- A hole of an array. -/
  | hole {schema child : Json} {a : Nat} {items : List (Option Property)} (rule : ruleOf schema = .items child)
      (cell : H a = .array items) (listed : none ∈ items) : Gap H R schema (.ref a)
  | item {schema child : Json} {a : Nat} {items : List (Option Property)} {property : Property} {v : JsValue}
      (rule : ruleOf schema = .items child) (cell : H a = .array items) (listed : some property ∈ items)
      (read : property.read = .ok v) (inside : Gap H R child v) : Gap H R schema (.ref a)
  | property {schema child : Json} {declared : List (String × Json)} {a : Nat} {o : JsObject} {name : String}
      {property : Property} {v : JsValue} (rule : ruleOf schema = .properties declared) (cell : H a = .object o)
      (listed : (name, child) ∈ declared) (own : o.own name = some property) (read : property.read = .ok v)
      (inside : Gap H R child v) : Gap H R schema (.ref a)
  /-- An entry of an open object that is not JSON data. -/
  | entry {schema : Json} {a : Nat} {o : JsObject} {name : String} {property : Property}
      (rule : ruleOf schema = .openMap) (cell : H a = .object o) (listed : (name, property) ∈ o.entries)
      (other : ∀ v, property.read = .ok v → ¬ IsJson H v) : Gap H R schema (.ref a)

/-- The call returns the result. -/
def ReturnsOk {α : Type} (run : Nat → Except Failure α) (a : α) : Prop := Returns (fun fuel => (run fuel).toOption) a

/-- The validator returns no issue. -/
def Validates (H : Heap) (R : Registry) (text : JsNumber → String) (value : JsValue) (schemaName : String) : Prop :=
  ReturnsOk (fun fuel => validateCatalogValue H R text fuel value schemaName) []

/-- The value is serialized, encoded and decoded, and shows what its schema keeps of it. -/
def RoundTrips (H : Heap) (R : Registry) (text : JsNumber → String) (json : LosslessJson) (value : JsValue)
    (schemaName : String) : Prop :=
  ∃ schema serialized bytes decoded, R schemaName = some schema ∧
    ReturnsOk (fun fuel => serializeCatalogValue H R text fuel value schemaName) serialized ∧
    ReturnsOk (fun fuel => encodeWireJson H text fuel serialized) bytes ∧
    decodeWireJson json bytes = .ok decoded ∧ Shows H R schema.val value decoded.val

end Rtvbp.TypeScript.CatalogValue
