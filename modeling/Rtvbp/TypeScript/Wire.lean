import Rtvbp.Json.Value

/-!
# The JavaScript values of the wire

`WireEncodable` and `encodeWireJson` of `sdk/typescript/src/wire.ts`. A text is represented by the JSON
value it spells. Sharing is not modelled, so that a cycle is a reference back to an enclosing object,
which is where the encoder finds it.
-/

namespace Rtvbp.TypeScript

/-- The JavaScript numbers, as far as the encoder distinguishes them. -/
inductive JsNumber where
  | integer (n : Int)
  | negativeZero
  | fraction (bits : BitVec 64)
  | nonFinite (text : String)
  deriving DecidableEq

/-- The number with the given binary64 representation. -/
def JsNumber.ofBits (bits : BitVec 64) : JsNumber :=
  let biased := (bits.extractLsb' 52 11).toNat
  let mantissa := (bits.extractLsb' 0 52).toNat
  let significand := if biased = 0 then mantissa else mantissa + 2 ^ 52
  let exponent : Int := (if biased = 0 then 1 else biased) - 1075
  let signed (n : Nat) : Int := if bits.msb then -n else n
  if biased = 0x7ff then .nonFinite (if mantissa = 0 then "Infinity" else "NaN")
  else if significand = 0 then if bits.msb then .negativeZero else .integer 0
  else if 0 ≤ exponent then .integer (signed (significand * 2 ^ exponent.toNat))
  else if significand % 2 ^ (-exponent).toNat = 0 then
    .integer (signed (significand / 2 ^ (-exponent).toNat))
  else .fraction bits

/-- The number that a JSON number literal denotes. -/
def JsNumber.ofJson : JsonNumber → JsNumber
  | .int n => .integer n
  | .float bits => .ofBits bits

/-- A value handed to the encoder. The entries of a plain object are in the order of `Object.keys`; an
accessor property stands under its key. -/
inductive WireEncodable where
  | null
  | boolean (b : Bool)
  | number (n : JsNumber)
  | string (s : String)
  | hole
  | array (items : List WireEncodable)
  | plain (entries : List (String × WireEncodable))
  | ordered (entries : List (String × WireEncodable))
  | accessor (key : String)
  | foreignObject
  | cyclic
  | unsupported (typeof : String)

mutual

/-- `encodeValue`. -/
def encodeValue : WireEncodable → Except String Json
  | .null => .ok .null
  | .boolean b => .ok (.bool b)
  | .string s => .ok (.string s)
  | .number (.integer n) =>
    if Json.isSafeInteger n then .ok (.number (.int n))
    else .error s!"number '{n}' is not a safe JavaScript number"
  | .number .negativeZero => .error "number '0' is not a safe JavaScript number"
  | .number (.nonFinite text) => .error s!"number '{text}' is not a safe JavaScript number"
  | .number (.fraction bits) => .ok (.number (.float bits))
  | .hole => .error "sparse JSON array"
  | .accessor key => .error s!"JSON property '{key}' must not be an accessor"
  | .foreignObject => .error "JSON objects must have a plain or null prototype"
  | .cyclic => .error "cyclic JSON value"
  | .unsupported typeof => .error s!"unsupported JSON value: {typeof}"
  | .array items => (encodeItems items).map .array
  | .plain entries => (encodeEntries [] entries).map .object
  | .ordered entries => (encodeEntries [] entries).map .object

/-- The items of an array. -/
def encodeItems : List WireEncodable → Except String (List Json)
  | [] => .ok []
  | item :: items => do
    let encoded ← encodeValue item
    let rest ← encodeItems items
    return encoded :: rest

/-- The entries of an object, with the keys seen so far. -/
def encodeEntries (seenKeys : List String) :
    List (String × WireEncodable) → Except String (List (String × Json))
  | [] => .ok []
  | (key, entry) :: entries =>
    if key ∈ seenKeys then .error s!"duplicate JSON key '{key}'"
    else do
      let encoded ← encodeValue entry
      let rest ← encodeEntries (key :: seenKeys) entries
      return (key, encoded) :: rest

end

/-- `encodeWireJson`. -/
def encodeWireJson (value : WireEncodable) : Except String Json := encodeValue value

/-- A key that JavaScript enumerates as an array index: the canonical text of an integer below
`2^32 - 1`. -/
def arrayIndex (key : String) : Option Nat :=
  match key.toNat? with
  | some n => if toString n = key ∧ n < 2 ^ 32 - 1 then some n else none
  | none => none

/-- `Object.keys`: the array indices in ascending order, then the other keys in insertion order. -/
def objectKeys {α : Type} (entries : List (String × α)) : List (String × α) :=
  (entries.filter fun e => (arrayIndex e.1).isSome).mergeSort
    (fun a b => (arrayIndex a.1).getD 0 ≤ (arrayIndex b.1).getD 0) ++
  entries.filter fun e => (arrayIndex e.1).isNone

mutual

/-- The JavaScript value that the text of a JSON value parses to. -/
def parsed : Json → WireEncodable
  | .null => .null
  | .bool b => .boolean b
  | .number n => .number (.ofJson n)
  | .string s => .string s
  | .array items => .array (parsedItems items)
  | .object fields => .plain (objectKeys (parsedFields fields))

/-- `parsed` on the items of an array. -/
def parsedItems : List Json → List WireEncodable
  | [] => []
  | item :: items => parsed item :: parsedItems items

/-- `parsed` on the fields of an object. -/
def parsedFields : List (String × Json) → List (String × WireEncodable)
  | [] => []
  | (name, value) :: fields => (name, parsed value) :: parsedFields fields

end

mutual

/-- A JSON value as a caller hands it to the encoder when the field order matters: every object is a
`wireObject`. -/
def wireValue : Json → WireEncodable
  | .null => .null
  | .bool b => .boolean b
  | .number n => .number (.ofJson n)
  | .string s => .string s
  | .array items => .array (wireItems items)
  | .object fields => .ordered (wireFields fields)

/-- `wireValue` on the items of an array. -/
def wireItems : List Json → List WireEncodable
  | [] => []
  | item :: items => wireValue item :: wireItems items

/-- `wireValue` on the fields of an object. -/
def wireFields : List (String × Json) → List (String × WireEncodable)
  | [] => []
  | (name, value) :: fields => (name, wireValue value) :: wireFields fields

end

/-- The part of the JSON parser that is outside the SDK: which numbers with a fraction or an exponent
`parseNumber` accepts. -/
structure LosslessJson where
  acceptsFloat : BitVec 64 → Bool

/-- The parser that accepts a fraction whenever its binary64 value passes the checks of `parseNumber`. -/
def LosslessJson.binary64 : LosslessJson where
  acceptsFloat bits :=
    match JsNumber.ofBits bits with
    | .integer n => Json.isSafeInteger n
    | .fraction _ => true
    | .negativeZero => false
    | .nonFinite _ => false

/-- `parseNumber` accepts the number of a node. -/
def LosslessJson.acceptsNumber (json : LosslessJson) : Json → Bool
  | .number (.int n) => Json.isSafeInteger n
  | .number (.float bits) => json.acceptsFloat bits
  | _ => true

/-- `decodeWireJson`: every number has to be accepted. -/
def LosslessJson.decodeWireJson (json : LosslessJson) (value : Value) : Except String Value :=
  if value.val.everywhere json.acceptsNumber then .ok value
  else .error "JSON number is not a safe JavaScript number"

end Rtvbp.TypeScript
