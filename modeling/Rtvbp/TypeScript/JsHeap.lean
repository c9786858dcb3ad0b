import Rtvbp.Validation.Schema
import Mathlib.Logic.Relation

/-!
# JavaScript values on a heap

The JavaScript values that a caller can hand to the validators. Objects and arrays live on a heap, so that they can be
shared and can refer back to themselves; an array can have holes, and a property can be an accessor, whose getter
returns or throws the same each time.

`Reads` says which values are JSON data, and which data they are: no array has a hole, every object is an ordinary one
without accessors, and every number is one that JSON keeps.
-/

namespace Rtvbp.TypeScript.CatalogValue

/-- How a call ends without a result. -/
inductive Failure where
  | outOfFuel
  | thrown (message : String)

/-- A JavaScript value. -/
inductive JsValue where
  | null
  | boolean (b : Bool)
  | number (bits : BitVec 64)
  | string (s : String)
  /-- A function, or a primitive value of a type that JSON does not have. -/
  | unsupported (typeof : String)
  /-- An object or an array. -/
  | ref (address : Nat)
  deriving DecidableEq

/-- A property that is there: data, or an accessor with what its getter does. -/
inductive Property where
  | data (v : JsValue)
  | accessor (result : Except String JsValue)

/-- The value of a property. -/
def Property.read : Property → Except Failure JsValue
  | .data v => .ok v
  | .accessor (.ok v) => .ok v
  | .accessor (.error message) => .error (.thrown message)

/-- An object that is not an array. -/
structure JsObject where
  /-- The prototype is `Object.prototype` or `null`. -/
  plain : Bool
  /-- The entries of an object that `wireObject` made. -/
  ordered : Option (List (String × JsValue))
  /-- The enumerable properties, in the order of `Object.keys`. -/
  entries : List (String × Property)
  /-- The other properties of its own. -/
  hidden : List (String × Property)
  /-- The properties of its prototypes. -/
  inherited : String → Option Property
  keys : ((entries ++ hidden).map Prod.fst).Nodup

/-- `Object.hasOwn`, with the property. -/
def JsObject.own (o : JsObject) (name : String) : Option Property := (o.entries ++ o.hidden).lookup name

/-- The value under a name, which is `undefined` where there is no property. -/
def JsObject.get (o : JsObject) (name : String) : Except Failure JsValue :=
  match (o.own name).or (o.inherited name) with
  | some property => property.read
  | none => .ok (.unsupported "undefined")

/-- What a reference leads to. The holes of an array are the items that are not there. -/
inductive Cell where
  | array (items : List (Option Property))
  | object (o : JsObject)

/-- The objects and arrays by their addresses. -/
abbrev Heap := Nat → Cell

/-- The object or array that a value refers to. -/
def Heap.cell (H : Heap) : JsValue → Option Cell
  | .ref a => some (H a)
  | _ => none

/-- `isRecord` of a value. -/
def Heap.record (H : Heap) (v : JsValue) : Option JsObject :=
  match H.cell v with
  | some (.object o) => some o
  | _ => none

/-! ## JSON data -/

/-- An item is there, and reading it returns the value. -/
def Filled (item : Option Property) (v : JsValue) : Prop := ∃ property, item = some property ∧ property.read = .ok v

/-- The value is the JSON data. -/
inductive Reads (H : Heap) : JsValue → Json → Prop where
  | null : Reads H .null .null
  | boolean {b : Bool} : Reads H (.boolean b) (.bool b)
  | string {s : String} : Reads H (.string s) (.string s)
  | integer {bits : BitVec 64} {n : Int} (number : JsNumber.ofBits bits = .integer n)
      (safe : Json.isSafeInteger n = true) : Reads H (.number bits) (.number (.int n))
  | fraction {bits : BitVec 64} (number : JsNumber.ofBits bits = .fraction bits) :
      Reads H (.number bits) (.number (.float bits))
  | array {a : Nat} {items : List (Option Property)} {values : List JsValue} {jsons : List Json}
      (cell : H a = .array items) (filled : List.Forall₂ Filled items values)
      (length : values.length = jsons.length) (inside : ∀ pair ∈ values.zip jsons, Reads H pair.1 pair.2) :
      Reads H (.ref a) (.array jsons)
  | object {a : Nat} {o : JsObject} {values : List (String × JsValue)} {fields : List (String × Json)}
      (cell : H a = .object o) (ordinary : o.plain = true ∧ o.ordered = none)
      (data : o.entries = values.map fun entry => (entry.1, .data entry.2))
      (names : values.map Prod.fst = fields.map Prod.fst)
      (inside : ∀ pair ∈ values.zip fields, Reads H pair.1.2 pair.2.2) : Reads H (.ref a) (.object fields)

/-- The value is JSON data. -/
def IsJson (H : Heap) (v : JsValue) : Prop := ∃ json, Reads H v json

/-- The second address is an item or an enumerable data property of what is at the first. -/
inductive Inside (H : Heap) : Nat → Nat → Prop where
  | item {a b : Nat} {items : List (Option Property)} {property : Property} (cell : H a = .array items)
      (listed : some property ∈ items) (read : property.read = .ok (.ref b)) : Inside H a b
  | entry {a b : Nat} {o : JsObject} {name : String} (cell : H a = .object o)
      (listed : (name, .data (.ref b)) ∈ o.entries) : Inside H a b

/-- The value is, or has inside it, an object that `wireObject` made. -/
def Wrapped (H : Heap) (v : JsValue) : Prop :=
  ∃ a b o, v = .ref a ∧ Relation.ReflTransGen (Inside H) a b ∧ H b = .object o ∧ o.ordered.isSome = true

end Rtvbp.TypeScript.CatalogValue
