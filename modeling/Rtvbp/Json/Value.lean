import Rtvbp.Lib.Keys
import Mathlib.Tactic

/-!
# JSON values

The JSON values that the envelope codecs exchange. An object keeps its fields in wire order
(`serde_json` is built with `preserve_order`, and the field order of an envelope is part of the wire
contract), and `Value` are the values that a JSON library can hold: the keys of every object are distinct and
the numbers are in range.

`JsonText` is what the codecs rely on from a JSON library: the text of a value parses back to that
value.
-/

namespace Rtvbp

/-- A JSON number: an integer literal, or the bits of a binary64 value with a fraction or exponent. -/
inductive JsonNumber where
  | int (n : Int)
  | float (bits : BitVec 64)

/-- JSON syntax trees. -/
inductive Json where
  | null
  | bool (b : Bool)
  | number (n : JsonNumber)
  | string (s : String)
  | array (items : List Json)
  | object (fields : List (String × Json))

namespace Json

mutual

/-- A check made at every node of a value. -/
def everywhere (p : Json → Bool) : Json → Bool
  | .array items => p (.array items) && everywhereItems p items
  | .object fields => p (.object fields) && everywhereFields p fields
  | .null => p .null
  | .bool b => p (.bool b)
  | .number n => p (.number n)
  | .string s => p (.string s)

/-- `everywhere` on the items of an array. -/
def everywhereItems (p : Json → Bool) : List Json → Bool
  | [] => true
  | v :: vs => everywhere p v && everywhereItems p vs

/-- `everywhere` on the fields of an object. -/
def everywhereFields (p : Json → Bool) : List (String × Json) → Bool
  | [] => true
  | (_, v) :: fs => everywhere p v && everywhereFields p fs

end

theorem everywhereItems_iff {p : Json → Bool} {items : List Json} :
    everywhereItems p items = true ↔ ∀ v ∈ items, everywhere p v = true := by
  induction items with
  | nil => exact iff_of_true rfl (List.forall_mem_nil _)
  | cons v vs ih =>
    calc everywhereItems p (v :: vs) = true
        ↔ (everywhere p v && everywhereItems p vs) = true := Iff.rfl
      _ ↔ ∀ w ∈ v :: vs, everywhere p w = true := by rw [Bool.and_eq_true, ih, List.forall_mem_cons]

theorem everywhereFields_iff {p : Json → Bool} {fields : List (String × Json)} :
    everywhereFields p fields = true ↔ ∀ f ∈ fields, everywhere p f.2 = true := by
  induction fields with
  | nil => exact iff_of_true rfl (List.forall_mem_nil _)
  | cons f fs ih =>
    calc everywhereFields p (f :: fs) = true
        ↔ (everywhere p f.2 && everywhereFields p fs) = true := Iff.rfl
      _ ↔ ∀ g ∈ f :: fs, everywhere p g.2 = true := by rw [Bool.and_eq_true, ih, List.forall_mem_cons]

@[simp] theorem everywhere_object {p : Json → Bool} {fields : List (String × Json)} :
    everywhere p (.object fields) = true ↔
      p (.object fields) = true ∧ ∀ f ∈ fields, everywhere p f.2 = true := by
  calc everywhere p (.object fields) = true
      ↔ (p (.object fields) && everywhereFields p fields) = true := Iff.rfl
    _ ↔ _ := by rw [Bool.and_eq_true, everywhereFields_iff]

@[simp] theorem everywhere_array {p : Json → Bool} {items : List Json} :
    everywhere p (.array items) = true ↔
      p (.array items) = true ∧ ∀ v ∈ items, everywhere p v = true := by
  calc everywhere p (.array items) = true
      ↔ (p (.array items) && everywhereItems p items) = true := Iff.rfl
    _ ↔ _ := by rw [Bool.and_eq_true, everywhereItems_iff]

mutual

/-- A check that implies another one does so at every node. -/
theorem everywhere_mono {p q : Json → Bool} (h : ∀ v, p v = true → q v = true) :
    {v : Json} → everywhere p v = true → everywhere q v = true
  | .null, hv => h _ hv
  | .bool _, hv => h _ hv
  | .number _, hv => h _ hv
  | .string _, hv => h _ hv
  | .array items, hv => by
    simp only [everywhere, Bool.and_eq_true] at hv ⊢
    exact ⟨h _ hv.1, everywhereItems_mono h hv.2⟩
  | .object fields, hv => by
    simp only [everywhere, Bool.and_eq_true] at hv ⊢
    exact ⟨h _ hv.1, everywhereFields_mono h hv.2⟩

theorem everywhereItems_mono {p q : Json → Bool} (h : ∀ v, p v = true → q v = true) :
    {items : List Json} → everywhereItems p items = true → everywhereItems q items = true
  | [], _ => rfl
  | v :: vs, hv => by
    simp only [everywhereItems, Bool.and_eq_true] at hv ⊢
    exact ⟨everywhere_mono h hv.1, everywhereItems_mono h hv.2⟩

theorem everywhereFields_mono {p q : Json → Bool} (h : ∀ v, p v = true → q v = true) :
    {fields : List (String × Json)} → everywhereFields p fields = true →
      everywhereFields q fields = true
  | [], _ => rfl
  | (_, v) :: fs, hv => by
    simp only [everywhereFields, Bool.and_eq_true] at hv ⊢
    exact ⟨everywhere_mono h hv.1, everywhereFields_mono h hv.2⟩

end

/-- A check made at every node is made at the root. -/
theorem everywhere_self {p : Json → Bool} {v : Json} (h : v.everywhere p = true) : p v = true := by
  cases v with
  | array items => exact (everywhere_array.1 h).1
  | object fields => exact (everywhere_object.1 h).1
  | _ => exact h

/-- What a JSON library can hold at one node: the keys of an object are distinct, an integer fits in 64
bits (signed if it is negative, unsigned otherwise) and other numbers are finite. -/
def nodeWellFormed : Json → Bool
  | .object fields => decide (fields.map Prod.fst).Nodup
  | .number (.int n) => decide (-2 ^ 63 ≤ n) && decide (n < 2 ^ 64)
  | .number (.float bits) => bits.extractLsb' 52 11 != 0x7ff#11
  | _ => true

/-- Every node of the value can be held by a JSON library. -/
def wellFormed (v : Json) : Bool := v.everywhere nodeWellFormed

theorem wellFormed_object {fields : List (String × Json)} :
    (Json.object fields).wellFormed = true ↔
      (fields.map Prod.fst).Nodup ∧ ∀ f ∈ fields, f.2.wellFormed = true :=
  everywhere_object.trans (and_congr_left' decide_eq_true_iff)

@[simp] theorem wellFormed_null : Json.null.wellFormed = true := rfl

@[simp] theorem wellFormed_string (s : String) : (Json.string s).wellFormed = true := rfl

theorem wellFormed_i64 (code : Int64) : (Json.number (.int code.toInt)).wellFormed = true := by
  have hlo : -2 ^ 63 ≤ code.toInt := code.le_toInt
  have hhi : code.toInt < 2 ^ 63 := code.toInt_lt
  simp only [wellFormed, everywhere, nodeWellFormed, Bool.and_eq_true, decide_eq_true_eq]
  omega

/-- The largest integer a JavaScript number holds exactly together with its neighbours. -/
def maxSafeInteger : Int := 2 ^ 53 - 1

/-- An integer in the safe range of JavaScript numbers. -/
def isSafeInteger (n : Int) : Bool := decide (-maxSafeInteger ≤ n) && decide (n ≤ maxSafeInteger)

theorem isSafeInteger_iff {n : Int} :
    isSafeInteger n = true ↔ -(2 ^ 53 - 1) ≤ n ∧ n ≤ 2 ^ 53 - 1 := by
  rw [isSafeInteger, Bool.and_eq_true, decide_eq_true_iff, decide_eq_true_iff, maxSafeInteger]

/-- A number node is an integer literal in the safe range. -/
def numberSafe : Json → Bool
  | .number (.int n) => isSafeInteger n
  | .number (.float _) => false
  | _ => true

/-- Every number inside the value is an integer literal in the safe range. -/
def safeNumbers (v : Json) : Bool := v.everywhere numberSafe

end Json

/-- A JSON value as a JSON library holds it. -/
abbrev Value := { v : Json // v.wellFormed = true }

namespace Value

/-- The JSON `null`. -/
def null : Value := ⟨.null, Json.wellFormed_null⟩

/-- A JSON string. -/
def string (s : String) : Value := ⟨.string s, Json.wellFormed_string s⟩

/-- The value is the JSON `null`. -/
def isNull (v : Value) : Bool :=
  match v.val with
  | .null => true
  | _ => false

/-- The string held by a value, if it is one. -/
def asStr (v : Value) : Option String :=
  match v.val with
  | .string s => some s
  | _ => none

/-- The integer held by a value, if it is an integer literal that fits in 64 bits. -/
def asI64 (v : Value) : Option Int64 :=
  match v.val with
  | .number (.int n) => if -2 ^ 63 ≤ n ∧ n < 2 ^ 63 then some (Int64.ofInt n) else none
  | _ => none

@[simp] theorem asStr_string (s : String) : (string s).asStr = some s := rfl

theorem asStr_eq_some {v : Value} {s : String} : v.asStr = some s ↔ v = string s := by
  obtain ⟨v, hv⟩ := v
  cases v <;> simp [asStr, string]

@[simp] theorem isNull_null : null.isNull = true := rfl

/-- An `i64` written as a number reads back as itself. -/
theorem asI64_int (code : Int64) (h : (Json.number (.int code.toInt)).wellFormed = true) :
    asI64 ⟨.number (.int code.toInt), h⟩ = some code := by
  have hcode : -2 ^ 63 ≤ code.toInt ∧ code.toInt < 2 ^ 63 := ⟨code.le_toInt, code.toInt_lt⟩
  simp only [asI64]
  rw [if_pos hcode, Int64.ofInt_toInt]

end Value

/-- The fields of a JSON object, with distinct keys. -/
abbrev JsonMap := { fields : List (String × Json) // (Json.object fields).wellFormed = true }

/-- The object held by a value, if it is one. -/
def Value.asObject : Value → Option JsonMap
  | ⟨.object fields, h⟩ => some ⟨fields, h⟩
  | _ => none

theorem Value.asObject_val {v : Value} {m : JsonMap} (h : v.asObject = some m) :
    v.val = .object m.val := by
  obtain ⟨v, hv⟩ := v
  cases v with
  | object fields =>
    cases h
    rfl
  | _ => cases h

namespace JsonMap

/-- The value of a key. -/
def get (m : JsonMap) (name : String) : Option Value :=
  match h : m.val.lookup name with
  | none => none
  | some v => some ⟨v, by
      obtain ⟨l₁, l₂, hm, -⟩ := List.lookup_eq_some_iff.mp h
      exact (Json.wellFormed_object.1 m.property).2 (name, v) (by rw [hm]; simp)⟩

theorem get_map_val (m : JsonMap) (name : String) :
    (m.get name).map Subtype.val = m.val.lookup name := by
  unfold get
  split
  · next h => simp [h]
  · next v h => simp [h]

theorem get_eq_none_iff {m : JsonMap} {name : String} :
    m.get name = none ↔ m.val.lookup name = none := by
  rw [← get_map_val]; simp

theorem get_eq_some_iff {m : JsonMap} {name : String} {v : Value} :
    m.get name = some v ↔ m.val.lookup name = some v.val := by
  rw [← get_map_val]
  constructor
  · intro h; simp [h]
  · intro h
    obtain ⟨w, hw, hwv⟩ := Option.map_eq_some_iff.mp h
    rw [hw, Subtype.ext hwv]

/-- The keys are distinct, so every entry is found under its key. -/
theorem get_eq_some_iff_mem {m : JsonMap} {name : String} {v : Value} :
    m.get name = some v ↔ (name, v.val) ∈ m.val := by
  rw [get_eq_some_iff, Lib.lookup_eq_some_iff_mem (Json.wellFormed_object.1 m.property).1]

theorem get_eq_none_of_forall_ne {m : JsonMap} {name : String} (h : ∀ p ∈ m.val, p.1 ≠ name) :
    m.get name = none :=
  get_eq_none_iff.2 (Lib.lookup_eq_none_of_forall_ne h)

/-- What holds everywhere in an object holds everywhere in the values of its keys. -/
theorem everywhere_get {m : JsonMap} {p : Json → Bool} (h : (Json.object m.val).everywhere p = true)
    {name : String} {v : Value} (hv : m.get name = some v) : v.val.everywhere p = true :=
  (Json.everywhere_object.1 h).2 (name, v.val) (get_eq_some_iff_mem.1 hv)

end JsonMap

/-- What the codecs assume of a JSON library. -/
structure JsonText where
  /-- The texts. -/
  Text : Type
  /-- Write a value. -/
  serialize : Json → Text
  /-- Read a value. -/
  parse : Text → Option Value
  /-- The text of a value that the library can hold is read back as that value. -/
  parse_serialize : ∀ v : Value, parse (serialize v.val) = some v

/-- Texts represented by the syntax trees they spell. -/
def JsonText.trees : JsonText where
  Text := Json
  serialize := id
  parse v := if h : v.wellFormed = true then some ⟨v, h⟩ else none
  parse_serialize v := by simp [v.property]

end Rtvbp
