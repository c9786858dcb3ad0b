import Rtvbp.Json.Value

/-!
# Reading and comparing JSON values

The methods of `serde_json::Value` that read a value, `Map::insert`, and the comparison of two values, for which the
order of the keys does not matter.
-/

namespace Rtvbp

/-- `PartialEq` of numbers: two integers, or two binary64 values, of which there are two zeros. -/
def JsonNumber.same : JsonNumber → JsonNumber → Bool
  | .int n, .int m => n == m
  | .float bits, .float bits' => bits == bits' || (bits.extractLsb' 0 63 == 0 && bits'.extractLsb' 0 63 == 0)
  | _, _ => false

namespace Json

mutual

/-- `PartialEq` of values. -/
def same : Json → Json → Bool
  | .null, .null => true
  | .bool b, .bool b' => b == b'
  | .number n, .number n' => n.same n'
  | .string s, .string s' => s == s'
  | .array items, .array items' => sameItems items items'
  | .object fields, .object fields' => fields.length == fields'.length && sameFields fields fields'
  | _, _ => false

/-- `same` on the items of two arrays. -/
def sameItems : List Json → List Json → Bool
  | [], [] => true
  | v :: vs, w :: ws => same v w && sameItems vs ws
  | _, _ => false

/-- Each of the fields is a field of the other object. -/
def sameFields : List (String × Json) → List (String × Json) → Bool
  | [], _ => true
  | (name, v) :: fields, others =>
    (match others.lookup name with
      | some w => same v w
      | none => false) && sameFields fields others

end

/-- Two arrays are compared item by item. -/
theorem same_array {items others : List Json} : same (.array items) (.array others) = sameItems items others := by
  rw [same]

/-- `get` of a key. -/
def get (v : Json) (name : String) : Option Json :=
  match v with
  | .object fields => fields.lookup name
  | _ => none

/-- `as_object`. -/
def asObject : Json → Option (List (String × Json))
  | .object fields => some fields
  | _ => none

/-- `as_array`. -/
def asArray : Json → Option (List Json)
  | .array items => some items
  | _ => none

/-- `as_str`. -/
def asStr : Json → Option String
  | .string s => some s
  | _ => none

/-- `is_number`. -/
def isNumber : Json → Bool
  | .number _ => true
  | _ => false

/-- The value is `true`. -/
def isTrue : Json → Bool
  | .bool b => b
  | _ => false

/-- `as_u64`. -/
def asU64 : Json → Option Nat
  | .number (.int n) => if 0 ≤ n ∧ n < 2 ^ 64 then some n.toNat else none
  | _ => none

/-- `as_i64`. -/
def asI64 : Json → Option Int
  | .number (.int n) => if -2 ^ 63 ≤ n ∧ n < 2 ^ 63 then some n else none
  | _ => none

/-- `Map::insert`: the value of a key that is there is replaced. -/
def insertField : List (String × Json) → String → Json → List (String × Json)
  | [], name, v => [(name, v)]
  | (name', w) :: fields, name, v =>
    if name' = name then (name, v) :: fields else (name', w) :: insertField fields name v

variable {fields : List (String × Json)} {name other : String} {v : Json}

@[simp] theorem insertField_nil : insertField [] name v = [(name, v)] := rfl

theorem insertField_cons {field : String × Json} :
    insertField (field :: fields) name v =
      if field.1 = name then (name, v) :: fields else field :: insertField fields name v := rfl

theorem lookup_insertField :
    (insertField fields name v).lookup other = if other = name then some v else fields.lookup other := by
  induction fields with
  | nil =>
    by_cases hother : other = name
    · simp [hother]
    · have hfalse : (other == name) = false := by simpa using hother
      simp [List.lookup_cons, hfalse, hother]
  | cons field fields ih =>
    rcases field with ⟨key, w⟩
    rw [insertField_cons]
    by_cases hkey : key = name
    · subst hkey
      rw [if_pos rfl, List.lookup_cons, List.lookup_cons]
      by_cases hother : other = key
      · simp [hother]
      · have hfalse : (other == key) = false := by simpa using hother
        simp [hfalse, hother]
    · rw [if_neg hkey, List.lookup_cons, List.lookup_cons, ih]
      by_cases hother : other = key
      · subst hother
        simp [hkey]
      · have hfalse : (other == key) = false := by simpa using hother
        simp [hfalse]

theorem mem_insertField {field : String × Json} (h : field ∈ insertField fields name v) :
    field = (name, v) ∨ field ∈ fields := by
  induction fields with
  | nil =>
    left
    simpa using h
  | cons first fields ih =>
    rw [insertField_cons] at h
    split at h
    · rcases List.mem_cons.mp h with h | h
      · exact Or.inl h
      · exact Or.inr (List.mem_cons_of_mem _ h)
    · rcases List.mem_cons.mp h with h | h
      · exact Or.inr (h ▸ List.mem_cons_self)
      · rcases ih h with h | h
        · exact Or.inl h
        · exact Or.inr (List.mem_cons_of_mem _ h)

theorem nodup_insertField (h : (fields.map Prod.fst).Nodup) :
    ((insertField fields name v).map Prod.fst).Nodup := by
  induction fields with
  | nil => simp
  | cons first fields ih =>
    rw [List.map_cons, List.nodup_cons] at h
    rw [insertField_cons]
    split
    · next hname =>
      rw [List.map_cons, List.nodup_cons]
      exact ⟨hname ▸ h.1, h.2⟩
    · next hname =>
      rw [List.map_cons, List.nodup_cons]
      refine ⟨fun hmem => ?_, ih h.2⟩
      obtain ⟨field, hfield, heq⟩ := List.mem_map.mp hmem
      rcases mem_insertField hfield with rfl | hfield
      · exact hname heq.symm
      · exact h.1 (List.mem_map.mpr ⟨field, hfield, heq⟩)

/-- An object stays one that a JSON library can hold. -/
theorem wellFormed_insertField (h : (Json.object fields).wellFormed = true) (hv : v.wellFormed = true) :
    (Json.object (insertField fields name v)).wellFormed = true := by
  rw [wellFormed_object] at h ⊢
  refine ⟨nodup_insertField h.1, fun field hfield => ?_⟩
  rcases mem_insertField hfield with rfl | hfield
  · exact hv
  · exact h.2 field hfield

end Json

instance : BEq Json := ⟨Json.same⟩

instance : BEq Value := ⟨fun v w => v.val.same w.val⟩

end Rtvbp
