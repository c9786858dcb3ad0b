import Rtvbp.TypeScript.JsHeap

/-!
# JSON data on a heap

A value that is JSON data has no cycle: what is inside it is JSON data of a smaller size. Nothing inside it was made by
`wireObject`.
-/

namespace Rtvbp.TypeScript.CatalogValue

open Relation

variable {H : Heap} {a b : Nat} {v : JsValue} {json : Json}

/-! ## Lists side by side -/

section Lists

variable {α β : Type} {P : α → β → Prop} {l : List α} {bs : List β}

theorem exists_forall₂ (h : ∀ x ∈ l, ∃ y, P x y) : ∃ ys, List.Forall₂ P l ys := by
  induction l with
  | nil => exact ⟨[], .nil⟩
  | cons x l ih =>
    obtain ⟨y, hy⟩ := h x List.mem_cons_self
    obtain ⟨ys, hys⟩ := ih fun z hz => h z (List.mem_cons_of_mem x hz)
    exact ⟨y :: ys, .cons hy hys⟩

theorem exists_mem_zip_of_mem_left {x : α} (h : x ∈ l) (hlength : l.length = bs.length) :
    ∃ y, (x, y) ∈ l.zip bs := by
  obtain ⟨i, hi, rfl⟩ := List.getElem_of_mem h
  have hi' : i < bs.length := by omega
  have hzip : i < (l.zip bs).length := by
    rw [List.length_zip]
    omega
  refine ⟨bs[i], ?_⟩
  have hmem := List.getElem_mem hzip
  rwa [List.getElem_zip] at hmem

theorem exists_mem_zip_of_mem_right {y : β} (h : y ∈ bs) (hlength : l.length = bs.length) :
    ∃ x, (x, y) ∈ l.zip bs := by
  obtain ⟨i, hi, rfl⟩ := List.getElem_of_mem h
  have hi' : i < l.length := by omega
  have hzip : i < (l.zip bs).length := by
    rw [List.length_zip]
    omega
  refine ⟨l[i], ?_⟩
  have hmem := List.getElem_mem hzip
  rwa [List.getElem_zip] at hmem

/-- Lists with the same names have the same length. -/
theorem length_eq_of_names {entries : List (String × α)} {fields : List (String × β)}
    (h : entries.map Prod.fst = fields.map Prod.fst) : entries.length = fields.length := by
  have hlength := congrArg List.length h
  rwa [List.length_map, List.length_map] at hlength

theorem name_eq_of_mem_zip {entries : List (String × α)} {fields : List (String × β)}
    (h : entries.map Prod.fst = fields.map Prod.fst) {entry : String × α} {field : String × β}
    (hmem : (entry, field) ∈ entries.zip fields) : entry.1 = field.1 := by
  induction entries generalizing fields with
  | nil => cases hmem
  | cons first entries ih =>
    cases fields with
    | nil => cases hmem
    | cons other fields =>
      rw [List.map_cons, List.map_cons, List.cons.injEq] at h
      rcases List.mem_cons.mp hmem with heq | hmem
      · cases heq
        exact h.1
      · exact ih h.2 hmem

theorem exists_mem_forall₂_right {y : β} (h : List.Forall₂ P l bs) (hy : y ∈ bs) : ∃ x ∈ l, P x y := by
  obtain ⟨x, hx⟩ := exists_mem_zip_of_mem_right hy h.length_eq
  exact ⟨x, (List.of_mem_zip hx).1, List.forall₂_zip h hx⟩

theorem exists_mem_forall₂ {x : α} (h : List.Forall₂ P l bs) (hx : x ∈ l) : ∃ y ∈ bs, P x y := by
  obtain ⟨y, hy⟩ := exists_mem_zip_of_mem_left hx h.length_eq
  exact ⟨y, (List.of_mem_zip hy).2, List.forall₂_zip h hy⟩

end Lists

/-! ## What is inside -/

theorem sizeOf_lt_of_mem_array {item : Json} {jsons : List Json} (h : item ∈ jsons) :
    sizeOf item < sizeOf (Json.array jsons) := by
  have hitem := List.sizeOf_lt_of_mem h
  rw [Json.array.sizeOf_spec]
  omega

theorem sizeOf_lt_of_mem_object {field : String × Json} {fields : List (String × Json)} (h : field ∈ fields) :
    sizeOf field.2 < sizeOf (Json.object fields) := by
  have hfield := List.sizeOf_lt_of_mem h
  rcases field with ⟨name, v⟩
  rw [Prod.mk.sizeOf_spec] at hfield
  rw [Json.object.sizeOf_spec]
  show sizeOf v < _
  omega

/-- What is inside JSON data is JSON data of a smaller size. -/
theorem Reads.inside (h : Reads H (.ref a) json) (hb : Inside H a b) :
    ∃ item, Reads H (.ref b) item ∧ sizeOf item < sizeOf json := by
  cases h with
  | array cell filled length inside =>
    cases hb with
    | item cell' listed read =>
      rw [cell] at cell'
      cases cell'
      obtain ⟨v, hv, property, hproperty, hread⟩ := exists_mem_forall₂ filled listed
      cases hproperty
      rw [read] at hread
      cases hread
      obtain ⟨item, hitem⟩ := exists_mem_zip_of_mem_left hv length
      exact ⟨item, inside _ hitem, sizeOf_lt_of_mem_array (List.of_mem_zip hitem).2⟩
    | entry cell' listed =>
      rw [cell] at cell'
      cases cell'
  | object cell ordinary data names inside =>
    cases hb with
    | item cell' listed read =>
      rw [cell] at cell'
      cases cell'
    | entry cell' listed =>
      rw [cell] at cell'
      cases cell'
      rw [data] at listed
      obtain ⟨entry, hentry, heq⟩ := List.mem_map.mp listed
      obtain ⟨field, hfield⟩ := exists_mem_zip_of_mem_left hentry (length_eq_of_names names)
      have hvalue : entry.2 = .ref b := by
        have hsecond := congrArg Prod.snd heq
        exact Property.data.inj hsecond
      refine ⟨field.2, ?_, sizeOf_lt_of_mem_object (List.of_mem_zip hfield).2⟩
      rw [← hvalue]
      exact inside _ hfield

theorem Reads.reach (h : Reads H (.ref a) json) (hb : ReflTransGen (Inside H) a b) :
    ∃ item, Reads H (.ref b) item := by
  induction hb with
  | refl => exact ⟨json, h⟩
  | tail _ hstep ih =>
    obtain ⟨item, hitem⟩ := ih
    obtain ⟨next, hnext, -⟩ := hitem.inside hstep
    exact ⟨next, hnext⟩

/-- JSON data has no cycle. -/
theorem Reads.acc (h : Reads H (.ref a) json) : Acc (fun inner outer => Inside H outer inner) a := by
  induction hn : sizeOf json using Nat.strong_induction_on generalizing a json with
  | _ n ih =>
    refine ⟨a, fun b hb => ?_⟩
    obtain ⟨item, hitem, hlt⟩ := h.inside hb
    exact ih (sizeOf item) (hn ▸ hlt) hitem rfl

theorem not_rel_self_of_acc {α : Type} {r : α → α → Prop} {x : α} (h : Acc r x) : ¬ r x x := by
  induction h with
  | intro x _ ih =>
    intro hx
    exact ih x hx hx

theorem Reads.not_inside_self (h : Reads H (.ref a) json) : ¬ TransGen (Inside H) a a := by
  intro hcycle
  exact not_rel_self_of_acc h.acc.transGen (transGen_swap.mpr hcycle)

theorem Reads.not_wrapped (h : Reads H v json) : ¬ Wrapped H v := by
  rintro ⟨a, b, o, rfl, hreach, hcell, hordered⟩
  obtain ⟨item, hitem⟩ := h.reach hreach
  cases hitem with
  | array cell filled length inside =>
    rw [cell] at hcell
    cases hcell
  | object cell ordinary data names inside =>
    rw [cell] at hcell
    cases hcell
    rw [ordinary.2] at hordered
    cases hordered

/-- What is inside a value without a `wireObject` has none either. -/
theorem not_wrapped_inside (h : ¬ Wrapped H (.ref a)) (hv : ∀ b, v = .ref b → Inside H a b) : ¬ Wrapped H v := by
  rintro ⟨b, c, o, hb, hreach, hcell, hordered⟩
  exact h ⟨a, c, o, rfl, .head (hv b hb) hreach, hcell, hordered⟩

/-! ## The data -/

theorem isJson_array {items : List (Option Property)} (cell : H a = .array items)
    (h : ∀ item ∈ items, ∃ v, Filled item v ∧ IsJson H v) : IsJson H (.ref a) := by
  have hpairs : ∀ item ∈ items, ∃ pair : JsValue × Json, Filled item pair.1 ∧ Reads H pair.1 pair.2 := by
    intro item hitem
    obtain ⟨v, hfilled, json, hread⟩ := h item hitem
    exact ⟨(v, json), hfilled, hread⟩
  obtain ⟨pairs, hpairs⟩ := exists_forall₂ hpairs
  have hfilled : List.Forall₂ Filled items (pairs.map Prod.fst) := by
    rw [List.forall₂_map_right_iff]
    exact hpairs.imp fun item pair hpair => hpair.1
  refine ⟨.array (pairs.map Prod.snd), .array cell hfilled (by simp) fun pair hpair => ?_⟩
  rw [List.zip_map', List.mem_map] at hpair
  obtain ⟨pair, hmem, rfl⟩ := hpair
  obtain ⟨item, -, hitem⟩ := exists_mem_forall₂_right hpairs hmem
  exact hitem.2

theorem isJson_object {o : JsObject} (cell : H a = .object o) (ordinary : o.plain = true ∧ o.ordered = none)
    (h : ∀ entry ∈ o.entries, ∃ v, entry.2 = .data v ∧ IsJson H v) : IsJson H (.ref a) := by
  have htriples : ∀ entry ∈ o.entries, ∃ triple : String × JsValue × Json,
      entry = (triple.1, .data triple.2.1) ∧ Reads H triple.2.1 triple.2.2 := by
    intro entry hentry
    obtain ⟨v, hdata, json, hread⟩ := h entry hentry
    exact ⟨(entry.1, v, json), Prod.ext rfl hdata, hread⟩
  obtain ⟨triples, htriples⟩ := exists_forall₂ htriples
  have hdata : o.entries = (triples.map fun triple => (triple.1, triple.2.1)).map fun entry =>
      (entry.1, .data entry.2) := by
    rw [List.map_map, ← List.forall₂_eq_eq_eq, List.forall₂_map_right_iff]
    exact htriples.imp fun entry triple htriple => htriple.1
  refine ⟨.object (triples.map fun triple => (triple.1, triple.2.2)), .object cell ordinary hdata (by simp) ?_⟩
  intro pair hpair
  rw [List.zip_map', List.mem_map] at hpair
  obtain ⟨triple, hmem, rfl⟩ := hpair
  obtain ⟨entry, -, hentry⟩ := exists_mem_forall₂_right htriples hmem
  exact hentry.2

/-- What holds of the root of all JSON data holds everywhere in it. -/
theorem Reads.everywhere {p : Json → Bool} (hp : ∀ v json, Reads H v json → p json = true) (h : Reads H v json) :
    json.everywhere p = true := by
  induction h with
  | null => exact hp _ _ .null
  | boolean => exact hp _ _ .boolean
  | string => exact hp _ _ .string
  | integer number safe => exact hp _ _ (.integer number safe)
  | fraction number => exact hp _ _ (.fraction number)
  | array cell filled length inside ih =>
    refine Json.everywhere_array.2 ⟨hp _ _ (.array cell filled length inside), fun item hitem => ?_⟩
    obtain ⟨v, hv⟩ := exists_mem_zip_of_mem_right hitem length
    exact ih (v, item) hv
  | object cell ordinary data names inside ih =>
    refine Json.everywhere_object.2 ⟨hp _ _ (.object cell ordinary data names inside), fun field hfield => ?_⟩
    obtain ⟨v, hv⟩ := exists_mem_zip_of_mem_right hfield (length_eq_of_names names)
    exact ih (v, field) hv

/-- JSON data is what a JSON library can hold. -/
theorem Reads.wellFormed (h : Reads H v json) : json.wellFormed = true := by
  refine h.everywhere fun v json hnode => ?_
  cases hnode with
  | null => rfl
  | boolean => rfl
  | string => rfl
  | integer number safe =>
    have hsafe := Json.isSafeInteger_iff.1 safe
    simp only [Json.nodeWellFormed, Bool.and_eq_true, decide_eq_true_eq]
    omega
  | @fraction bits number =>
    show (bits.extractLsb' 52 11 != 0x7ff#11) = true
    rw [bne_iff_ne]
    intro hinfinite
    have hbiased : (bits.extractLsb' 52 11).toNat = 0x7ff := by rw [hinfinite]; rfl
    simp [JsNumber.ofBits, hbiased] at number
  | array => rfl
  | @object a o values fields cell ordinary data names inside =>
    have hkeys := o.keys
    rw [List.map_append, List.nodup_append, data, List.map_map] at hkeys
    show decide (fields.map Prod.fst).Nodup = true
    rw [decide_eq_true_iff, ← names]
    exact hkeys.1

/-- `decodeWireJson` takes the numbers of JSON data. -/
theorem Reads.accepted {lossless : LosslessJson}
    (hlossless : ∀ bits, JsNumber.ofBits bits = .fraction bits → lossless.acceptsFloat bits = true)
    (h : Reads H v json) : json.everywhere lossless.acceptsNumber = true := by
  refine h.everywhere fun v json hnode => ?_
  cases hnode with
  | null => rfl
  | boolean => rfl
  | string => rfl
  | integer number safe => exact safe
  | fraction number => exact hlossless _ number
  | array => rfl
  | object => rfl

end Rtvbp.TypeScript.CatalogValue
