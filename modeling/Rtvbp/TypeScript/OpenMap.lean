import Rtvbp.Lib.Text
import Rtvbp.TypeScript.CatalogValue
import Rtvbp.TypeScript.Proofs.CatalogRoundTripProofs

/-!
# The order of the keys of an open map

Where a catalog value has an open map, and the order in which its text gives the keys.
-/

namespace Rtvbp.TypeScript.CatalogValue

/-- The keys of an object in the order of their code points. -/
def sortedKeys : Json → Bool
  | .object fields => decide ((fields.map fun field => field.1.toList).Pairwise (· < ·))
  | _ => true

/-- The keys are in the order of their code points at every level. -/
def KeysInOrder (json : Json) : Prop := json.everywhere sortedKeys = true

/-- The value that the schema describes has an open map, which has its own text in the text of the value. -/
inductive OpenMapAt (H : Heap) (R : Registry) : Json → JsValue → Json → JsObject → Json → Prop where
  | here {schema : Json} {a : Nat} {o : JsObject} {text : Json} (rule : ruleOf schema = .openMap)
      (cell : H a = .object o) : OpenMapAt H R schema (.ref a) text o text
  | reference {schema : Json} {name : String} {target : Value} {v : JsValue} {text : Json} {o : JsObject} {part : Json}
      (nonNull : v ≠ .null) (rule : ruleOf schema = .reference name) (found : R name = some target)
      (inside : OpenMapAt H R target.val v text o part) : OpenMapAt H R schema v text o part
  | item {schema child : Json} {a i : Nat} {items : List (Option Property)} {property : Property} {v : JsValue}
      {jsons : List Json} {json : Json} {o : JsObject} {part : Json} (rule : ruleOf schema = .items child)
      (cell : H a = .array items) (listed : items[i]? = some (some property)) (read : property.read = .ok v)
      (written : jsons[i]? = some json) (inside : OpenMapAt H R child v json o part) :
      OpenMapAt H R schema (.ref a) (.array jsons) o part
  | property {schema child : Json} {declared : List (String × Json)} {a : Nat} {object : JsObject} {name : String}
      {property : Property} {v : JsValue} {fields : List (String × Json)} {json : Json} {o : JsObject} {part : Json}
      (rule : ruleOf schema = .properties declared) (cell : H a = .object object) (listed : (name, child) ∈ declared)
      (own : object.own name = some property) (read : property.read = .ok v) (written : (name, json) ∈ fields)
      (inside : OpenMapAt H R child v json o part) : OpenMapAt H R schema (.ref a) (.object fields) o part

/-- The entries of a map are JSON data. -/
def HasJson (H : Heap) (o : JsObject) : Prop := ∀ entry ∈ o.entries, ∃ v, entry.2.read = .ok v ∧ IsJson H v

/-- The code units of the keys have the order of their code points, and the objects inside the map have their keys in
that order already. -/
structure InOrder (H : Heap) (o : JsObject) : Prop where
  keys : ∀ a ∈ o.entries.map Prod.fst, ∀ b ∈ o.entries.map Prod.fst, ¬ Lib.Clash a.toList b.toList
  inside : ∀ entry ∈ o.entries, ∀ v json, entry.2.read = .ok v → Reads H v json → KeysInOrder json

/-- The value is serialized and encoded as the text. -/
def Writes (H : Heap) (R : Registry) (text : JsNumber → String) (value : JsValue) (schemaName : String)
    (bytes : Json) : Prop :=
  ∃ serialized, ReturnsOk (fun fuel => serializeCatalogValue H R text fuel value schemaName) serialized ∧
    ReturnsOk (fun fuel => encodeWireJson H text fuel serialized) bytes

end Rtvbp.TypeScript.CatalogValue

/-!
## Proofs about open maps

A map is sorted by the code units of its keys, and what is inside it is written as it is.
-/

namespace Rtvbp.TypeScript.CatalogValue

open Rtvbp.Lib

variable {H : Heap} {R : Registry} {text : JsNumber → String} {schema : Json} {v : JsValue} {out : Json}

/-! ## What a successful call has done -/

section Loops

variable {α β : Type}

theorem encodeEntries_ok_cases {encode : α → Except Failure Json} {seen : List String} {entries : List (String × α)}
    {fields : List (String × Json)} (h : encodeEntries encode seen entries = .ok fields) :
    List.Forall₂ (fun entry field => entry.1 = field.1 ∧ encode entry.2 = .ok field.2) entries fields ∧
      (∀ name ∈ entries.map Prod.fst, name ∉ seen) ∧ (entries.map Prod.fst).Nodup := by
  induction entries generalizing seen fields with
  | nil =>
    cases h
    exact ⟨.nil, by simp, by simp⟩
  | cons entry entries ih =>
    obtain ⟨key, value⟩ := entry
    rw [encodeEntries] at h
    split_ifs at h with hseen
    cases hvalue : encode value with
    | error e =>
      rw [hvalue] at h
      cases h
    | ok json =>
      rw [hvalue] at h
      cases hrest : encodeEntries encode (key :: seen) entries with
      | error e =>
        rw [hrest] at h
        cases h
      | ok rest =>
        rw [hrest] at h
        cases h
        obtain ⟨hfields, hnew, hnodup⟩ := ih hrest
        refine ⟨.cons ⟨rfl, hvalue⟩ hfields, ?_, ?_⟩
        · intro name hname
          rcases List.mem_cons.mp hname with rfl | hname
          · exact hseen
          · exact fun hmem => hnew name hname (List.mem_cons_of_mem _ hmem)
        · rw [List.map_cons, List.nodup_cons]
          exact ⟨fun hmem => hnew key hmem List.mem_cons_self, hnodup⟩

theorem serializeProperties_ok_cases {serialize : JsValue → Json → Except Failure WireEncodable} {o : JsObject}
    {properties : List (String × Json)} {entries : List (String × WireEncodable)} {name : String} {child : Json}
    {property : Property} (h : serializeProperties serialize o properties = .ok entries)
    (hlisted : (name, child) ∈ properties) (hrecord : isRecord child = true) (hown : o.own name = some property) :
    ∃ w serialized, property.read = .ok w ∧ serialize w child = .ok serialized ∧ (name, serialized) ∈ entries := by
  induction properties generalizing entries with
  | nil => exact absurd hlisted List.not_mem_nil
  | cons head properties ih =>
    obtain ⟨name', child'⟩ := head
    rw [serializeProperties] at h
    cases hown' : o.own name' with
    | none =>
      rw [hown'] at h
      rcases List.mem_cons.mp hlisted with heq | hlisted
      · cases heq
        rw [hown] at hown'
        cases hown'
      · exact ih h hlisted
    | some property' =>
      rw [hown'] at h
      simp only at h
      split_ifs at h with hrecord'
      · cases hread : property'.read with
        | error e =>
          rw [hread] at h
          cases h
        | ok w =>
          rw [hread] at h
          cases hserialize : serialize w child' with
          | error e =>
            simp only [bind, Except.bind, hserialize] at h
            cases h
          | ok serialized =>
            cases hrest : serializeProperties serialize o properties with
            | error e =>
              simp only [bind, Except.bind, hserialize, hrest] at h
              cases h
            | ok rest =>
              simp only [bind, Except.bind, hserialize, hrest] at h
              cases h
              rcases List.mem_cons.mp hlisted with heq | hlisted
              · cases heq
                rw [hown] at hown'
                cases hown'
                exact ⟨w, serialized, hread, hserialize, List.mem_cons_self⟩
              · obtain ⟨w', serialized', hread', hserialize', hmem⟩ := ih hrest hlisted
                exact ⟨w', serialized', hread', hserialize', List.mem_cons_of_mem _ hmem⟩
      · rcases List.mem_cons.mp hlisted with heq | hlisted
        · cases heq
          exact absurd hrecord hrecord'
        · exact ih h hlisted

theorem forall₂_at {P : α → β → Prop} {l : List α} {bs : List β} (h : List.Forall₂ P l bs) {i : Nat} {a : α}
    (ha : l[i]? = some a) : ∃ b, bs[i]? = some b ∧ P a b := by
  induction h generalizing i with
  | nil => simp at ha
  | cons hhead _ ih =>
    cases i with
    | zero =>
      cases ha
      exact ⟨_, rfl, hhead⟩
    | succ i => exact ih ha

end Loops

/-! ## The parts of a value -/

/-- The value is serialized under the schema and encoded. -/
def Emits (H : Heap) (R : Registry) (text : JsNumber → String) (schema : Json) (v : JsValue) (out : Json) : Prop :=
  ∃ serialized, (∃ n, ∀ fuel, n ≤ fuel → serializeAt H R fuel v schema = .ok serialized) ∧
    ∃ n, ∀ fuel, n ≤ fuel → encodeValue H text fuel [] serialized = .ok out

theorem emits_of_writes {schemaName : String} {root : Value} (hroot : R schemaName = some root)
    (h : Writes H R text v schemaName out) : Emits H R text root.val v out := by
  obtain ⟨serialized, hserialize, hencode⟩ := h
  obtain ⟨n, hn⟩ := hserialize.exists
  refine ⟨serialized, ⟨n, fun fuel hle => ?_⟩, hencode.exists⟩
  have hcall := hn fuel hle
  unfold serializeCatalogValue at hcall
  cases hassert : assertCatalogValue H R text fuel v schemaName with
  | error e =>
    rw [hassert] at hcall
    cases hcall
  | ok done =>
    rw [hassert] at hcall
    simp only [hroot] at hcall
    exact hcall

theorem Emits.reference {name : String} {target : Value} (h : Emits H R text schema v out) (hv : v ≠ .null)
    (hrule : ruleOf schema = .reference name) (found : R name = some target) : Emits H R text target.val v out := by
  obtain ⟨serialized, ⟨n, hn⟩, hencode⟩ := h
  have hruled := ruled schema
  rw [hrule] at hruled
  cases hruled with
  | reference named =>
    refine ⟨serialized, ⟨n, fun fuel hle => ?_⟩, hencode⟩
    have hcall := hn (fuel + 1) (by omega)
    rw [serializeAt_reference hv named found] at hcall
    exact hcall

/-- What the encoder writes for a new array is written item by item. -/
theorem encode_array_cases {items : List (Option WireEncodable)} {jsons : List Json} {fuel : Nat}
    (h : encodeValue H text (fuel + 1) [] (.array items) = .ok (.array jsons)) :
    List.Forall₂ (fun item json => encodeItem (encodeValue H text fuel []) item = .ok json) items jsons := by
  rw [encodeValue] at h
  cases hitems : items.mapM (encodeItem (encodeValue H text fuel [])) with
  | error e =>
    rw [hitems] at h
    cases h
  | ok encoded =>
    rw [hitems] at h
    cases h
    exact mapM_eq_ok_iff.1 hitems

/-- What the encoder writes for a new object is written entry by entry. -/
theorem encode_ordered_cases {entries : List (String × WireEncodable)} {out : Json} {fuel : Nat}
    (h : encodeValue H text (fuel + 1) [] (.ordered entries) = .ok out) :
    ∃ fields, out = .object fields ∧ (entries.map Prod.fst).Nodup ∧
      List.Forall₂ (fun entry field => entry.1 = field.1 ∧ encodeValue H text fuel [] entry.2 = .ok field.2)
        entries fields := by
  rw [encodeValue] at h
  cases hentries : encodeEntries (encodeValue H text fuel []) [] entries with
  | error e =>
    rw [hentries] at h
    cases h
  | ok encoded =>
    rw [hentries] at h
    cases h
    obtain ⟨hfields, -, hnodup⟩ := encodeEntries_ok_cases hentries
    exact ⟨encoded, rfl, hnodup, hfields⟩

theorem serialize_items_cases {child : Json} {a : Nat} {items : List (Option Property)} {serialized : WireEncodable}
    {fuel : Nat} (hrule : ruleOf schema = .items child) (cell : H a = .array items)
    (h : serializeAt H R (fuel + 1) (.ref a) schema = .ok serialized) :
    ∃ parts, serialized = .array parts ∧
      List.Forall₂ (fun item part => serializeItem (fun v => serializeAt H R fuel v child) item = .ok part)
        items parts := by
  have hcell : H.cell (.ref a) = some (.array items) := congrArg some cell
  have hruled := ruled schema
  rw [hrule] at hruled
  cases hruled with
  | @items fields unnamed typed record =>
    rw [serializeAt, if_neg (by simp)] at h
    simp only [unnamed, typed, hcell, record] at h
    cases hitems : items.mapM (serializeItem fun v => serializeAt H R fuel v (.object fields)) with
    | error e =>
      simp only [hitems, bind, Except.bind] at h
      cases h
    | ok parts =>
      simp only [hitems, bind, Except.bind] at h
      cases h
      exact ⟨parts, rfl, mapM_eq_ok_iff.1 hitems⟩

theorem Emits.item {child : Json} {a i : Nat} {items : List (Option Property)} {property : Property}
    {jsons : List Json} {json : Json} (h : Emits H R text schema (.ref a) (.array jsons))
    (hrule : ruleOf schema = .items child) (cell : H a = .array items) (listed : items[i]? = some (some property))
    (read : property.read = .ok v) (written : jsons[i]? = some json) : Emits H R text child v json := by
  obtain ⟨serialized, ⟨n, hn⟩, m, hm⟩ := h
  obtain ⟨parts, rfl, hparts⟩ := serialize_items_cases hrule cell (hn (n + 1) (by omega))
  obtain ⟨part, hpart, -⟩ := forall₂_at hparts listed
  -- The parts are the same for every fuel.
  have hserialize : ∀ fuel, n ≤ fuel → ∃ inner, part = some inner ∧ serializeAt H R fuel v child = .ok inner := by
    intro fuel hle
    obtain ⟨parts', hsame, hparts'⟩ := serialize_items_cases hrule cell (hn (fuel + 1) (by omega))
    cases hsame
    obtain ⟨part', hpart', hcall⟩ := forall₂_at hparts' listed
    rw [hpart] at hpart'
    cases hpart'
    rw [serializeItem, read] at hcall
    cases hinner : serializeAt H R fuel v child with
    | error e =>
      simp only [hinner, bind, Except.bind] at hcall
      cases hcall
    | ok inner =>
      simp only [hinner, bind, Except.bind] at hcall
      cases hcall
      exact ⟨inner, rfl, rfl⟩
  obtain ⟨inner, rfl, -⟩ := hserialize n le_rfl
  refine ⟨inner, ⟨n, fun fuel hle => ?_⟩, m, fun fuel hle => ?_⟩
  · obtain ⟨inner', hsame, hcall⟩ := hserialize fuel hle
    cases hsame
    exact hcall
  · obtain ⟨json', hjson', hcall⟩ := forall₂_at (encode_array_cases (hm (fuel + 1) (by omega))) hpart
    rw [written] at hjson'
    cases hjson'
    exact hcall

theorem serialize_properties_cases {declared : List (String × Json)} {a : Nat} {o : JsObject} {name : String}
    {child : Json} {property : Property} {serialized : WireEncodable} {fuel : Nat}
    (hrule : ruleOf schema = .properties declared) (cell : H a = .object o) (listed : (name, child) ∈ declared)
    (own : o.own name = some property) (h : serializeAt H R (fuel + 1) (.ref a) schema = .ok serialized) :
    ∃ entries w inner, serialized = .ordered entries ∧ property.read = .ok w ∧
      serializeAt H R fuel w child = .ok inner ∧ (name, inner) ∈ entries := by
  have hcell : H.cell (.ref a) = some (.object o) := congrArg some cell
  have hruled := ruled schema
  rw [hrule] at hruled
  cases hruled with
  | @properties fields unnamed typed record =>
    obtain ⟨hmem, hrecord⟩ := List.mem_filter.mp listed
    rw [serializeAt, if_neg (by simp)] at h
    simp only [unnamed, typed, hcell, record] at h
    cases hentries : serializeProperties (serializeAt H R fuel) o (objectKeys fields) with
    | error e =>
      simp only [hentries, bind, Except.bind] at h
      cases h
    | ok entries =>
      simp only [hentries, bind, Except.bind] at h
      cases h
      obtain ⟨w, inner, hread, hinner, hmem'⟩ :=
        serializeProperties_ok_cases hentries ((objectKeys_perm fields).mem_iff.mpr hmem) hrecord own
      exact ⟨entries, w, inner, rfl, hread, hinner, hmem'⟩

theorem Emits.property {declared : List (String × Json)} {a : Nat} {o : JsObject} {name : String} {child : Json}
    {property : Property} {fields : List (String × Json)} {json : Json}
    (h : Emits H R text schema (.ref a) (.object fields)) (hrule : ruleOf schema = .properties declared)
    (cell : H a = .object o) (listed : (name, child) ∈ declared) (own : o.own name = some property)
    (read : property.read = .ok v) (written : (name, json) ∈ fields) : Emits H R text child v json := by
  obtain ⟨serialized, ⟨n, hn⟩, m, hm⟩ := h
  obtain ⟨entries, w, inner, rfl, hread, -, hmem⟩ :=
    serialize_properties_cases hrule cell listed own (hn (n + 1) (by omega))
  rw [read] at hread
  cases hread
  have hencode : ∀ fuel, m ≤ fuel → (entries.map Prod.fst).Nodup ∧
      List.Forall₂ (fun entry field => entry.1 = field.1 ∧ encodeValue H text fuel [] entry.2 = .ok field.2)
        entries fields := by
    intro fuel hle
    obtain ⟨fields', hsame, hnodup, hfields⟩ := encode_ordered_cases (hm (fuel + 1) (by omega))
    cases hsame
    exact ⟨hnodup, hfields⟩
  have hnodup := (hencode m le_rfl).1
  refine ⟨inner, ⟨n, fun fuel hle => ?_⟩, m, fun fuel hle => ?_⟩
  · obtain ⟨entries', w, inner', hsame, hread, hcall, hmem'⟩ :=
      serialize_properties_cases hrule cell listed own (hn (fuel + 1) (by omega))
    cases hsame
    rw [read] at hread
    cases hread
    rw [eq_of_nodup_names hnodup hmem hmem']
    exact hcall
  · obtain ⟨entry, hentry, hname, hcall⟩ := exists_mem_forall₂_right (hencode fuel hle).2 written
    have hinner : (name, entry.2) ∈ entries := by
      rw [← show entry.1 = name from hname]
      exact hentry
    rw [eq_of_nodup_names hnodup hmem hinner]
    exact hcall

/-- The text of an open map inside the value is the one that the encoder writes for the map. -/
theorem exists_emits_of_openMapAt {o : JsObject} {part : Json} (hat : OpenMapAt H R schema v out o part)
    (h : Emits H R text schema v out) :
    ∃ inner a, ruleOf inner = .openMap ∧ H a = .object o ∧ Emits H R text inner (.ref a) part := by
  induction hat with
  | here rule cell => exact ⟨_, _, rule, cell, h⟩
  | reference nonNull rule found _ ih => exact ih (h.reference nonNull rule found)
  | item rule cell listed read written _ ih => exact ih (h.item rule cell listed read written)
  | property rule cell listed own read written _ ih => exact ih (h.property rule cell listed own read written)

/-! ## The order of an open map -/

/-- The entries in the order of the code units of their names. -/
def sortedEntries (o : JsObject) : List (String × Property) :=
  o.entries.mergeSort fun a b => decide (codeUnits a.1 ≤ codeUnits b.1)
theorem names_nodup (o : JsObject) : (o.entries.map Prod.fst).Nodup := by
  have hkeys := o.keys
  rw [List.map_append, List.nodup_append] at hkeys
  exact hkeys.1

theorem sortedEntries_pairwise (o : JsObject) :
    ((sortedEntries o).map fun entry => entry.1.toList).Pairwise fun s t => s.flatMap units < t.flatMap units := by
  have hsorted : (sortedEntries o).Pairwise fun a b => codeUnits a.1 ≤ codeUnits b.1 := by
    have hmerge := @List.pairwise_mergeSort (String × Property) (fun a b => decide (codeUnits a.1 ≤ codeUnits b.1))
      (fun a b c hab hbc => by simpa using le_trans (of_decide_eq_true hab) (of_decide_eq_true hbc))
      (fun a b => by simpa using le_total (codeUnits a.1) (codeUnits b.1)) o.entries
    exact hmerge.imp fun h => of_decide_eq_true h
  have hdistinct : (sortedEntries o).Pairwise fun a b => a.1 ≠ b.1 := by
    have hperm := List.mergeSort_perm o.entries fun a b => decide (codeUnits a.1 ≤ codeUnits b.1)
    have hnodup := (hperm.map Prod.fst).nodup_iff.mpr (names_nodup o)
    exact List.pairwise_map.mp hnodup
  rw [List.pairwise_map]
  refine (hsorted.and hdistinct).imp ?_
  rintro a b ⟨hle, hne⟩
  refine lt_of_le_of_ne hle fun heq => hne ?_
  exact String.toList_inj.mp (flatMap_units_injective heq)

theorem wireMap_ok_cases {o : JsObject} {serialized : WireEncodable} (h : wireMap o = .ok serialized) :
    ∃ entries, serialized = .ordered entries ∧ List.Forall₂ (fun entry part =>
      ∃ v, entry.2.read = .ok v ∧ part = (entry.1, WireEncodable.value v)) (sortedEntries o) entries := by
  have hloop : wireMap o = ((sortedEntries o).mapM fun entry => do
      let v ← entry.2.read
      return (entry.1, WireEncodable.value v)) >>= fun entries => .ok (.ordered entries) := rfl
  rw [hloop] at h
  cases hsorted : (sortedEntries o).mapM (fun entry => do
      let v ← entry.2.read
      return (entry.1, WireEncodable.value v)) with
  | error e =>
    rw [hsorted] at h
    cases h
  | ok entries =>
    rw [hsorted] at h
    cases h
    refine ⟨entries, rfl, (mapM_eq_ok_iff.1 hsorted).imp fun entry part hpart => ?_⟩
    cases hread : entry.2.read with
    | error e =>
      rw [hread] at hpart
      cases hpart
    | ok v =>
      rw [hread] at hpart
      cases hpart
      exact ⟨v, rfl, rfl⟩

/-- The text of an open map has the entries in the order of their code units, each with the data that it reads as. -/
theorem emits_openMap_cases {a : Nat} {o : JsObject} (hrule : ruleOf schema = .openMap) (cell : H a = .object o)
    (hjson : HasJson H o) (h : Emits H R text schema (.ref a) out) :
    ∃ fields, out = .object fields ∧ List.Forall₂ (fun entry field => entry.1 = field.1 ∧
      ∃ v, entry.2.read = .ok v ∧ Reads H v field.2) (sortedEntries o) fields := by
  obtain ⟨serialized, ⟨n, hn⟩, m, hm⟩ := h
  have hcell : H.cell (.ref a) = some (.object o) := congrArg some cell
  have hcall := hn (n + 1) (by omega)
  have hruled := ruled schema
  rw [hrule] at hruled
  cases hruled with
  | openMap unnamed typed record additional =>
    rw [serializeAt, if_neg (by simp)] at hcall
    simp only [unnamed, typed, hcell, record, if_pos additional] at hcall
    obtain ⟨entries, rfl, hentries⟩ := wireMap_ok_cases hcall
    obtain ⟨fields, rfl, -, -⟩ := encode_ordered_cases (hm (m + 1) (by omega))
    refine ⟨fields, rfl, ?_⟩
    have hencode : ∀ fuel, m ≤ fuel → List.Forall₂ (fun entry field => entry.1 = field.1 ∧
        encodeValue H text fuel [] entry.2 = .ok field.2) entries fields := by
      intro fuel hle
      obtain ⟨fields', hsame, -, hfields⟩ := encode_ordered_cases (hm (fuel + 1) (by omega))
      cases hsame
      exact hfields
    rw [List.forall₂_iff_get] at hentries ⊢
    obtain ⟨hlength, hget⟩ := hentries
    have hlength' : entries.length = fields.length := (hencode m le_rfl).length_eq
    refine ⟨hlength.trans hlength', fun i hi hi' => ?_⟩
    have hi'' : i < entries.length := by omega
    obtain ⟨v, hread, hpart⟩ := hget i hi hi''
    have hmem : (sortedEntries o).get ⟨i, hi⟩ ∈ o.entries :=
      (List.mergeSort_perm _ _).mem_iff.mp (List.get_mem _ _)
    obtain ⟨w, hread', json, hreads⟩ := hjson _ hmem
    rw [hread] at hread'
    cases hread'
    -- With enough fuel the encoder writes the data of the entry, so it is what stands in the text.
    have hfield := (List.forall₂_iff_get.mp (hencode (max m (sizeOf json + 1)) (le_max_left _ _))).2 i hi'' hi'
    have hwritten : encodeValue H text (max m (sizeOf json + 1)) [] (.value v) = .ok json := by
      obtain ⟨fuel, hfuel⟩ := Nat.exists_eq_add_of_le' (show 1 ≤ max m (sizeOf json + 1) by omega)
      rw [hfuel]
      exact encodeValue_of_reads hreads (by omega) fun _ _ b hb => absurd hb List.not_mem_nil
    rw [hpart] at hfield
    obtain ⟨hname, hvalue⟩ := hfield
    rw [hwritten] at hvalue
    rw [← Except.ok.inj hvalue]
    exact ⟨hname, v, hread, hreads⟩

/-- A value is at most one JSON value. -/
theorem Reads.unique {json json' : Json} (h : Reads H v json) (h' : Reads H v json') : json = json' := by
  have htop : Above H [] v := fun _ _ b hb => absurd hb List.not_mem_nil
  have hwritten : encodeValue H (fun _ => "") (max (sizeOf json) (sizeOf json') + 1) [] (.value v) = .ok json :=
    encodeValue_of_reads h (le_max_left _ _) htop
  rw [encodeValue_of_reads h' (le_max_right _ _) htop] at hwritten
  exact (Except.ok.inj hwritten).symm

/-- The keys of the text of an open map are in order exactly when the map is. -/
theorem emits_openMap_inOrder_iff {a : Nat} {o : JsObject} (hrule : ruleOf schema = .openMap) (cell : H a = .object o)
    (hjson : HasJson H o) (h : Emits H R text schema (.ref a) out) : KeysInOrder out ↔ InOrder H o := by
  obtain ⟨fields, rfl, hfields⟩ := emits_openMap_cases hrule cell hjson h
  have hmem : ∀ {entry : String × Property}, entry ∈ sortedEntries o ↔ entry ∈ o.entries :=
    (List.mergeSort_perm _ _).mem_iff
  have hnames : fields.map (fun field => field.1.toList) = (sortedEntries o).map fun entry => entry.1.toList := by
    rw [← List.forall₂_eq_eq_eq, List.forall₂_map_left_iff, List.forall₂_map_right_iff]
    exact hfields.flip.imp fun field entry hentry => congrArg String.toList hentry.1.symm
  have hkeys : sortedKeys (.object fields) = true ↔
      ∀ s ∈ o.entries.map Prod.fst, ∀ t ∈ o.entries.map Prod.fst, ¬ Clash s.toList t.toList := by
    rw [sortedKeys, decide_eq_true_iff, hnames, sorted_iff (sortedEntries_pairwise o)]
    simp only [List.mem_map, hmem, forall_exists_index, and_imp, forall_apply_eq_imp_iff₂]
  rw [KeysInOrder, Json.everywhere_object, hkeys]
  constructor
  · rintro ⟨hkeys, hinside⟩
    refine ⟨hkeys, fun entry hentry v json hread hreads => ?_⟩
    obtain ⟨field, hfield, -, w, hread', hreads'⟩ := exists_mem_forall₂ hfields (hmem.mpr hentry)
    rw [hread] at hread'
    cases hread'
    rw [hreads.unique hreads']
    exact hinside field hfield
  · rintro ⟨hkeys, hinside⟩
    refine ⟨hkeys, fun field hfield => ?_⟩
    obtain ⟨entry, hentry, -, v, hread, hreads⟩ := exists_mem_forall₂_right hfields hfield
    exact hinside entry (hmem.mp hentry) v field.2 hread hreads

/-- The keys of every open map of a value that is written are in the order of their code points exactly when its code
units have that order and the objects inside it are in that order already. -/
theorem openMap_keysInOrder_iff {value : JsValue} {schemaName : String} {root : Value} {bytes part : Json}
    {o : JsObject} (hroot : R schemaName = some root) (hwrites : Writes H R text value schemaName bytes)
    (hat : OpenMapAt H R root.val value bytes o part) (hjson : HasJson H o) :
    KeysInOrder part ↔ InOrder H o := by
  obtain ⟨inner, a, hrule, hcell, hemits⟩ := exists_emits_of_openMapAt hat (emits_of_writes hroot hwrites)
  exact emits_openMap_inOrder_iff hrule hcell hjson hemits

/-! ## Maps of two keys -/

def mapSchema : Json := .object [("type", .string "object"), ("additionalProperties", .bool true)]

def mapSchemas : Registry := fun name => if name = "Map" then some ⟨mapSchema, by decide⟩ else none

theorem mapSchema_rule : ruleOf mapSchema = .openMap := rfl

/-- A map whose entries are data in the order of the code units is written as it is. -/
theorem writes_of_sorted (values : List (String × JsValue)) {a : Nat} {o : JsObject} {fields : List (String × Json)}
    (cell : H a = .object o) (hentries : o.entries = values.map fun entry => (entry.1, .data entry.2))
    (hsorted : sortedEntries o = o.entries) (hnames : values.map Prod.fst = fields.map Prod.fst)
    (hreads : ∀ pair ∈ values.zip fields, Reads H pair.1.2 pair.2.2) :
    Writes H mapSchemas text (.ref a) "Map" (.object fields) := by
  have hcell : H.cell (.ref a) = some (.object o) := congrArg some cell
  have hrecord : H.record (.ref a) = some o := by rw [Heap.record, hcell]
  have hvalid : ∀ fuel, validateAt H mapSchemas text (fuel + 1) (.ref a) mapSchema "$" = .ok [] := by
    intro fuel
    rw [validateAt, if_neg (by simp)]
    simp only [show referenceName ((nonNullSchema mapSchema).get "$ref") = none from rfl,
      show schemaType (nonNullSchema mapSchema) = .object from rfl, hrecord]
    have hkeys : objectKeys ((recordKeyword (nonNullSchema mapSchema) "properties").getD []) = [] :=
      (objectKeys_perm []).eq_nil
    rw [hkeys]
    rfl
  have hwireMap : wireMap o = .ok (.ordered (values.map fun entry => (entry.1, .value entry.2))) := by
    have hloop : (sortedEntries o).mapM (fun entry => do
        let v ← entry.2.read
        return (entry.1, WireEncodable.value v)) = .ok (values.map fun entry => (entry.1, .value entry.2)) := by
      rw [hsorted, hentries]
      refine mapM_eq_ok_iff.2 ?_
      rw [List.forall₂_map_left_iff, List.forall₂_map_right_iff, List.forall₂_same]
      exact fun entry _ => rfl
    have hstep : wireMap o = ((sortedEntries o).mapM fun entry => do
        let v ← entry.2.read
        return (entry.1, WireEncodable.value v)) >>= fun entries => .ok (.ordered entries) := rfl
    rw [hstep, hloop]
    rfl
  have hnodup : (fields.map Prod.fst).Nodup := by
    have hkeys := names_nodup o
    rw [hentries, List.map_map] at hkeys
    rw [← hnames]
    exact hkeys
  have hencodes : Encodes H text .binary64 (.ordered (values.map fun entry => (entry.1, .value entry.2)))
      (.object fields) := by
    refine encodes_ordered ?_ hnodup
    rw [List.forall₂_map_left_iff, List.forall₂_iff_zip]
    refine ⟨length_eq_of_names hnames, fun {entry field} hmem => ⟨name_eq_of_mem_zip hnames hmem, ?_⟩⟩
    exact encodes_value (fun _ => binary64_fraction) (hreads (entry, field) hmem)
  obtain ⟨m, hm⟩ := hencodes.returns
  refine ⟨.ordered (values.map fun entry => (entry.1, .value entry.2)),
    returnsOk_of_forall (n := 1) fun fuel hle => ?_, returnsOk_of_forall hm⟩
  obtain ⟨fuel, rfl⟩ := Nat.exists_eq_add_of_le' hle
  have hassert : assertCatalogValue H mapSchemas text (fuel + 1) (.ref a) "Map" = .ok () := by
    have hvalue : validateCatalogValue H mapSchemas text (fuel + 1) (.ref a) "Map" = .ok [] := hvalid fuel
    rw [assertCatalogValue, hvalue]
    rfl
  have hserialize : serializeAt H mapSchemas (fuel + 1) (.ref a) mapSchema =
      .ok (.ordered (values.map fun entry => (entry.1, .value entry.2))) := by
    rw [serializeAt, if_neg (by simp)]
    simp only [show referenceName ((nonNullSchema mapSchema).get "$ref") = none from rfl,
      show schemaType (nonNullSchema mapSchema) = .object from rfl, hcell,
      show recordKeyword (nonNullSchema mapSchema) "properties" = none from rfl,
      show ((nonNullSchema mapSchema).get "additionalProperties").any Json.isTrue = true from rfl, if_true]
    exact hwireMap
  rw [serializeCatalogValue, hassert]
  exact hserialize

/-- An object of data properties. -/
def dataObject (values : List (String × JsValue)) (h : (values.map Prod.fst).Nodup) : JsObject where
  plain := true
  ordered := none
  entries := values.map fun entry => (entry.1, .data entry.2)
  hidden := []
  inherited := fun _ => none
  keys := by
    rw [List.append_nil, List.map_map]
    exact h

/-- A map of the keys `a` and `b`. -/
def abMap : Heap := fun _ => .object (dataObject [("a", .null), ("b", .null)] (by decide))

theorem writes_abMap :
    Writes abMap mapSchemas integerText (.ref 0) "Map" (.object [("a", .null), ("b", .null)]) := by
  refine writes_of_sorted [("a", .null), ("b", .null)] rfl rfl ?_ rfl ?_
  · exact List.mergeSort_of_pairwise (by decide)
  · intro pair hpair
    rcases List.mem_cons.mp hpair with rfl | hpair
    · exact .null
    · rw [List.mem_singleton.mp hpair]
      exact .null

/-- The keys of a map of two letters are in order. -/
theorem abMap_keysInOrder : KeysInOrder (.object [("a", .null), ("b", .null)]) := by
  refine (openMap_keysInOrder_iff rfl writes_abMap (.here mapSchema_rule rfl) ?_).mpr ⟨?_, ?_⟩
  · intro entry hentry
    rcases List.mem_cons.mp hentry with rfl | hentry
    · exact ⟨.null, rfl, .null, .null⟩
    · rw [List.mem_singleton.mp hentry]
      exact ⟨.null, rfl, .null, .null⟩
  · rintro s hs t ht ⟨p, c, d, u, v, hleft, -, hcross, -⟩
    have hascii : ∀ x ∈ s.toList, x.toNat < 0x10000 := by
      have hcases : s = "a" ∨ s = "b" := by simpa [dataObject] using hs
      intro x hx
      have hletter : x = 'a' ∨ x = 'b' := by
        rcases hcases with rfl | rfl
        · exact .inl (by simpa using hx)
        · exact .inr (by simpa using hx)
      rcases hletter with rfl | rfl <;> decide
    have hmem := hascii c (by rw [hleft]; simp)
    omega
  · intro entry hentry v json hread hreads
    have hnull : v = .null := by
      rcases List.mem_cons.mp hentry with rfl | hentry
      · exact (Except.ok.inj hread).symm
      · rw [List.mem_singleton.mp hentry] at hread
        exact (Except.ok.inj hread).symm
    subst hnull
    cases hreads
    rfl

/-- A map with a map of the keys `b` and `a` inside it. -/
def nestedMap : Heap := fun address =>
  if address = 0 then .object (dataObject [("m", .ref 1)] (by decide))
  else .object (dataObject [("b", .null), ("a", .null)] (by decide))

/-- A key beyond the basic plane. -/
def astralKey : String := String.ofList [Char.ofNat 0x10000]

/-- A key at the end of the basic plane. -/
def privateKey : String := String.ofList [Char.ofNat 0xe000]

def astralMap : Heap := fun _ => .object (dataObject [(astralKey, .null), (privateKey, .null)] (by decide))

/-- The keys of a map inside a map are written in the order of the object, and the keys of a map in the order of
their code units. -/
theorem maps_not_keysInOrder :
    (Writes nestedMap mapSchemas integerText (.ref 0) "Map"
        (.object [("m", .object [("b", .null), ("a", .null)])]) ∧
      ¬ KeysInOrder (.object [("m", .object [("b", .null), ("a", .null)])])) ∧
    Writes astralMap mapSchemas integerText (.ref 0) "Map" (.object [(astralKey, .null), (privateKey, .null)]) ∧
      ¬ KeysInOrder (.object [(astralKey, .null), (privateKey, .null)]) := by
  refine ⟨⟨?_, by unfold KeysInOrder; decide⟩, ?_, by unfold KeysInOrder; decide⟩
  · refine writes_of_sorted [("m", .ref 1)] rfl rfl (List.mergeSort_singleton _) rfl ?_
    intro pair hpair
    rw [List.mem_singleton.mp hpair]
    refine @Reads.object _ _ _ [("b", .null), ("a", .null)] _ rfl ⟨rfl, rfl⟩ rfl rfl ?_
    intro inner hinner
    rcases List.mem_cons.mp hinner with rfl | hinner
    · exact .null
    · rw [List.mem_singleton.mp hinner]
      exact .null
  · refine writes_of_sorted [(astralKey, .null), (privateKey, .null)] rfl rfl ?_ rfl ?_
    · exact List.mergeSort_of_pairwise (by decide)
    · intro pair hpair
      rcases List.mem_cons.mp hpair with rfl | hpair
      · exact .null
      · rw [List.mem_singleton.mp hpair]
        exact .null

end Rtvbp.TypeScript.CatalogValue
