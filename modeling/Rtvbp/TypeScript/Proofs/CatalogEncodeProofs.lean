import Rtvbp.Lib.Reorder
import Rtvbp.TypeScript.CatalogValue
import Rtvbp.TypeScript.Proofs.JsHeapProofs

/-!
# Encoding JSON data

The encoder writes JSON data as it is: it meets no hole, no accessor and no object twice on one path, and a text that
it writes for JSON data decodes. What the serializer builds around JSON data is written part by part.
-/

namespace Rtvbp.TypeScript.CatalogValue

open Relation

variable {H : Heap} {text : JsNumber → String} {lossless : LosslessJson} {v : JsValue} {json : Json}

/-! ## Loops that succeed -/

section Loops

variable {α β : Type}

theorem encodeEntries_eq_ok {encode : α → Except Failure Json} {entries : List (String × α)}
    {fields : List (String × Json)} {seen : List String}
    (h : List.Forall₂ (fun entry field => entry.1 = field.1 ∧ encode entry.2 = .ok field.2) entries fields)
    (hnodup : (fields.map Prod.fst).Nodup) (hnew : ∀ field ∈ fields, field.1 ∉ seen) :
    encodeEntries encode seen entries = .ok fields := by
  induction h generalizing seen with
  | nil => rfl
  | @cons entry field entries fields hhead _ ih =>
    rcases entry with ⟨key, value⟩
    rcases field with ⟨name, json⟩
    obtain ⟨hkey, hvalue⟩ := hhead
    cases hkey
    rw [List.map_cons, List.nodup_cons] at hnodup
    have hrest : encodeEntries encode (key :: seen) entries = .ok fields := by
      refine ih hnodup.2 fun other hother => ?_
      rw [List.mem_cons, not_or]
      refine ⟨fun heq => hnodup.1 ?_, hnew other (List.mem_cons_of_mem _ hother)⟩
      exact List.mem_map.mpr ⟨other, hother, heq⟩
    have hkey : key ∉ seen := hnew (key, json) List.mem_cons_self
    have hencode : encode value = .ok json := hvalue
    rw [encodeEntries, if_neg hkey, hencode, hrest]
    rfl

/-- Finitely many calls that return with enough fuel do so with the same fuel. -/
theorem forall₂_enough_fuel {P : Nat → α → β → Prop} {l : List α} {bs : List β}
    (h : List.Forall₂ (fun a b => ∃ n, ∀ fuel, n ≤ fuel → P fuel a b) l bs) :
    ∃ n, ∀ fuel, n ≤ fuel → List.Forall₂ (P fuel) l bs := by
  induction h with
  | nil => exact ⟨0, fun fuel _ => .nil⟩
  | cons hhead _ ih =>
    obtain ⟨n, hn⟩ := hhead
    obtain ⟨m, hm⟩ := ih
    refine ⟨max n m, fun fuel hle => ?_⟩
    exact .cons (hn fuel (by omega)) (hm fuel (by omega))

end Loops

/-! ## JSON data -/

/-- The addresses lead to the value. -/
def Above (H : Heap) (ancestors : List Nat) (v : JsValue) : Prop :=
  ∀ a, v = .ref a → ∀ b ∈ ancestors, TransGen (Inside H) b a

theorem Above.inside {ancestors : List Nat} {a : Nat} (h : Above H ancestors (.ref a))
    (hv : ∀ b, v = .ref b → Inside H a b) : Above H (a :: ancestors) v := by
  intro b hb c hc
  rcases List.mem_cons.mp hc with rfl | hc
  · exact .single (hv b hb)
  · exact (h a rfl c hc).tail (hv b hb)

theorem encodeNumber_of_integer {bits : BitVec 64} {n : Int} (number : JsNumber.ofBits bits = .integer n)
    (safe : Json.isSafeInteger n = true) : encodeNumber text bits = .ok (.number (.int n)) := by
  simp only [encodeNumber, number, if_pos safe]

/-- The items of an array without holes are read and encoded. -/
theorem encodeItem_eq_ok {encode : JsValue → Except Failure Json} {items : List (Option Property)} {values : List JsValue}
    {jsons : List Json} (hfilled : List.Forall₂ Filled items values)
    (h : List.Forall₂ (fun v json => encode v = .ok json) values jsons) :
    List.Forall₂ (fun item json => encodeItem (fun property => property.read >>= encode) item = .ok json)
      items jsons := by
  induction hfilled generalizing jsons with
  | nil =>
    cases h
    exact .nil
  | cons hitem _ ih =>
    cases h with
    | cons hhead htail =>
      obtain ⟨property, rfl, hread⟩ := hitem
      refine .cons ?_ (ih htail)
      rw [encodeItem, hread]
      exact hhead

/-- The encoder writes JSON data as it is. -/
theorem encodeValue_of_reads (h : Reads H v json) {fuel : Nat} {ancestors : List Nat} (hfuel : sizeOf json ≤ fuel)
    (habove : Above H ancestors v) : encodeValue H text (fuel + 1) ancestors (.value v) = .ok json := by
  induction h generalizing fuel ancestors with
  | null => rfl
  | boolean => rfl
  | string => rfl
  | integer number safe => exact encodeNumber_of_integer number safe
  | fraction number =>
    rw [encodeValue, encodeNumber]
    simp only [number]
  | @array a items values jsons cell filled length inside ih =>
    have hread : Reads H (.ref a) (.array jsons) := .array cell filled length inside
    have hnew : a ∉ ancestors := fun hmem => hread.not_inside_self (habove a rfl a hmem)
    have hvalues : List.Forall₂ (fun v json => encodeValue H text fuel (a :: ancestors) (.value v) = .ok json)
        values jsons := by
      rw [List.forall₂_iff_zip]
      refine ⟨length, fun {v json} hmem => ?_⟩
      have hsize : sizeOf json < sizeOf (Json.array jsons) := sizeOf_lt_of_mem_array (List.of_mem_zip hmem).2
      obtain ⟨fuel', rfl⟩ := Nat.exists_eq_add_of_le' (show 1 ≤ fuel by omega)
      refine ih (v, json) hmem (show sizeOf json ≤ fuel' by omega) ((habove).inside fun b hb => ?_)
      obtain ⟨item, hitem, property, hproperty, hproperty'⟩ :=
        exists_mem_forall₂_right filled (List.of_mem_zip hmem).1
      exact .item cell (hproperty ▸ hitem) (hb ▸ hproperty')
    have hencoded := Lib.mapM_eq_ok_iff.2 (encodeItem_eq_ok filled hvalues)
    rw [encodeValue, if_neg hnew, cell]
    simp only [hencoded]
    rfl
  | @object a o values fields cell ordinary data names inside ih =>
    have hread : Reads H (.ref a) (.object fields) := .object cell ordinary data names inside
    have hnew : a ∉ ancestors := fun hmem => hread.not_inside_self (habove a rfl a hmem)
    have hentries : o.entries.mapM plainEntry = .ok values := by
      refine Lib.mapM_eq_ok_iff.2 ?_
      rw [data, List.forall₂_map_left_iff]
      exact List.forall₂_same.mpr fun entry _ => rfl
    have hvalues : List.Forall₂ (fun (entry : String × JsValue) (field : String × Json) => entry.1 = field.1 ∧
        encodeValue H text fuel (a :: ancestors) (.value entry.2) = .ok field.2) values fields := by
      rw [List.forall₂_iff_zip]
      refine ⟨length_eq_of_names names, fun {entry field} hmem => ?_⟩
      have hsize : sizeOf field.2 < sizeOf (Json.object fields) := sizeOf_lt_of_mem_object (List.of_mem_zip hmem).2
      obtain ⟨fuel', rfl⟩ := Nat.exists_eq_add_of_le' (show 1 ≤ fuel by omega)
      refine ⟨name_eq_of_mem_zip names hmem, ?_⟩
      refine ih (entry, field) hmem (show sizeOf field.2 ≤ fuel' by omega) (habove.inside fun b hb => ?_)
      have hlisted : (entry.1, Property.data (.ref b)) ∈ o.entries := by
        rw [data, List.mem_map]
        exact ⟨entry, (List.of_mem_zip hmem).1, by rw [hb]⟩
      exact .entry cell hlisted
    have hnodup : (fields.map Prod.fst).Nodup := (Json.wellFormed_object.1 hread.wellFormed).1
    have hencoded : encodeEntries (fun v => encodeValue H text fuel (a :: ancestors) (.value v)) [] values =
        .ok fields := encodeEntries_eq_ok hvalues hnodup fun _ _ => List.not_mem_nil
    rw [encodeValue, if_neg hnew, cell]
    simp only [ordinary.1, ordinary.2, hentries, if_true]
    show (encodeEntries (fun v => encodeValue H text fuel (a :: ancestors) (.value v)) [] values >>=
      fun encoded => .ok (Json.object encoded)) = _
    rw [hencoded]
    rfl

/-! ## What the serializer builds -/

/-- With enough fuel the encoder writes the data, and the text of the data decodes. -/
structure Encodes (H : Heap) (text : JsNumber → String) (lossless : LosslessJson) (serialized : WireEncodable)
    (json : Json) : Prop where
  returns : ∃ n, ∀ fuel, n ≤ fuel → encodeValue H text fuel [] serialized = .ok json
  wellFormed : json.wellFormed = true
  accepted : json.everywhere lossless.acceptsNumber = true

theorem encodes_value (hlossless : ∀ bits, JsNumber.ofBits bits = .fraction bits → lossless.acceptsFloat bits = true)
    (h : Reads H v json) : Encodes H text lossless (.value v) json := by
  refine ⟨⟨sizeOf json + 1, fun fuel hle => ?_⟩, h.wellFormed, h.accepted hlossless⟩
  obtain ⟨fuel', rfl⟩ := Nat.exists_eq_add_of_le' (show 1 ≤ fuel by omega)
  exact encodeValue_of_reads h (by omega) fun a _ b hb => absurd hb List.not_mem_nil

theorem encodes_array {items : List (Option WireEncodable)} {jsons : List Json}
    (h : List.Forall₂ (fun item json => ∃ serialized, item = some serialized ∧
      Encodes H text lossless serialized json) items jsons) :
    Encodes H text lossless (.array items) (.array jsons) := by
  refine ⟨?_, Json.everywhere_array.2 ⟨rfl, fun json hjson => ?_⟩,
    Json.everywhere_array.2 ⟨rfl, fun json hjson => ?_⟩⟩
  · have hreturns : List.Forall₂ (fun item json => ∃ n, ∀ fuel, n ≤ fuel →
        encodeItem (encodeValue H text fuel []) item = .ok json) items jsons := by
      refine h.imp fun item json hitem => ?_
      obtain ⟨serialized, rfl, hencodes⟩ := hitem
      exact hencodes.returns
    obtain ⟨n, hn⟩ := forall₂_enough_fuel hreturns
    refine ⟨n + 1, fun fuel hle => ?_⟩
    obtain ⟨fuel', rfl⟩ := Nat.exists_eq_add_of_le' (show 1 ≤ fuel by omega)
    have hmap := Lib.mapM_eq_ok_iff.2 (hn fuel' (by omega))
    rw [encodeValue, hmap]
    rfl
  · obtain ⟨item, -, serialized, -, hencodes⟩ := exists_mem_forall₂_right h hjson
    exact hencodes.wellFormed
  · obtain ⟨item, -, serialized, -, hencodes⟩ := exists_mem_forall₂_right h hjson
    exact hencodes.accepted

theorem encodes_ordered {entries : List (String × WireEncodable)} {fields : List (String × Json)}
    (h : List.Forall₂ (fun entry field => entry.1 = field.1 ∧ Encodes H text lossless entry.2 field.2) entries fields)
    (hnodup : (fields.map Prod.fst).Nodup) : Encodes H text lossless (.ordered entries) (.object fields) := by
  refine ⟨?_, Json.wellFormed_object.2 ⟨hnodup, fun field hfield => ?_⟩,
    Json.everywhere_object.2 ⟨rfl, fun field hfield => ?_⟩⟩
  · have hreturns : List.Forall₂ (fun (entry : String × WireEncodable) (field : String × Json) => ∃ n, ∀ fuel,
        n ≤ fuel → entry.1 = field.1 ∧ encodeValue H text fuel [] entry.2 = .ok field.2) entries fields := by
      refine h.imp fun entry field hentry => ?_
      obtain ⟨hname, ⟨n, hn⟩, -, -⟩ := hentry
      exact ⟨n, fun fuel hle => ⟨hname, hn fuel hle⟩⟩
    obtain ⟨n, hn⟩ := forall₂_enough_fuel hreturns
    refine ⟨n + 1, fun fuel hle => ?_⟩
    obtain ⟨fuel', rfl⟩ := Nat.exists_eq_add_of_le' (show 1 ≤ fuel by omega)
    have hencoded : encodeEntries (encodeValue H text fuel' []) [] entries = .ok fields :=
      encodeEntries_eq_ok (hn fuel' (by omega)) hnodup fun _ _ => List.not_mem_nil
    rw [encodeValue, hencoded]
    rfl
  · obtain ⟨entry, -, -, hencodes⟩ := exists_mem_forall₂_right h hfield
    exact hencodes.wellFormed
  · obtain ⟨entry, -, -, hencodes⟩ := exists_mem_forall₂_right h hfield
    exact hencodes.accepted

theorem Encodes.decode {serialized : WireEncodable} (h : Encodes H text lossless serialized json) :
    ∃ decoded, decodeWireJson lossless json = .ok decoded ∧ decoded.val = json := by
  refine ⟨⟨json, h.wellFormed⟩, ?_, rfl⟩
  have hparse : JsonText.trees.parse json = some ⟨json, h.wellFormed⟩ := dif_pos h.wellFormed
  rw [decodeWireJson, hparse]
  show lossless.decodeWireJson ⟨json, h.wellFormed⟩ = _
  rw [LosslessJson.decodeWireJson, if_pos h.accepted]

end Rtvbp.TypeScript.CatalogValue
