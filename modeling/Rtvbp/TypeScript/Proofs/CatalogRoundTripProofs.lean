import Rtvbp.Lib.Agree
import Rtvbp.TypeScript.Proofs.CatalogEncodeProofs

/-!
# Round trips of catalog values

A value that the validator takes round-trips exactly if it has no gap. Each of the walks is described by the rule of
the schema: `validateAt` by what a valid value looks like, and `serializeAt` by what it returns.
-/

namespace Rtvbp.TypeScript.CatalogValue

open Rtvbp.Lib Relation
open Rtvbp.TypeScript.Validation (ValidationIssue issue)
open Rtvbp.Validation (safeNumber)
open Json (asArray asStr)

variable {H : Heap} {R : Registry} {text : JsNumber → String} {lossless : LosslessJson} {v : JsValue}
  {schema json : Json} {path : String} {fuel : Nat}

/-! ## Well-formed schemas -/

theorem wellFormed_get {name : String} {w : Json} (h : schema.wellFormed = true) (hget : schema.get name = some w) :
    w.wellFormed = true := by
  cases schema with
  | object fields => exact (Json.wellFormed_object.1 h).2 (name, w) (Lib.mem_of_lookup_eq_some hget)
  | _ => cases hget

theorem wellFormed_item {items : List Json} {w : Json} (h : (Json.array items).wellFormed = true) (hw : w ∈ items) :
    w.wellFormed = true := (Json.everywhere_array.1 h).2 w hw

theorem wellFormed_getArray {name : String} {items : List Json} (h : schema.wellFormed = true)
    (hget : (schema.get name).bind asArray = some items) : ∀ w ∈ items, w.wellFormed = true := by
  obtain ⟨w, hw, harray⟩ := Option.bind_eq_some_iff.mp hget
  have hwell := wellFormed_get h hw
  cases w with
  | array items' =>
    cases harray
    exact fun item hitem => wellFormed_item hwell hitem
  | _ => cases harray

theorem wellFormed_soleType {type : Json} (h : schema.wellFormed = true) (hsole : soleType schema = some type) :
    type.wellFormed = true := by
  unfold soleType at hsole
  split at hsole
  · next sole hfilter =>
    cases hsole
    obtain ⟨types, htypes, heq⟩ := Option.map_eq_some_iff.mp hfilter
    have hmem : type ∈ types.filter fun type => !isNullText type := by
      rw [heq]
      exact List.mem_singleton_self type
    exact wellFormed_getArray h htypes type (List.mem_of_mem_filter hmem)
  · cases hsole

theorem wellFormed_soleVariant {keyword : String} {variant : Json} (h : schema.wellFormed = true)
    (hsole : soleVariant schema keyword = some variant) : variant.wellFormed = true := by
  unfold soleVariant at hsole
  split at hsole
  · next sole hfilter =>
    split at hsole
    · cases hsole
      obtain ⟨variants, hvariants, heq⟩ := Option.map_eq_some_iff.mp hfilter
      have hmem : variant ∈ variants.filter fun variant => !isNullVariant variant := by
        rw [heq]
        exact List.mem_singleton_self variant
      exact wellFormed_getArray h hvariants variant (List.mem_of_mem_filter hmem)
    · cases hsole
  · cases hsole

theorem wellFormed_withType {type : Json} (h : schema.wellFormed = true) (htype : type.wellFormed = true) :
    (withType schema type).wellFormed = true := by
  cases schema with
  | object fields =>
    obtain ⟨hnodup, hfields⟩ := Json.wellFormed_object.1 h
    refine Json.wellFormed_object.2 ⟨Json.nodup_insertField hnodup, fun field hfield => ?_⟩
    rcases Json.mem_insertField hfield with rfl | hfield
    · exact htype
    · exact hfields field hfield
  | _ => exact h

theorem wellFormed_nonNullSchema (h : schema.wellFormed = true) : (nonNullSchema schema).wellFormed = true := by
  unfold nonNullSchema
  split
  · next type hsole => exact wellFormed_withType h (wellFormed_soleType h hsole)
  · cases hany : soleVariant schema "anyOf" with
    | some variant => exact wellFormed_soleVariant h hany
    | none =>
      cases hone : soleVariant schema "oneOf" with
      | some variant => exact wellFormed_soleVariant h hone
      | none => exact h

theorem wellFormed_record {keyword : String} {fields : List (String × Json)} (h : schema.wellFormed = true)
    (hrecord : recordKeyword schema keyword = some fields) : (Json.object fields).wellFormed = true := by
  obtain ⟨w, hw, hobject⟩ := Option.bind_eq_some_iff.mp hrecord
  have hwell := wellFormed_get h hw
  cases w with
  | object fields' =>
    cases hobject
    exact hwell
  | _ => cases hobject

/-! ## Rules -/

/-- Where the rule of a schema comes from. -/
inductive Ruled (schema : Json) : Rule → Prop where
  | reference {name : String} (named : referenceName ((nonNullSchema schema).get "$ref") = some name) :
      Ruled schema (.reference name)
  | items {fields : List (String × Json)} (unnamed : referenceName ((nonNullSchema schema).get "$ref") = none)
      (type : schemaType (nonNullSchema schema) = .array)
      (record : recordKeyword (nonNullSchema schema) "items" = some fields) : Ruled schema (.items (.object fields))
  | list (unnamed : referenceName ((nonNullSchema schema).get "$ref") = none)
      (type : schemaType (nonNullSchema schema) = .array)
      (record : recordKeyword (nonNullSchema schema) "items" = none) : Ruled schema (.whole .array)
  | properties {fields : List (String × Json)} (unnamed : referenceName ((nonNullSchema schema).get "$ref") = none)
      (type : schemaType (nonNullSchema schema) = .object)
      (record : recordKeyword (nonNullSchema schema) "properties" = some fields) :
      Ruled schema (.properties (fields.filter fun property => isRecord property.2))
  | openMap (unnamed : referenceName ((nonNullSchema schema).get "$ref") = none)
      (type : schemaType (nonNullSchema schema) = .object)
      (record : recordKeyword (nonNullSchema schema) "properties" = none)
      (additional : ((nonNullSchema schema).get "additionalProperties").any Json.isTrue = true) :
      Ruled schema .openMap
  | closed (unnamed : referenceName ((nonNullSchema schema).get "$ref") = none)
      (type : schemaType (nonNullSchema schema) = .object)
      (record : recordKeyword (nonNullSchema schema) "properties" = none)
      (additional : ((nonNullSchema schema).get "additionalProperties").any Json.isTrue = false) :
      Ruled schema .closed
  | leaf {type : SchemaType} (unnamed : referenceName ((nonNullSchema schema).get "$ref") = none)
      (typed : schemaType (nonNullSchema schema) = type) (notArray : type ≠ .array) (notObject : type ≠ .object) :
      Ruled schema (.whole type)

theorem ruled (schema : Json) : Ruled schema (ruleOf schema) := by
  unfold ruleOf
  cases hname : referenceName ((nonNullSchema schema).get "$ref") with
  | some name =>
    simp only [hname]
    exact .reference hname
  | none =>
    simp only [hname]
    cases htype : schemaType (nonNullSchema schema) with
    | array =>
      cases hrecord : recordKeyword (nonNullSchema schema) "items" with
      | some fields => exact .items hname htype hrecord
      | none => exact .list hname htype hrecord
    | object =>
      cases hrecord : recordKeyword (nonNullSchema schema) "properties" with
      | some fields => exact .properties hname htype hrecord
      | none =>
        cases hadditional : ((nonNullSchema schema).get "additionalProperties").any Json.isTrue with
        | true => exact .openMap hname htype hrecord hadditional
        | false => exact .closed hname htype hrecord hadditional
    | _ => exact .leaf hname htype (by decide) (by decide)

/-! ## What a valid value looks like -/

theorem issue_ne_nil {path rule message : String} : issue path rule message ≠ [] := by simp [issue]

theorem collect_eq_nil {α : Type} {check : α → Except Failure (List ValidationIssue)} {l : List α}
    (h : collect check l = .ok []) : ∀ a ∈ l, check a = .ok [] := by
  induction l with
  | nil => exact fun a ha => absurd ha List.not_mem_nil
  | cons a l ih =>
    obtain ⟨first, hfirst, h⟩ := exists_of_bind_eq_ok h
    obtain ⟨issues, hissues, h⟩ := exists_of_bind_eq_ok h
    have happend : first ++ issues = [] := Except.ok.inj h
    obtain ⟨rfl, rfl⟩ := List.append_eq_nil_iff.mp happend
    intro b hb
    rcases List.mem_cons.mp hb with rfl | hb
    · exact hfirst
    · exact ih hissues b hb

theorem exists_mem_zipIdx {α : Type} {l : List α} {a : α} (h : a ∈ l) : ∃ i, (a, i) ∈ l.zipIdx := by
  obtain ⟨i, hi, rfl⟩ := List.getElem_of_mem h
  exact ⟨i, List.mem_zipIdx_iff_getElem?.mpr (List.getElem?_eq_getElem hi)⟩

theorem validate_reference {name : String} (h : validateAt H R text (fuel + 1) v schema path = .ok [])
    (hv : v ≠ .null) (hrule : ruleOf schema = .reference name) :
    ∃ target, R name = some target ∧ validateAt H R text fuel v target.val path = .ok [] := by
  have hruled := ruled schema
  rw [hrule] at hruled
  cases hruled with
  | reference named =>
    cases htarget : R name with
    | none =>
      rw [validateAt, if_neg fun hnull => hv hnull.1] at h
      simp only [named, htarget, Except.ok.injEq] at h
      exact absurd h issue_ne_nil
    | some target =>
      rw [validateAt_reference hv named htarget] at h
      exact ⟨target, rfl, h⟩

theorem validate_items {child : Json} (h : validateAt H R text (fuel + 1) v schema path = .ok [])
    (hv : v ≠ .null) (hrule : ruleOf schema = .items child) :
    ∃ a items, v = .ref a ∧ H a = .array items ∧ ∀ property, some property ∈ items →
      ∃ w path, property.read = .ok w ∧ validateAt H R text fuel w child path = .ok [] := by
  have hruled := ruled schema
  rw [hrule] at hruled
  cases hruled with
  | @items fields unnamed type record =>
    rw [validateAt, if_neg fun hnull => hv hnull.1] at h
    simp only [unnamed, type, record] at h
    split at h
    · next items hcell =>
      cases v with
      | ref a =>
        refine ⟨a, items, rfl, Option.some.inj hcell, fun property hmem => ?_⟩
        obtain ⟨i, hi⟩ := exists_mem_zipIdx hmem
        obtain ⟨w, hread, hw⟩ := exists_of_bind_eq_ok (collect_eq_nil h _ hi)
        exact ⟨w, _, hread, hw⟩
      | _ => cases hcell
    · exact absurd (Except.ok.inj h) issue_ne_nil

/-- A valid object, with the calls for its declared properties. -/
theorem validate_object (h : validateAt H R text (fuel + 1) v schema path = .ok []) (hv : v ≠ .null)
    (hunnamed : referenceName ((nonNullSchema schema).get "$ref") = none)
    (htype : schemaType (nonNullSchema schema) = .object) :
    ∃ a o, v = .ref a ∧ H a = .object o ∧ ∀ required, required = requiredNames (nonNullSchema schema) →
      ∀ property ∈ objectKeys ((recordKeyword (nonNullSchema schema) "properties").getD []),
        validateProperty (validateAt H R text fuel) o required path property = .ok [] := by
  rw [validateAt, if_neg fun hnull => hv hnull.1] at h
  simp only [hunnamed, htype] at h
  split at h
  · next o hrecord =>
    obtain ⟨declared, hdeclared, h⟩ := exists_of_bind_eq_ok h
    obtain ⟨order, horder, h⟩ := exists_of_bind_eq_ok h
    have happend : declared ++ order = [] := Except.ok.inj h
    obtain ⟨rfl, rfl⟩ := List.append_eq_nil_iff.mp happend
    unfold Heap.record at hrecord
    split at hrecord
    · next o' hcell =>
      cases hrecord
      cases v with
      | ref a =>
        refine ⟨a, o, rfl, Option.some.inj hcell, fun required hrequired => ?_⟩
        subst hrequired
        exact collect_eq_nil hdeclared
      | _ => cases hcell
    · cases hrecord
  · exact absurd (Except.ok.inj h) issue_ne_nil

theorem objectKeys_perm {α : Type} (entries : List (String × α)) : (objectKeys entries).Perm entries := by
  have hsplit := List.filter_append_perm (fun entry : String × α => (arrayIndex entry.1).isSome) entries
  have hother : (entries.filter fun entry => !(arrayIndex entry.1).isSome) =
      entries.filter fun entry => (arrayIndex entry.1).isNone := by
    refine List.filter_congr fun entry _ => ?_
    cases arrayIndex entry.1 with
    | none => rfl
    | some i => rfl
  rw [hother] at hsplit
  unfold objectKeys
  exact List.Perm.trans (List.Perm.append_right _ (List.mergeSort_perm _ _)) hsplit

theorem validate_properties {declared : List (String × Json)}
    (h : validateAt H R text (fuel + 1) v schema path = .ok []) (hv : v ≠ .null)
    (hrule : ruleOf schema = .properties declared) :
    ∃ a o, v = .ref a ∧ H a = .object o ∧ ∀ name child property, (name, child) ∈ declared →
      o.own name = some property →
        ∃ w path, property.read = .ok w ∧ validateAt H R text fuel w child path = .ok [] := by
  have hruled := ruled schema
  rw [hrule] at hruled
  cases hruled with
  | @properties fields unnamed type record =>
    obtain ⟨a, o, rfl, hcell, hproperties⟩ := validate_object h hv unnamed type
    refine ⟨a, o, rfl, hcell, fun name child property hmem hown => ?_⟩
    obtain ⟨hmem, hchild⟩ := List.mem_filter.mp hmem
    have hvalid := hproperties _ rfl (name, child) (by
      rw [record]
      exact (objectKeys_perm _).mem_iff.mpr hmem)
    unfold validateProperty at hvalid
    simp only [hown, if_pos hchild] at hvalid
    obtain ⟨w, hread, hw⟩ := exists_of_bind_eq_ok hvalid
    exact ⟨w, _, hread, hw⟩

/-! ## Values that are kept as they are -/

theorem isJson_of_isSafeInteger {bits : BitVec 64} (h : isSafeInteger bits = true) : IsJson H (.number bits) := by
  unfold isSafeInteger at h
  split at h
  · next n hnumber => exact ⟨_, .integer hnumber h⟩
  · cases h

theorem fraction_of_ite {c d e f g : Prop} [Decidable c] [Decidable d] [Decidable e] [Decidable f] [Decidable g]
    {text : String} {m n : Int} {bits bits' : BitVec 64}
    (h : (if c then JsNumber.nonFinite text
      else if d then if e then .negativeZero else .integer 0
      else if f then .integer m
      else if g then .integer n
      else .fraction bits) = .fraction bits') : bits' = bits := by
  by_cases hc : c
  · rw [if_pos hc] at h
    cases h
  · by_cases hd : d
    · rw [if_neg hc, if_pos hd] at h
      by_cases he : e
      · rw [if_pos he] at h
        cases h
      · rw [if_neg he] at h
        cases h
    · by_cases hf : f
      · rw [if_neg hc, if_neg hd, if_pos hf] at h
        cases h
      · by_cases hg : g
        · rw [if_neg hc, if_neg hd, if_neg hf, if_pos hg] at h
          cases h
        · rw [if_neg hc, if_neg hd, if_neg hf, if_neg hg] at h
          exact (JsNumber.fraction.inj h).symm

theorem ofBits_fraction {bits bits' : BitVec 64} (h : JsNumber.ofBits bits = .fraction bits') : bits' = bits := by
  unfold JsNumber.ofBits at h
  exact fraction_of_ite h
/-- A finite number is JSON data, apart from integers that are not safe. -/
theorem isJson_of_isFinite {bits : BitVec 64} (h : isFinite bits = true)
    (hsafe : ∀ n, JsNumber.ofBits bits = .integer n → Json.isSafeInteger n = true) : IsJson H (.number bits) := by
  unfold isFinite at h
  split at h
  · next n hnumber => exact ⟨_, .integer hnumber (hsafe n hnumber)⟩
  · next bits' hnumber =>
    cases ofBits_fraction hnumber
    exact ⟨_, .fraction hnumber⟩
  · cases h

theorem isJson_of_safeNumber {bits : BitVec 64} (h : safeNumber (.float bits) = true) : IsJson H (.number bits) := by
  unfold safeNumber at h
  split at h
  · next n hnumber => exact ⟨_, .integer hnumber h⟩
  · next bits' hnumber =>
    cases ofBits_fraction hnumber
    exact ⟨_, .fraction hnumber⟩
  · cases h

/-- A value that `validateAny` takes is JSON data, unless `wireObject` made a part of it. -/
theorem isJson_of_validateAny (h : validateAny H fuel v path = .ok []) (hwrapped : ¬ Wrapped H v) : IsJson H v := by
  induction fuel generalizing v path with
  | zero => cases h
  | succ fuel ih =>
    cases v with
    | null => exact ⟨_, .null⟩
    | boolean b => exact ⟨_, .boolean⟩
    | string s => exact ⟨_, .string⟩
    | number bits =>
      by_cases hsafe : safeNumber (.float bits) = true
      · exact isJson_of_safeNumber hsafe
      · rw [validateAny, if_neg hsafe] at h
        exact absurd (Except.ok.inj h) issue_ne_nil
    | unsupported typeof => exact absurd (Except.ok.inj h) issue_ne_nil
    | ref a =>
      rw [validateAny] at h
      split at h
      · next items hcell =>
        refine isJson_array hcell fun item hitem => ?_
        obtain ⟨i, hi⟩ := exists_mem_zipIdx hitem
        have hcheck := collect_eq_nil h _ hi
        cases item with
        | none => exact absurd (Except.ok.inj hcheck) issue_ne_nil
        | some property =>
          obtain ⟨w, hread, hw⟩ := exists_of_bind_eq_ok hcheck
          refine ⟨w, ⟨property, rfl, hread⟩, ih hw (not_wrapped_inside hwrapped fun b hb => ?_)⟩
          exact .item hcell hitem (hb ▸ hread)
      · next o hcell =>
        have hunordered : o.ordered = none := by
          by_contra hordered
          exact hwrapped ⟨a, a, o, rfl, .refl, hcell, Option.isSome_iff_ne_none.mpr hordered⟩
        split at h
        · next hplain =>
          refine isJson_object hcell ⟨hplain, hunordered⟩ fun entry hentry => ?_
          have hcheck := collect_eq_nil h entry hentry
          rcases entry with ⟨name, property⟩
          cases property with
          | accessor result => exact absurd (Except.ok.inj hcheck) issue_ne_nil
          | data w =>
            refine ⟨w, rfl, ih hcheck (not_wrapped_inside hwrapped fun b hb => ?_)⟩
            subst hb
            exact .entry hcell hentry
        · exact absurd (Except.ok.inj h) issue_ne_nil

/-- Where the schema describes no parts, a valid value without a gap is JSON data. -/
theorem isJson_of_validateAt {type : SchemaType} (h : validateAt H R text (fuel + 1) v schema path = .ok [])
    (hv : v ≠ .null) (hrule : ruleOf schema = .whole type) (hgap : ¬ Gap H R schema v) : IsJson H v := by
  have hruled := ruled schema
  rw [hrule] at hruled
  cases hruled with
  | list =>
    by_contra hother
    exact hgap (.list hrule hother)
  | leaf unnamed typed notArray notObject =>
    rw [validateAt, if_neg fun hnull => hv hnull.1] at h
    simp only [unnamed, typed] at h
    cases type with
    | null =>
      simp only [if_neg hv, Except.ok.injEq] at h
      exact absurd h issue_ne_nil
    | string =>
      cases v with
      | string s => exact ⟨_, .string⟩
      | _ => exact absurd (Except.ok.inj h) issue_ne_nil
    | boolean =>
      cases v with
      | boolean b => exact ⟨_, .boolean⟩
      | _ => exact absurd (Except.ok.inj h) issue_ne_nil
    | integer =>
      cases v with
      | number bits =>
        by_cases hsafe : isSafeInteger bits = true
        · exact isJson_of_isSafeInteger hsafe
        · simp only [validateNumber, if_neg hsafe, Except.ok.injEq] at h
          exact absurd h issue_ne_nil
      | _ => exact absurd (Except.ok.inj h) issue_ne_nil
    | number =>
      cases v with
      | number bits =>
        by_cases hfinite : isFinite bits = true
        · refine isJson_of_isFinite hfinite fun n hn => ?_
          by_contra hlarge
          exact hgap (.number hrule hn (Bool.not_eq_true _ ▸ hlarge))
        · simp only [validateNumber, if_neg hfinite, Except.ok.injEq] at h
          exact absurd h issue_ne_nil
      | _ => exact absurd (Except.ok.inj h) issue_ne_nil
    | array => exact absurd rfl notArray
    | object => exact absurd rfl notObject
    | absent => exact isJson_of_validateAny h fun hwrapped => hgap (.wrapped hrule hwrapped)
    | unsupported => exact absurd (Except.ok.inj h) issue_ne_nil

/-! ## What the serializer returns -/

/-- With that fuel and any more, the value is serialized to what the encoder writes as the data, and the data shows
the value. -/
structure Serves (H : Heap) (R : Registry) (text : JsNumber → String) (lossless : LosslessJson) (fuel : Nat)
    (schema : Json) (v : JsValue) (serialized : WireEncodable) (json : Json) : Prop where
  serialize : ∀ n, fuel ≤ n → serializeAt H R n v schema = .ok serialized
  encodes : Encodes H text lossless serialized json
  shown : Shows H R schema v json

section Serializer

variable (hlossless : ∀ bits, JsNumber.ofBits bits = .fraction bits → lossless.acceptsFloat bits = true)

include hlossless

theorem serves_null : Serves H R text lossless (fuel + 1) schema .null (.value .null) .null := by
  refine ⟨fun n hle => ?_, encodes_value hlossless .null, .null⟩
  obtain ⟨m, rfl⟩ := Nat.exists_eq_add_of_le' (show 1 ≤ n by omega)
  rw [serializeAt, if_pos rfl]

theorem serves_whole {type : SchemaType} (hv : v ≠ .null) (hrule : ruleOf schema = .whole type)
    (hread : Reads H v json) : Serves H R text lossless (fuel + 1) schema v (.value v) json := by
  refine ⟨fun n hle => ?_, encodes_value hlossless hread, .whole hrule hread⟩
  obtain ⟨m, rfl⟩ := Nat.exists_eq_add_of_le' (show 1 ≤ n by omega)
  have hruled := ruled schema
  rw [hrule] at hruled
  rw [serializeAt, if_neg hv]
  cases hruled with
  | list unnamed typed record =>
    simp only [unnamed, typed]
    split
    · simp only [record]
    · cases ‹SchemaType.array = SchemaType.object›
    · rfl
  | leaf unnamed typed notArray notObject =>
    simp only [unnamed, typed]
    split
    · exact absurd rfl notArray
    · exact absurd rfl notObject
    · rfl

end Serializer

theorem serves_reference {name : String} {target : Value} {serialized : WireEncodable} (hv : v ≠ .null)
    (hrule : ruleOf schema = .reference name) (found : R name = some target)
    (h : Serves H R text lossless fuel target.val v serialized json) :
    Serves H R text lossless (fuel + 1) schema v serialized json := by
  refine ⟨fun n hle => ?_, h.encodes, .reference hrule found h.shown⟩
  obtain ⟨m, rfl⟩ := Nat.exists_eq_add_of_le' (show 1 ≤ n by omega)
  have hruled := ruled schema
  rw [hrule] at hruled
  cases hruled with
  | reference named =>
    rw [serializeAt_reference hv named found]
    exact h.serialize m (by omega)

theorem serves_items {child : Json} {a : Nat} {items : List (Option Property)} (hrule : ruleOf schema = .items child)
    (cell : H a = .array items)
    (h : ∀ item ∈ items, ∃ w serialized json, Filled item w ∧ Serves H R text lossless fuel child w serialized json) :
    ∃ serialized json, Serves H R text lossless (fuel + 1) schema (.ref a) serialized json := by
  have htriples : ∀ item ∈ items, ∃ triple : JsValue × WireEncodable × Json,
      Filled item triple.1 ∧ Serves H R text lossless fuel child triple.1 triple.2.1 triple.2.2 := by
    intro item hitem
    obtain ⟨w, serialized, json, hfilled, hserves⟩ := h item hitem
    exact ⟨(w, serialized, json), hfilled, hserves⟩
  obtain ⟨triples, htriples⟩ := exists_forall₂ htriples
  have hserves : ∀ triple ∈ triples, Serves H R text lossless fuel child triple.1 triple.2.1 triple.2.2 := by
    intro triple htriple
    obtain ⟨item, -, hitem⟩ := exists_mem_forall₂_right htriples htriple
    exact hitem.2
  refine ⟨.array (triples.map fun triple => some triple.2.1), .array (triples.map fun triple => triple.2.2),
    fun n hle => ?_, ?_, ?_⟩
  · obtain ⟨m, rfl⟩ := Nat.exists_eq_add_of_le' (show 1 ≤ n by omega)
    have hruled := ruled schema
    rw [hrule] at hruled
    cases hruled with
    | @items fields unnamed typed record =>
      have hmap : items.mapM (serializeItem fun v => serializeAt H R m v (.object fields)) =
          .ok (triples.map fun triple => some triple.2.1) := by
        refine mapM_eq_ok_iff.2 ?_
        rw [List.forall₂_map_right_iff]
        refine htriples.imp fun item triple htriple => ?_
        obtain ⟨⟨property, rfl, hread⟩, hserves⟩ := htriple
        rw [serializeItem, hread]
        show (serializeAt H R m triple.1 (.object fields) >>= fun serialized => .ok (some serialized)) = _
        rw [hserves.serialize m (by omega)]
        rfl
      have hcell : H.cell (.ref a) = some (.array items) := congrArg some cell
      rw [serializeAt, if_neg (by simp)]
      simp only [unnamed, typed, hcell, record, hmap]
      rfl
  · refine encodes_array ?_
    rw [List.forall₂_map_left_iff, List.forall₂_map_right_iff, List.forall₂_same]
    exact fun triple htriple => ⟨triple.2.1, rfl, (hserves triple htriple).encodes⟩
  · have hfilled : List.Forall₂ Filled items (triples.map Prod.fst) := by
      rw [List.forall₂_map_right_iff]
      exact htriples.imp fun item triple htriple => htriple.1
    refine .items hrule cell hfilled (by simp) fun pair hpair => ?_
    rw [List.zip_map', List.mem_map] at hpair
    obtain ⟨triple, htriple, rfl⟩ := hpair
    exact (hserves triple htriple).shown

theorem eq_of_nodup_names {α : Type} {l : List (String × α)} {name : String} {a b : α} (h : (l.map Prod.fst).Nodup)
    (ha : (name, a) ∈ l) (hb : (name, b) ∈ l) : a = b := by
  have hlookup := (Lib.lookup_eq_some_iff_mem h).mpr ha
  rw [(Lib.lookup_eq_some_iff_mem h).mpr hb] at hlookup
  exact (Option.some.inj hlookup).symm

/-- A property that the serializer keeps. -/
def isKept (o : JsObject) (property : String × Json) : Bool := isRecord property.2 && (o.own property.1).isSome

/-- The loop over the declared properties, when the value of each of them is served. -/
theorem serializeProperties_eq_ok {o : JsObject} {properties : List (String × Json)}
    (h : ∀ name child property, (name, child) ∈ properties → isRecord child = true → o.own name = some property →
      ∃ w serialized json, property.read = .ok w ∧ Serves H R text lossless fuel child w serialized json) :
    ∃ kept : List (String × WireEncodable × Json),
      (∀ n, fuel ≤ n → serializeProperties (serializeAt H R n) o properties =
        .ok (kept.map fun part => (part.1, part.2.1))) ∧
      kept.map Prod.fst = (properties.filter (isKept o)).map Prod.fst ∧
      ∀ part ∈ kept, ∃ child property w, (part.1, child) ∈ properties ∧ o.own part.1 = some property ∧
        property.read = .ok w ∧ Serves H R text lossless fuel child w part.2.1 part.2.2 := by
  induction properties with
  | nil => exact ⟨[], fun _ _ => rfl, rfl, fun part hpart => absurd hpart List.not_mem_nil⟩
  | cons first properties ih =>
    rcases first with ⟨name, child⟩
    obtain ⟨kept, hkept, hnames, hparts⟩ := ih fun name child property hmem =>
      h name child property (List.mem_cons_of_mem _ hmem)
    have hrest : ∀ part ∈ kept, ∃ child' property w, (part.1, child') ∈ (name, child) :: properties ∧
        o.own part.1 = some property ∧ property.read = .ok w ∧
        Serves H R text lossless fuel child' w part.2.1 part.2.2 := by
      intro part hpart
      obtain ⟨child', property, w, hmem, hpart⟩ := hparts part hpart
      exact ⟨child', property, w, List.mem_cons_of_mem _ hmem, hpart⟩
    cases hown : o.own name with
    | none =>
      refine ⟨kept, fun n hle => ?_, ?_, hrest⟩
      · rw [serializeProperties, hown]
        exact hkept n hle
      · rw [List.filter_cons_of_neg (by simp [isKept, hown])]
        exact hnames
    | some property =>
      by_cases hchild : isRecord child = true
      · obtain ⟨w, serialized, json, hread, hserves⟩ := h name child property List.mem_cons_self hchild hown
        refine ⟨(name, serialized, json) :: kept, fun n hle => ?_, ?_, fun part hpart => ?_⟩
        · rw [serializeProperties, hown]
          simp only [if_pos hchild, hread]
          show (serializeAt H R n w child >>= fun serialized =>
            serializeProperties (serializeAt H R n) o properties >>= fun entries =>
              .ok ((name, serialized) :: entries)) = _
          rw [hserves.serialize n hle, hkept n hle]
          rfl
        · rw [List.filter_cons_of_pos (by simp [isKept, hown, hchild]), List.map_cons, List.map_cons, hnames]
        · rcases List.mem_cons.mp hpart with rfl | hpart
          · exact ⟨child, property, w, List.mem_cons_self, hown, hread, hserves⟩
          · exact hrest part hpart
      · refine ⟨kept, fun n hle => ?_, ?_, hrest⟩
        · rw [serializeProperties, hown]
          simp only [if_neg hchild]
          exact hkept n hle
        · rw [List.filter_cons_of_neg (by simp [isKept, hchild])]
          exact hnames

theorem serves_properties {declared : List (String × Json)} {a : Nat} {o : JsObject}
    (hschema : schema.wellFormed = true) (hrule : ruleOf schema = .properties declared) (cell : H a = .object o)
    (h : ∀ name child property, (name, child) ∈ declared → o.own name = some property →
      ∃ w serialized json, property.read = .ok w ∧ Serves H R text lossless fuel child w serialized json) :
    ∃ serialized json, Serves H R text lossless (fuel + 1) schema (.ref a) serialized json := by
  have hruled := ruled schema
  rw [hrule] at hruled
  cases hruled with
  | @properties properties unnamed typed record =>
    have hproperties := (Json.wellFormed_object.1 (wellFormed_record (wellFormed_nonNullSchema hschema) record)).1
    have hperm := objectKeys_perm properties
    obtain ⟨kept, hkept, hnames, hparts⟩ := serializeProperties_eq_ok fun name child property hmem hchild hown =>
      h name child property (List.mem_filter.mpr ⟨hperm.mem_iff.mp hmem, hchild⟩) hown
    have hkeptNodup : (kept.map Prod.fst).Nodup := by
      rw [hnames]
      have hkeys : ((objectKeys properties).map Prod.fst).Nodup := (hperm.map Prod.fst).nodup_iff.mpr hproperties
      exact hkeys.sublist (List.filter_sublist.map Prod.fst)
    have hfields : (kept.map fun part => (part.1, part.2.2)).map Prod.fst = kept.map Prod.fst := by
      rw [List.map_map]
      rfl
    refine ⟨.ordered (kept.map fun part => (part.1, part.2.1)), .object (kept.map fun part => (part.1, part.2.2)),
      fun n hle => ?_, ?_, ?_⟩
    · obtain ⟨m, rfl⟩ := Nat.exists_eq_add_of_le' (show 1 ≤ n by omega)
      have hcell : H.cell (.ref a) = some (.object o) := congrArg some cell
      rw [serializeAt, if_neg (by simp)]
      simp only [unnamed, typed, hcell, record, hkept m (by omega)]
      rfl
    · refine encodes_ordered ?_ (by rw [hfields]; exact hkeptNodup)
      rw [List.forall₂_map_left_iff, List.forall₂_map_right_iff, List.forall₂_same]
      intro part hpart
      obtain ⟨child, property, w, -, -, -, hserves⟩ := hparts part hpart
      exact ⟨rfl, hserves.encodes⟩
    · refine .properties hrule cell (fun name => ?_) fun name child property w json hmem hown hread hjson => ?_
      · rw [hfields, hnames, List.mem_map, List.mem_map]
        constructor
        · rintro ⟨⟨name, child⟩, hmem, rfl⟩
          obtain ⟨hmem, hkept⟩ := List.mem_filter.mp hmem
          obtain ⟨hchild, hown⟩ := Bool.and_eq_true_iff.mp hkept
          exact ⟨⟨(name, child), List.mem_filter.mpr ⟨hperm.mem_iff.mp hmem, hchild⟩, rfl⟩, hown⟩
        · rintro ⟨⟨⟨name, child⟩, hmem, rfl⟩, hown⟩
          obtain ⟨hmem, hchild⟩ := List.mem_filter.mp hmem
          exact ⟨(name, child), List.mem_filter.mpr ⟨hperm.mem_iff.mpr hmem,
            Bool.and_eq_true_iff.mpr ⟨hchild, hown⟩⟩, rfl⟩
      · obtain ⟨part, hpart, heq⟩ := List.mem_map.mp hjson
        cases heq
        obtain ⟨child', property', w', hmem', hown', hread', hserves⟩ := hparts part hpart
        cases eq_of_nodup_names hproperties (hperm.mem_iff.mp hmem') (List.mem_filter.mp hmem).1
        rw [hown'] at hown
        cases hown
        rw [hread'] at hread
        cases hread
        exact hserves.shown

theorem serves_openMap {a : Nat} {o : JsObject}
    (hlossless : ∀ bits, JsNumber.ofBits bits = .fraction bits → lossless.acceptsFloat bits = true)
    (hrule : ruleOf schema = .openMap) (cell : H a = .object o)
    (h : ∀ entry ∈ o.entries, ∃ w, entry.2.read = .ok w ∧ IsJson H w) :
    ∃ serialized json, Serves H R text lossless (fuel + 1) schema (.ref a) serialized json := by
  have hruled := ruled schema
  rw [hrule] at hruled
  cases hruled with
  | openMap unnamed typed record additional =>
    have hkeys : (o.entries.map Prod.fst).Nodup := by
      have hkeys := o.keys
      rw [List.map_append, List.nodup_append] at hkeys
      exact hkeys.1
    have hperm := List.mergeSort_perm o.entries fun a b => decide (codeUnits a.1 ≤ codeUnits b.1)
    have htriples : ∀ entry ∈ o.entries.mergeSort fun a b => decide (codeUnits a.1 ≤ codeUnits b.1),
        ∃ triple : String × JsValue × Json, entry.1 = triple.1 ∧ entry.2.read = .ok triple.2.1 ∧
          Reads H triple.2.1 triple.2.2 := by
      intro entry hentry
      obtain ⟨w, hread, json, hjson⟩ := h entry (hperm.mem_iff.mp hentry)
      exact ⟨(entry.1, w, json), rfl, hread, hjson⟩
    obtain ⟨triples, htriples⟩ := exists_forall₂ htriples
    have hnames : (triples.map fun triple => (triple.1, triple.2.2)).map Prod.fst =
        (o.entries.mergeSort fun a b => decide (codeUnits a.1 ≤ codeUnits b.1)).map Prod.fst := by
      rw [List.map_map, ← List.forall₂_eq_eq_eq, List.forall₂_map_left_iff, List.forall₂_map_right_iff]
      exact htriples.flip.imp fun triple entry hentry => hentry.1.symm
    have hnodup : ((triples.map fun triple => (triple.1, triple.2.2)).map Prod.fst).Nodup := by
      rw [hnames]
      exact (hperm.map Prod.fst).nodup_iff.mpr hkeys
    refine ⟨.ordered (triples.map fun triple => (triple.1, .value triple.2.1)),
      .object (triples.map fun triple => (triple.1, triple.2.2)), fun n hle => ?_, ?_, ?_⟩
    · obtain ⟨m, rfl⟩ := Nat.exists_eq_add_of_le' (show 1 ≤ n by omega)
      have hcell : H.cell (.ref a) = some (.object o) := congrArg some cell
      have hmap : (o.entries.mergeSort fun a b => decide (codeUnits a.1 ≤ codeUnits b.1)).mapM (fun entry => do
          let v ← entry.2.read
          return (entry.1, WireEncodable.value v)) =
          .ok (triples.map fun triple => (triple.1, .value triple.2.1)) := by
        refine mapM_eq_ok_iff.2 ?_
        rw [List.forall₂_map_right_iff]
        refine htriples.imp fun entry triple htriple => ?_
        obtain ⟨hname, hread, -⟩ := htriple
        rw [hread, hname]
        rfl
      rw [serializeAt, if_neg (by simp)]
      simp only [unnamed, typed, hcell, record, if_pos additional, wireMap, hmap]
      rfl
    · refine encodes_ordered ?_ hnodup
      rw [List.forall₂_map_left_iff, List.forall₂_map_right_iff, List.forall₂_same]
      intro triple htriple
      obtain ⟨entry, -, -, -, hread⟩ := exists_mem_forall₂_right htriples htriple
      exact ⟨rfl, encodes_value hlossless hread⟩
    · refine .openMap hrule cell (fun name => ?_) fun name property json hmem hjson => ?_
      · rw [hnames]
        exact (hperm.map Prod.fst).mem_iff
      · obtain ⟨triple, htriple, heq⟩ := List.mem_map.mp hjson
        cases heq
        obtain ⟨entry, hentry, hname, hread, hjson⟩ := exists_mem_forall₂_right htriples htriple
        refine ⟨triple.2.1, ?_, hjson⟩
        have hentry' : (triple.1, entry.2) ∈ o.entries := by
          rw [← hname]
          exact hperm.mem_iff.mp hentry
        rw [eq_of_nodup_names hkeys hmem hentry']
        exact hread

theorem serves_closed {a : Nat} {o : JsObject} (hrule : ruleOf schema = .closed) (cell : H a = .object o) :
    Serves H R text lossless (fuel + 1) schema (.ref a) (.ordered []) (.object []) := by
  have hruled := ruled schema
  rw [hrule] at hruled
  cases hruled with
  | closed unnamed typed record additional =>
    refine ⟨fun n hle => ?_, encodes_ordered .nil List.nodup_nil, .closed hrule cell⟩
    obtain ⟨m, rfl⟩ := Nat.exists_eq_add_of_le' (show 1 ≤ n by omega)
    have hcell : H.cell (.ref a) = some (.object o) := congrArg some cell
    rw [serializeAt, if_neg (by simp)]
    simp only [unnamed, typed, hcell, record, additional, Bool.false_eq_true, if_false]

/-! ## The round trip -/

theorem wellFormed_items {child : Json} (h : schema.wellFormed = true) (hrule : ruleOf schema = .items child) :
    child.wellFormed = true := by
  have hruled := ruled schema
  rw [hrule] at hruled
  cases hruled with
  | items unnamed typed record => exact wellFormed_record (wellFormed_nonNullSchema h) record

theorem wellFormed_property {declared : List (String × Json)} {property : String × Json}
    (h : schema.wellFormed = true) (hrule : ruleOf schema = .properties declared) (hmem : property ∈ declared) :
    property.2.wellFormed = true := by
  have hruled := ruled schema
  rw [hrule] at hruled
  cases hruled with
  | properties unnamed typed record =>
    have hwell := wellFormed_record (wellFormed_nonNullSchema h) record
    exact (Json.wellFormed_object.1 hwell).2 property (List.mem_of_mem_filter hmem)

/-- A value that the validator takes and that has no gap is served. -/
theorem exists_serves
    (hlossless : ∀ bits, JsNumber.ofBits bits = .fraction bits → lossless.acceptsFloat bits = true)
    (hschema : schema.wellFormed = true) (h : validateAt H R text fuel v schema path = .ok [])
    (hgap : ¬ Gap H R schema v) : ∃ serialized json, Serves H R text lossless fuel schema v serialized json := by
  induction fuel generalizing v schema path with
  | zero => cases h
  | succ fuel ih =>
    by_cases hv : v = .null
    · subst hv
      exact ⟨_, _, serves_null hlossless⟩
    · cases hrule : ruleOf schema with
      | reference name =>
        obtain ⟨target, found, hvalid⟩ := validate_reference h hv hrule
        obtain ⟨serialized, json, hserves⟩ := ih target.property hvalid fun hinside =>
          hgap (.reference hrule found hinside)
        exact ⟨serialized, json, serves_reference hv hrule found hserves⟩
      | whole type =>
        obtain ⟨json, hread⟩ := isJson_of_validateAt h hv hrule hgap
        exact ⟨_, json, serves_whole hlossless hv hrule hread⟩
      | items child =>
        obtain ⟨a, items, rfl, hcell, hitems⟩ := validate_items h hv hrule
        refine serves_items hrule hcell fun item hitem => ?_
        cases item with
        | none => exact absurd (.hole hrule hcell hitem) hgap
        | some property =>
          obtain ⟨w, path, hread, hvalid⟩ := hitems property hitem
          obtain ⟨serialized, json, hserves⟩ := ih (wellFormed_items hschema hrule) hvalid fun hinside =>
            hgap (.item hrule hcell hitem hread hinside)
          exact ⟨w, serialized, json, ⟨property, rfl, hread⟩, hserves⟩
      | properties declared =>
        obtain ⟨a, o, rfl, hcell, hproperties⟩ := validate_properties h hv hrule
        refine serves_properties hschema hrule hcell fun name child property hmem hown => ?_
        obtain ⟨w, path, hread, hvalid⟩ := hproperties name child property hmem hown
        obtain ⟨serialized, json, hserves⟩ := ih (wellFormed_property hschema hrule hmem) hvalid fun hinside =>
          hgap (.property hrule hcell hmem hown hread hinside)
        exact ⟨w, serialized, json, hread, hserves⟩
      | openMap =>
        have hruled := ruled schema
        rw [hrule] at hruled
        cases hruled with
        | openMap unnamed typed record additional =>
          obtain ⟨a, o, rfl, hcell, -⟩ := validate_object h hv unnamed typed
          refine serves_openMap hlossless hrule hcell fun entry hentry => ?_
          by_contra hother
          refine hgap (.entry hrule hcell hentry fun w hread hjson => ?_)
          exact hother ⟨w, hread, hjson⟩
      | closed =>
        have hruled := ruled schema
        rw [hrule] at hruled
        cases hruled with
        | closed unnamed typed record additional =>
          obtain ⟨a, o, rfl, hcell, -⟩ := validate_object h hv unnamed typed
          exact ⟨_, _, serves_closed hrule hcell⟩

/-- No JSON data shows a value with a gap. -/
theorem Gap.not_shows (h : Gap H R schema v) : ∀ json, ¬ Shows H R schema v json := by
  induction h with
  | reference rule found inside ih =>
    intro json hshows
    cases hshows with
    | null => exact ih .null .null
    | reference rule' found' inside' =>
      rw [rule] at rule'
      cases rule'
      rw [found] at found'
      cases found'
      exact ih json inside'
    | whole rule' => cases rule.symm.trans rule'
    | items rule' => cases rule.symm.trans rule'
    | properties rule' => cases rule.symm.trans rule'
    | openMap rule' => cases rule.symm.trans rule'
    | closed rule' => cases rule.symm.trans rule'
  | number rule integer large =>
    intro json hshows
    cases hshows with
    | reference rule' => cases rule.symm.trans rule'
    | whole rule' reads =>
      cases reads with
      | integer number safe =>
        rw [integer] at number
        cases number
        rw [large] at safe
        cases safe
      | fraction number =>
        rw [integer] at number
        cases number
  | wrapped rule inside =>
    intro json hshows
    cases hshows with
    | null =>
      obtain ⟨a, b, o, hv, -⟩ := inside
      cases hv
    | reference rule' => cases rule.symm.trans rule'
    | whole rule' reads => exact reads.not_wrapped inside
    | items rule' => cases rule.symm.trans rule'
    | properties rule' => cases rule.symm.trans rule'
    | openMap rule' => cases rule.symm.trans rule'
    | closed rule' => cases rule.symm.trans rule'
  | list rule other =>
    intro json hshows
    cases hshows with
    | null => exact other ⟨_, .null⟩
    | reference rule' => cases rule.symm.trans rule'
    | whole rule' reads => exact other ⟨json, reads⟩
    | items rule' => cases rule.symm.trans rule'
    | properties rule' => cases rule.symm.trans rule'
    | openMap rule' => cases rule.symm.trans rule'
    | closed rule' => cases rule.symm.trans rule'
  | hole rule cell listed =>
    intro json hshows
    cases hshows with
    | reference rule' => cases rule.symm.trans rule'
    | whole rule' => cases rule.symm.trans rule'
    | items rule' cell' filled =>
      rw [cell] at cell'
      cases cell'
      obtain ⟨w, -, property, hproperty, -⟩ := exists_mem_forall₂ filled listed
      cases hproperty
    | properties rule' => cases rule.symm.trans rule'
    | openMap rule' => cases rule.symm.trans rule'
    | closed rule' => cases rule.symm.trans rule'
  | item rule cell listed read inside ih =>
    intro json hshows
    cases hshows with
    | reference rule' => cases rule.symm.trans rule'
    | whole rule' => cases rule.symm.trans rule'
    | items rule' cell' filled length inside' =>
      rw [rule] at rule'
      cases rule'
      rw [cell] at cell'
      cases cell'
      obtain ⟨w, hw, property, hproperty, hread⟩ := exists_mem_forall₂ filled listed
      cases hproperty
      rw [read] at hread
      cases hread
      obtain ⟨json, hjson⟩ := exists_mem_zip_of_mem_left hw length
      exact ih json (inside' _ hjson)
    | properties rule' => cases rule.symm.trans rule'
    | openMap rule' => cases rule.symm.trans rule'
    | closed rule' => cases rule.symm.trans rule'
  | @property schema child declared a o name property v rule cell listed own read inside ih =>
    intro json hshows
    cases hshows with
    | reference rule' => cases rule.symm.trans rule'
    | whole rule' => cases rule.symm.trans rule'
    | items rule' => cases rule.symm.trans rule'
    | properties rule' cell' names inside' =>
      rw [rule] at rule'
      cases rule'
      rw [cell] at cell'
      cases cell'
      have hname := (names name).mpr ⟨List.mem_map.mpr ⟨(name, child), listed, rfl⟩, by rw [own]; rfl⟩
      obtain ⟨⟨name, json⟩, hjson, rfl⟩ := List.mem_map.mp hname
      exact ih json (inside' name child property v json listed own read hjson)
    | openMap rule' => cases rule.symm.trans rule'
    | closed rule' => cases rule.symm.trans rule'
  | @entry schema a o name property rule cell listed other =>
    intro json hshows
    cases hshows with
    | reference rule' => cases rule.symm.trans rule'
    | whole rule' => cases rule.symm.trans rule'
    | items rule' => cases rule.symm.trans rule'
    | properties rule' => cases rule.symm.trans rule'
    | openMap rule' cell' names inside' =>
      rw [cell] at cell'
      cases cell'
      have hname := (names name).mpr (List.mem_map.mpr ⟨(name, property), listed, rfl⟩)
      obtain ⟨⟨name, json⟩, hjson, rfl⟩ := List.mem_map.mp hname
      obtain ⟨w, hread, hreads⟩ := inside' name property json listed hjson
      exact other w hread ⟨json, hreads⟩
    | closed rule' => cases rule.symm.trans rule'

theorem ReturnsOk.exists {α : Type} {run : Nat → Except Failure α} {a : α} (h : ReturnsOk run a) :
    ∃ n, ∀ fuel, n ≤ fuel → run fuel = .ok a := by
  obtain ⟨n, hn⟩ := h
  refine ⟨n, fun fuel hle => ?_⟩
  have hoption := hn fuel hle
  cases hrun : run fuel with
  | error failure =>
    simp only [hrun] at hoption
    cases hoption
  | ok b =>
    simp only [hrun] at hoption
    cases hoption
    rfl

theorem returnsOk_of_forall {α : Type} {run : Nat → Except Failure α} {a : α} {n : Nat}
    (h : ∀ fuel, n ≤ fuel → run fuel = .ok a) : ReturnsOk run a := by
  refine ⟨n, fun fuel hle => ?_⟩
  simp only [h fuel hle]
  rfl

/-- A value that the validator takes round-trips exactly if it has no gap. -/
theorem roundTrips_iff {schemaName : String} {root : Value}
    (hlossless : ∀ bits, JsNumber.ofBits bits = .fraction bits → lossless.acceptsFloat bits = true)
    (hroot : R schemaName = some root) (hvalid : Validates H R text v schemaName) :
    RoundTrips H R text lossless v schemaName ↔ ¬ Gap H R root.val v := by
  constructor
  · rintro ⟨schema, serialized, bytes, decoded, hschema, -, -, -, hshows⟩ hgap
    rw [hroot] at hschema
    cases hschema
    exact hgap.not_shows decoded.val hshows
  · intro hgap
    obtain ⟨n, hn⟩ := hvalid.exists
    have hvalidAt : ∀ fuel, n ≤ fuel → validateAt H R text fuel v root.val "$" = .ok [] := by
      intro fuel hle
      have hvalue := hn fuel hle
      unfold validateCatalogValue at hvalue
      rw [hroot] at hvalue
      exact hvalue
    obtain ⟨serialized, json, hserves⟩ := exists_serves hlossless root.property (hvalidAt n le_rfl) hgap
    obtain ⟨decoded, hdecoded, hval⟩ := hserves.encodes.decode
    obtain ⟨m, hm⟩ := hserves.encodes.returns
    refine ⟨root, serialized, json, decoded, hroot, returnsOk_of_forall (n := n) fun fuel hle => ?_,
      returnsOk_of_forall hm, hdecoded, ?_⟩
    · have hassert : assertCatalogValue H R text fuel v schemaName = .ok () := by
        rw [assertCatalogValue, hn fuel hle]
        rfl
      rw [serializeCatalogValue, hassert]
      simp only [hroot]
      exact hserves.serialize fuel hle
    · rw [hval]
      exact hserves.shown

/-! ## A list of levels -/

/-- The text of an integer, and of the numbers that JSON does not have. -/
def integerText : JsNumber → String
  | .integer n => toString n
  | .negativeZero => "0"
  | .nonFinite text => text
  | .fraction _ => "a fraction"

def level : Json := .object [("type", .string "number")]

def levelReference : Json := .object [("$ref", .string "#/schemas/Level")]

def levels : Json := .object [("type", .string "array"), ("items", levelReference)]

/-- A number, and a list of them. -/
def levelSchemas : Registry := fun name =>
  if name = "Level" then some ⟨level, by decide⟩
  else if name = "Levels" then some ⟨levels, by decide⟩
  else none

/-- An array of two numbers, the second of which is read by a getter. -/
def twoLevels : Heap := fun _ =>
  .array [some (.data (.number 0x4008000000000000#64)), some (.accessor (.ok (.number 0x3fe0000000000000#64)))]

theorem binary64_fraction {bits : BitVec 64} (h : JsNumber.ofBits bits = .fraction bits) :
    LosslessJson.binary64.acceptsFloat bits = true := by
  unfold LosslessJson.binary64
  simp only [h]

theorem twoLevels_valid : Validates twoLevels levelSchemas integerText (.ref 0) "Levels" := by
  refine ⟨3, fun fuel hle => ?_⟩
  obtain ⟨m, rfl⟩ := Nat.exists_eq_add_of_le' hle
  rfl

theorem levels_rule : ruleOf levels = .items levelReference := rfl

theorem levelReference_rule : ruleOf levelReference = .reference "Level" := rfl

theorem level_rule : ruleOf level = .whole .number := rfl

/-- The only gap of a level is a number that is not safe. -/
theorem level_gap {H : Heap} {v : JsValue} (h : Gap H levelSchemas levelReference v) :
    ∃ bits n, v = .number bits ∧ JsNumber.ofBits bits = .integer n ∧ Json.isSafeInteger n = false := by
  cases h with
  | reference rule found inside =>
    cases levelReference_rule.symm.trans rule
    cases found
    cases inside with
    | reference rule => cases level_rule.symm.trans rule
    | number rule integer large => exact ⟨_, _, rfl, integer, large⟩
    | wrapped rule => cases level_rule.symm.trans rule
    | list rule => cases level_rule.symm.trans rule
    | hole rule => cases level_rule.symm.trans rule
    | item rule => cases level_rule.symm.trans rule
    | property rule => cases level_rule.symm.trans rule
    | entry rule => cases level_rule.symm.trans rule
  | number rule => cases levelReference_rule.symm.trans rule
  | wrapped rule => cases levelReference_rule.symm.trans rule
  | list rule => cases levelReference_rule.symm.trans rule
  | hole rule => cases levelReference_rule.symm.trans rule
  | item rule => cases levelReference_rule.symm.trans rule
  | property rule => cases levelReference_rule.symm.trans rule
  | entry rule => cases levelReference_rule.symm.trans rule

theorem twoLevels_no_gap : ¬ Gap twoLevels levelSchemas levels (.ref 0) := by
  intro hgap
  cases hgap with
  | reference rule => cases levels_rule.symm.trans rule
  | wrapped rule => cases levels_rule.symm.trans rule
  | list rule => cases levels_rule.symm.trans rule
  | hole rule cell listed =>
    cases cell
    rcases List.mem_cons.mp listed with heq | hlisted
    · cases heq
    · cases List.mem_singleton.mp hlisted
  | item rule cell listed read inside =>
    cases levels_rule.symm.trans rule
    cases cell
    obtain ⟨bits, n, rfl, hinteger, hlarge⟩ := level_gap inside
    rcases List.mem_cons.mp listed with heq | hlisted
    · cases heq
      cases read
      have hthree : JsNumber.ofBits 0x4008000000000000#64 = .integer 3 := by decide
      cases hthree.symm.trans hinteger
      cases hlarge
    · cases List.mem_singleton.mp hlisted
      cases read
      have hhalf : JsNumber.ofBits 0x3fe0000000000000#64 = .fraction 0x3fe0000000000000#64 := by decide
      cases hhalf.symm.trans hinteger
  | property rule => cases levels_rule.symm.trans rule
  | entry rule => cases levels_rule.symm.trans rule

theorem roundTrips_twoLevels : RoundTrips twoLevels levelSchemas integerText .binary64 (.ref 0) "Levels" :=
  (roundTrips_iff (fun _ => binary64_fraction) rfl twoLevels_valid).mpr twoLevels_no_gap

/-- The validator takes `2^53` for a number, and the encoder does not. -/
theorem large_level_lost :
    Validates twoLevels levelSchemas integerText (.number 0x4340000000000000#64) "Level" ∧
      ¬ RoundTrips twoLevels levelSchemas integerText .binary64 (.number 0x4340000000000000#64) "Level" := by
  have hlarge : JsNumber.ofBits 0x4340000000000000#64 = .integer (2 ^ 53) := by decide
  constructor
  · refine ⟨1, fun fuel hle => ?_⟩
    obtain ⟨m, rfl⟩ := Nat.exists_eq_add_of_le' hle
    rfl
  · rintro ⟨schema, serialized, bytes, decoded, hschema, -, -, -, hshows⟩
    cases hschema
    exact Gap.not_shows (.number level_rule hlarge (by decide)) decoded.val hshows

end Rtvbp.TypeScript.CatalogValue
