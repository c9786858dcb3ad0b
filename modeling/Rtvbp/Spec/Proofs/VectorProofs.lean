import Rtvbp.Spec.Vectors
import Rtvbp.Spec.Proofs.ResolveProofs

/-!
# Proofs: conformance vectors

The valid cases are the examples as they are, so that they break no rule exactly if the examples do. A replaced field
breaks the rule that it was made for, apart from the rule `minLength` 0, which nothing breaks.
-/

namespace Rtvbp.Spec

open Validation (toRat)

variable {T : VectorText} {schemas : Schemas} {schema : Json}

/-! ## One replaced field -/

/-- The text of a case is that of a value which a library can hold. -/
theorem parse_insertField {fields : List (String × Json)} {field : String} {v : Json}
    (hfields : (Json.object fields).wellFormed = true) (hv : v.wellFormed = true) :
    ∃ w : Value, T.parse (T.serialize (.object (Json.insertField fields field v))) = some w ∧
      w.val = .object (Json.insertField fields field v) :=
  ⟨⟨_, Json.wellFormed_insertField hfields hv⟩, T.parse_serialize ⟨_, Json.wellFormed_insertField hfields hv⟩, rfl⟩

/-- A replaced property breaks a rule of the object if the value breaks one of the property. -/
theorem breaks_insertField {fields properties : List (String × Json)} {field : String} {rule v : Json}
    (hproperties : schema.get "properties" = some (.object properties)) (hmem : (field, rule) ∈ properties)
    (hbreaks : Breaks schemas rule v) : Breaks schemas schema (.object (Json.insertField fields field v)) := by
  have hpresent : (Json.insertField fields field v).lookup field = some v := by
    rw [Json.lookup_insertField, if_pos rfl]
  exact .property hproperties hmem hpresent hbreaks

theorem toRat_int (n : Int) : toRat (.int n) = n := rfl

theorem belowMinimum_eq_some {minimum below : Int} (h : belowMinimum minimum = some below) :
    below = minimum - 1 ∧ -2 ^ 63 ≤ below := by
  rw [belowMinimum] at h
  split at h
  · next hrange =>
    obtain rfl := Option.some.inj h
    exact ⟨rfl, hrange⟩
  · cases h

theorem asI64_eq_some {v : Json} {n : Int} (h : v.asI64 = some n) : v = .number (.int n) ∧ n < 2 ^ 63 := by
  cases v with
  | number m =>
    cases m with
    | int m =>
      rw [Json.asI64] at h
      split at h
      · next hrange =>
        obtain rfl := Option.some.inj h
        exact ⟨rfl, hrange.2⟩
      · cases h
    | float bits => cases h
  | null => cases h
  | bool b => cases h
  | string s => cases h
  | array items => cases h
  | object fields => cases h

theorem asObject_eq_some {v : Json} {fields : List (String × Json)} (h : v.asObject = some fields) :
    v = .object fields := by
  cases v <;> cases h
  rfl

/-- The entries that the loop over the orders goes through. -/
theorem mem_orders {entry : Json} (h : entry ∈ ((schema.get "x-rtvbp-field-order").bind Json.asArray).getD []) :
    ∃ entries, schema.get "x-rtvbp-field-order" = some (.array entries) ∧ entry ∈ entries := by
  cases hget : schema.get "x-rtvbp-field-order" with
  | none => simp [hget] at h
  | some v =>
    rw [hget] at h
    cases v with
    | array entries => exact ⟨entries, rfl, h⟩
    | null => cases h
    | bool b => cases h
    | number n => cases h
    | string s => cases h
    | object fields => cases h

theorem isTrue_iff {v : Json} : v.isTrue = true ↔ v = .bool true := by
  cases v <;> simp [Json.isTrue]

theorem wellFormed_int {n : Int} (hlow : -2 ^ 63 ≤ n) (hhigh : n < 2 ^ 64) :
    (Json.number (.int n)).wellFormed = true := by
  simp only [Json.wellFormed, Json.everywhere, Json.nodeWellFormed, Bool.and_eq_true, decide_eq_true_eq]
  exact ⟨hlow, hhigh⟩

/-- A case that is pushed is read back as the object with the field replaced. -/
theorem mem_pushInvalid {canonical : Value} {field rule : String} {v : Json} {case : InvalidCase T}
    (h : case ∈ pushInvalid T canonical.val field v rule) (hv : v.wellFormed = true) :
    ∃ fields w, canonical.val = .object fields ∧ T.parse case.json = some w ∧
      w.val = .object (Json.insertField fields field v) := by
  obtain ⟨canonical, hcanonical⟩ := canonical
  cases canonical with
  | object fields =>
    obtain rfl := List.mem_singleton.mp h
    obtain ⟨w, hparse, hw⟩ := parse_insertField hcanonical hv
    exact ⟨fields, w, rfl, hparse, hw⟩
  | null => cases h
  | bool b => cases h
  | number n => cases h
  | string s => cases h
  | array items => cases h

/-! ## The cases of a property and of an order -/

/-- A case for a rule of a property breaks the schema, if the rules `minLength` 0 can be broken. -/
theorem fieldCases_breaks {canonical : Value} {properties : List (String × Json)} {field : String} {rule : Json}
    (hchecked : RulesChecked schema) (hproperties : schema.get "properties" = some (.object properties))
    (hmem : (field, rule) ∈ properties) (hempty : EmptyBreaks schemas schema canonical.val) {case : InvalidCase T}
    (hcase : case ∈ fieldCases T canonical.val field rule) :
    ∃ v, T.parse case.json = some v ∧ Breaks schemas schema v.val := by
  rw [fieldCases, List.mem_append, List.mem_append] at hcase
  rcases hcase with (hcase | hcase) | hcase
  · split at hcase
    · next hsome =>
      obtain ⟨fields, w, hfields, hparse, hw⟩ := mem_pushInvalid hcase (Json.wellFormed_string "")
      refine ⟨w, hparse, ?_⟩
      rw [hw]
      obtain ⟨minLength, hget⟩ := Option.isSome_iff_exists.mp hsome
      obtain ⟨n, hn⟩ := hchecked.minLength properties field rule minLength hproperties hmem hget
      have hrule : (rule.get "minLength").bind Json.asU64 = some n := by rw [hget]; exact hn
      by_cases hzero : n = 0
      · subst hzero
        exact hempty properties field rule fields hproperties hmem hrule hfields
      · have hshort : ("" : String).length < n := Nat.pos_of_ne_zero hzero
        exact breaks_insertField hproperties hmem (.minLength hrule hshort)
    · cases hcase
  · split at hcase
    · next below hbelow =>
      obtain ⟨minimum, hminimum, hsub⟩ := Option.bind_eq_some_iff.mp hbelow
      obtain ⟨bound, hget, hbound⟩ := Option.bind_eq_some_iff.mp hminimum
      obtain ⟨rfl, hhigh⟩ := asI64_eq_some hbound
      obtain ⟨rfl, hlow⟩ := belowMinimum_eq_some hsub
      obtain ⟨fields, w, -, hparse, hw⟩ := mem_pushInvalid hcase (wellFormed_int hlow (by omega))
      refine ⟨w, hparse, ?_⟩
      rw [hw]
      have hless : toRat (.int (minimum - 1)) < toRat (.int minimum) := by
        rw [toRat_int, toRat_int]
        exact_mod_cast sub_one_lt minimum
      exact breaks_insertField hproperties hmem (.minimum hget hless)
    · cases hcase
  · split at hcase
    · next hnonzero =>
      obtain ⟨fields, w, -, hparse, hw⟩ := mem_pushInvalid hcase (wellFormed_int (by decide) (by decide))
      refine ⟨w, hparse, ?_⟩
      rw [hw]
      obtain ⟨v, hget, htrue⟩ := (Option.any_eq_true _ _).mp hnonzero
      obtain rfl := isTrue_iff.1 htrue
      exact breaks_insertField hproperties hmem (.nonzero hget (toRat_int 0))
    · cases hcase

/-- The case for an order breaks it. -/
theorem orderCases_breaks {canonical : Value} {entries : List Json} {entry : Json} (hchecked : RulesChecked schema)
    (horders : schema.get "x-rtvbp-field-order" = some (.array entries)) (hmem : entry ∈ entries)
    {case : InvalidCase T} (hcase : case ∈ orderCases T canonical.val entry) :
    ∃ v, T.parse case.json = some v ∧ Breaks schemas schema v.val := by
  obtain ⟨canonical, hcanonical⟩ := canonical
  unfold orderCases at hcase
  split at hcase
  · next lower upper fields hlower hupper hobject =>
    obtain rfl : canonical = .object fields := hobject
    obtain rfl := List.mem_singleton.mp hcase
    have hne : lower ≠ upper := hchecked.fieldOrder entries entry lower upper horders hmem hlower hupper
    have hwf : (Json.object (Json.insertField fields lower (.number (.int 2)))).wellFormed = true :=
      Json.wellFormed_insertField hcanonical (wellFormed_int (by decide) (by decide))
    obtain ⟨w, hparse, hw⟩ := parse_insertField (T := T) (v := .number (.int 1)) hwf
      (wellFormed_int (by decide) (by decide))
    refine ⟨w, hparse, ?_⟩
    rw [hw]
    have hlow : (Json.insertField (Json.insertField fields lower (.number (.int 2))) upper
        (.number (.int 1))).lookup lower = some (.number (.int 2)) := by
      rw [Json.lookup_insertField, if_neg hne, Json.lookup_insertField, if_pos rfl]
    have hhigh : (Json.insertField (Json.insertField fields lower (.number (.int 2))) upper
        (.number (.int 1))).lookup upper = some (.number (.int 1)) := by
      rw [Json.lookup_insertField, if_pos rfl]
    have hreversed : toRat (.int 1) < toRat (.int 2) := by
      rw [toRat_int, toRat_int]
      norm_num
    exact .fieldOrder horders hmem hlower hupper hlow hhigh hreversed
  · cases hcase

/-! ## The cases of a payload -/

/-- The case that is made for the rule `minLength` of a property. -/
theorem emptyCase_mem {name : String} {examples : List (String × Value)} {named : String × Value}
    {properties fields : List (String × Json)} {field : String} {rule minLength : Json}
    (hfirst : examples.head? = some named) (hproperties : schema.get "properties" = some (.object properties))
    (hmem : (field, rule) ∈ properties) (hrule : rule.get "minLength" = some minLength)
    (hfields : named.2.val = .object fields) :
    ∃ case ∈ (payloadCases T name schema examples).invalid, case.error = "validation" ∧
      case.json = T.serialize (.object (Json.insertField fields field (.string ""))) := by
  obtain ⟨case, hcase, herror, hjson⟩ : ∃ case ∈ pushInvalid T (.object fields) field (.string "") "min_length",
      case.error = "validation" ∧ case.json = T.serialize (.object (Json.insertField fields field (.string ""))) :=
    ⟨_, List.mem_singleton_self _, rfl, rfl⟩
  refine ⟨case, ?_, herror, hjson⟩
  show case ∈ examples.head?.elim [] fun named => invalidCases T schema named.2.val
  rw [hfirst]
  show case ∈ invalidCases T schema named.2.val
  rw [invalidCases, hproperties, hfields]
  refine List.mem_cons_of_mem _ (List.mem_append_left _ (List.mem_flatMap.mpr ⟨(field, rule), hmem, ?_⟩))
  rw [fieldCases, hrule]
  exact List.mem_append_left _ (List.mem_append_left _ hcase)

/-- Every invalid case but the malformed one breaks a rule, if the rules `minLength` 0 can be broken. -/
theorem invalidCases_breaks {canonical : Value} (hchecked : RulesChecked schema)
    (hempty : EmptyBreaks schemas schema canonical.val) {case : InvalidCase T}
    (hcase : case ∈ invalidCases T schema canonical.val) (herror : case.error = "validation") :
    ∃ v, T.parse case.json = some v ∧ Breaks schemas schema v.val := by
  rw [invalidCases] at hcase
  rcases List.mem_cons.mp hcase with rfl | hcase
  · have hne : ("decode" : String) ≠ "validation" := by decide
    exact absurd herror hne
  cases hproperties : (schema.get "properties").bind Json.asObject with
  | none =>
    rw [hproperties] at hcase
    cases hcase
  | some properties =>
    rw [hproperties] at hcase
    obtain ⟨object, hget, hobject⟩ := Option.bind_eq_some_iff.mp hproperties
    obtain rfl := asObject_eq_some hobject
    rcases List.mem_append.mp hcase with hcase | hcase
    · obtain ⟨property, hmem, hcase⟩ := List.mem_flatMap.mp hcase
      exact fieldCases_breaks hchecked hget hmem hempty hcase
    · obtain ⟨entry, hmem, hcase⟩ := List.mem_flatMap.mp hcase
      obtain ⟨entries, horders, hmem⟩ := mem_orders hmem
      exact orderCases_breaks hchecked horders hmem hcase

/-- The cases of a payload are sound exactly if its examples meet the schema and the rules can be broken. -/
theorem payloadCases_sound_iff {name : String} {examples : List (String × Value)} (hchecked : RulesChecked schema) :
    (payloadCases T name schema examples).Sound schemas schema ↔ ExamplesMeet schemas schema examples := by
  constructor
  · intro h
    constructor
    · intro named hnamed
      obtain ⟨v, hparse, hmeets⟩ := h.valid _ (List.mem_map.mpr ⟨named, hnamed, rfl⟩)
      have hsame : T.parse (T.serialize named.2.val) = some named.2 := T.parse_serialize named.2
      obtain rfl : named.2 = v := Option.some.inj (hsame.symm.trans hparse)
      exact hmeets
    · intro named hfirst properties field rule fields hproperties hmem hrule hfields
      obtain ⟨minLength, hget, -⟩ := Option.bind_eq_some_iff.mp hrule
      obtain ⟨case, hcase, herror, hjson⟩ := emptyCase_mem (T := T) hfirst hproperties hmem hget hfields
      obtain ⟨v, hparse, hbreaks⟩ := h.invalid case hcase herror
      have hwf : (Json.object fields).wellFormed = true := by
        rw [← hfields]
        exact named.2.property
      obtain ⟨w, hparse', hw⟩ : ∃ w : Value,
          T.parse (T.serialize (.object (Json.insertField fields field (.string "")))) = some w ∧
            w.val = .object (Json.insertField fields field (.string "")) :=
        parse_insertField hwf (Json.wellFormed_string "")
      rw [hjson, hparse'] at hparse
      obtain rfl := Option.some.inj hparse
      rw [hw] at hbreaks
      exact hbreaks
  · intro h
    constructor
    · intro case hcase
      obtain ⟨named, hnamed, rfl⟩ := List.mem_map.mp hcase
      exact ⟨named.2, T.parse_serialize named.2, h.meets named hnamed⟩
    · intro case hcase herror
      have hcase' : case ∈ examples.head?.elim [] fun named => invalidCases T schema named.2.val := hcase
      cases hfirst : examples.head? with
      | none =>
        rw [hfirst] at hcase'
        cases hcase'
      | some named =>
        rw [hfirst] at hcase'
        exact invalidCases_breaks hchecked (h.breakable named hfirst) hcase' herror

/-! ## A note -/

/-- Texts represented by the trees they spell; no library can hold an object with a key twice. -/
def VectorText.trees : VectorText where
  toJsonText := JsonText.trees
  brace := .object [("", .null), ("", .null)]
  parse_brace := rfl

/-- The schema of a note, whose text has a least length. -/
def noteSchema (minLength : Int) : Json :=
  .object [
    ("type", .string "object"),
    ("properties", .object [
      ("text", .object [("type", .string "string"), ("minLength", .number (.int minLength))])]),
    ("required", .array [.string "text"])]

/-- A note with a text. -/
def note (text : String) : Value :=
  ⟨.object [("text", .string text)], by simp [Json.wellFormed_object]⟩

/-- The notes hold any text. -/
def noteType (minLength : Int) : TypeRef Json Value := ⟨"Note", noteSchema minLength, .ok, .ok⟩

/-- One operation, which takes a note and returns it. -/
def noteCatalog (minLength : Int) (text : String) : Catalog Json Value where
  id := ⟨"notes", 1⟩
  operations := [{
    method := "note.put"
    handledBy := some .application
    request := noteType minLength
    response := noteType minLength
    terminal := false
    rejections := []
    docs := some "Put a note."
    examples := [⟨"note", note text, note text⟩] }]
  events := []
  fixtures := []
  scenarios := []

/-- The operation of the notes, resolved. -/
def noteOperation (text : String) : ResolvedOperation Value where
  method := "note.put"
  handledBy := .application
  terminal := false
  rejections := []
  docs := "Put a note."
  request := "Note"
  response := "Note"
  examples := [⟨"note", note text, note text⟩]

/-- The catalog of the notes, resolved. -/
def noteResolved (minLength : Int) (text : String) : ResolvedCatalog Value where
  id := ⟨"notes", 1⟩
  operations := [noteOperation text]
  events := []
  schemas := [("Note", noteSchema minLength)]
  fixtures := []
  scenarios := []

/-- Any text meets the schema of the text without a rule on its length. -/
theorem not_breaks_text {schemas : Schemas} (text : String) :
    ¬ Breaks schemas (.object [("type", .string "string"), ("minLength", .number (.int 0))]) (.string text) := by
  intro h
  cases h with
  | type other => cases other
  | @minLength _ _ n rule short =>
    have hzero : some 0 = some n := rule
    obtain rfl := Option.some.inj hzero
    exact Nat.not_lt_zero _ short
  | @reference _ _ _ reference _ declared =>
    have hnone : (none : Option Json) = some (.string reference) := declared
    cases hnone
  | @anyOf _ _ alternatives declared =>
    have hnone : (none : Option Json) = some (.array alternatives) := declared
    cases hnone
  | @oneOf _ _ alternatives declared =>
    have hnone : (none : Option Json) = some (.array alternatives) := declared
    cases hnone

/-- Any note without a rule on its length meets the schema. -/
theorem not_breaks_note {schemas : Schemas} (text : String) : ¬ Breaks schemas (noteSchema 0) (note text).val := by
  intro h
  cases h with
  | type other => cases other
  | @required _ _ names name rule named missing =>
    have hnames : some (Json.array [.string "text"]) = some (.array names) := rule
    obtain rfl : [Json.string "text"] = names := by simpa using hnames
    obtain rfl : name = "text" := by simpa using named
    cases missing
  | @fieldOrder _ entry _ entries _ _ _ _ rule =>
    have hnone : (none : Option Json) = some (.array entries) := rule
    cases hnone
  | @property _ rule v _ properties name declared listed present inside =>
    have hproperties : some (Json.object [("text", .object [("type", .string "string"),
      ("minLength", .number (.int 0))])]) = some (.object properties) := declared
    obtain rfl : [("text", Json.object [("type", .string "string"), ("minLength", .number (.int 0))])] = properties := by
      simpa using hproperties
    obtain ⟨rfl, rfl⟩ : name = "text" ∧ rule = .object [("type", .string "string"), ("minLength", .number (.int 0))] := by
      simpa using listed
    have hv : some (Json.string text) = some v := present
    obtain rfl := Option.some.inj hv
    exact not_breaks_text text inside
  | @reference _ _ _ reference _ declared =>
    have hnone : (none : Option Json) = some (.string reference) := declared
    cases hnone
  | @anyOf _ _ alternatives declared =>
    have hnone : (none : Option Json) = some (.array alternatives) := declared
    cases hnone
  | @oneOf _ _ alternatives declared =>
    have hnone : (none : Option Json) = some (.array alternatives) := declared
    cases hnone

/-- For a validated catalog, the vector of an operation is sound exactly if the examples of the operation break no rule
of their schemas, and the empty string breaks a rule at each property with the rule `minLength` 0. -/
theorem payloadVector_sound_iff {parse : List UInt8 → Except String Value} {catalog : Catalog Json Value}
    {resolved : ResolvedCatalog Value} {operation : ResolvedOperation Value} (hvalid : catalog.validate = .ok ())
    (hresolve : resolve parse catalog = .ok resolved) (hoperation : operation ∈ resolved.operations) :
    ∃ vector, payloadVector T resolved operation = .ok vector ∧
      (vector.Sound resolved.schemas ↔
        (∀ schema, resolved.schemas.lookup operation.request = some schema →
          ExamplesMeet resolved.schemas schema operation.requests) ∧
        ∀ schema, resolved.schemas.lookup operation.response = some schema →
          ExamplesMeet resolved.schemas schema operation.responses) := by
  have hchecked := resolve_checked hvalid hresolve
  obtain ⟨⟨requestSchema, hrequest⟩, ⟨responseSchema, hresponse⟩⟩ := hchecked.declared operation hoperation
  have hrules : ∀ name schema, resolved.schemas.lookup name = some schema → RulesChecked schema :=
    fun name schema hlookup => hchecked.schemas _ (Lib.mem_of_lookup_eq_some hlookup)
  refine ⟨_, by rw [payloadVector, hrequest, hresponse], ?_⟩
  show (∀ schema, resolved.schemas.lookup operation.request = some schema → PayloadCases.Sound _ _ _) ∧
    (∀ schema, resolved.schemas.lookup operation.response = some schema → PayloadCases.Sound _ _ _) ↔ _
  rw [hrequest, hresponse]
  simp only [Option.some.injEq, forall_eq']
  rw [payloadCases_sound_iff (hrules _ _ hrequest), payloadCases_sound_iff (hrules _ _ hresponse)]

/-- The vector for the notes of at least one character. -/
theorem payloadVector_sound_note :
    ∃ vector, payloadVector VectorText.trees (noteResolved 1 "hello") (noteOperation "hello") = .ok vector ∧
      (vector.Sound (noteResolved 1 "hello").schemas ↔
        (∀ schema, (noteResolved 1 "hello").schemas.lookup "Note" = some schema →
          ExamplesMeet (noteResolved 1 "hello").schemas schema (noteOperation "hello").requests) ∧
        ∀ schema, (noteResolved 1 "hello").schemas.lookup "Note" = some schema →
          ExamplesMeet (noteResolved 1 "hello").schemas schema (noteOperation "hello").responses) := by
  have hvalid : (noteCatalog 1 "hello").validate = .ok () := rfl
  have hresolve : resolve (fun _ => .error "no fixture") (noteCatalog 1 "hello") = .ok (noteResolved 1 "hello") := rfl
  exact payloadVector_sound_iff hvalid hresolve List.mem_cons_self

/-- For the notes of at least no character, the vector lists the empty note as invalid, which breaks no rule. -/
theorem empty_note_listed :
    (noteCatalog 0 "hello").validate = .ok () ∧
      resolve (fun _ => .error "no fixture") (noteCatalog 0 "hello") = .ok (noteResolved 0 "hello") ∧
      ∃ vector, payloadVector VectorText.trees (noteResolved 0 "hello") (noteOperation "hello") = .ok vector ∧
        ∃ case ∈ vector.request.invalid, case.error = "validation" ∧
          VectorText.trees.parse case.json = some (note "") ∧
          ¬ Breaks (noteResolved 0 "hello").schemas (noteSchema 0) (note "").val := by
  refine ⟨rfl, rfl, _, rfl, ⟨"text_min_length", (note "").val, "validation"⟩, ?_, rfl, rfl, not_breaks_note ""⟩
  exact List.mem_cons_of_mem _ List.mem_cons_self

end Rtvbp.Spec
