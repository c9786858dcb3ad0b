import Rtvbp.Json.Same
import Rtvbp.Lib.Reorder
import Rtvbp.TypeScript.CatalogValue

/-!
# References to schemas

A reference is the name of a schema as a segment of a JSON pointer. The emitters, `rewrite_local_refs` and the
TypeScript SDK each read it back by two replacements, of which the second one must not see what the first one made.
-/

namespace Rtvbp.Spec

/-- `schema_ref_name` of the emitters. -/
def schemaRefName (reference : String) : Option String :=
  (stripStart "#/schemas/".toList reference.toList).map fun name => String.ofList (unescapePointer name)

/-! ## Escaped names -/

/-- A name in which only the tildes are escaped. -/
def escapeTildes (name : List Char) : List Char := name.flatMap fun c => if c = '~' then ['~', '0'] else [c]

@[simp] theorem escapeTildes_nil : escapeTildes [] = [] := rfl

@[simp] theorem escapeTildes_cons (c : Char) (name : List Char) :
    escapeTildes (c :: name) = (if c = '~' then ['~', '0'] else [c]) ++ escapeTildes name := List.flatMap_cons

@[simp] theorem escapePointer_nil : escapePointer [] = [] := rfl

theorem escapePointer_cons (c : Char) (name : List Char) :
    escapePointer (c :: name) =
      (if c = '~' then ['~', '0'] else if c = '/' then ['~', '1'] else [c]) ++ escapePointer name := by
  unfold escapePointer
  rw [List.flatMap_cons, List.flatMap_append]
  congr 1
  by_cases htilde : c = '~'
  · rw [if_pos htilde, if_pos htilde]
    decide
  · rw [if_neg htilde, if_neg htilde, List.flatMap_cons, List.flatMap_nil, List.append_nil]

/-- A character that does not begin the pair stays. -/
theorem replacePair_cons_of_ne {first second replacement c : Char} (h : c ≠ first) (text : List Char) :
    replacePair first second replacement (c :: text) = c :: replacePair first second replacement text := by
  cases text with
  | nil => rfl
  | cons d rest =>
    rw [replacePair, if_neg]
    rintro ⟨hfirst, -⟩
    exact h hfirst

/-- The pair is replaced. -/
theorem replacePair_pair (first second replacement : Char) (text : List Char) :
    replacePair first second replacement (first :: second :: text) =
      replacement :: replacePair first second replacement text := by
  rw [replacePair, if_pos ⟨rfl, rfl⟩]

/-- A pair that begins in the same way stays. -/
theorem replacePair_other {first second replacement d : Char} (hd : d ≠ second) (hfirst : d ≠ first)
    (text : List Char) :
    replacePair first second replacement (first :: d :: text) =
      first :: d :: replacePair first second replacement text := by
  rw [replacePair, if_neg fun h => hd h.2, replacePair_cons_of_ne hfirst]

/-- The first replacement gives the slashes back, and leaves the escaped tildes, whatever comes after them. -/
theorem replace_slashes (name : List Char) : replacePair '~' '1' '/' (escapePointer name) = escapeTildes name := by
  induction name with
  | nil => rfl
  | cons c name ih =>
    rw [escapePointer_cons, escapeTildes_cons]
    by_cases htilde : c = '~'
    · rw [if_pos htilde, if_pos htilde]
      show replacePair '~' '1' '/' ('~' :: '0' :: escapePointer name) = '~' :: '0' :: escapeTildes name
      rw [replacePair_other (by decide) (by decide), ih]
    · rw [if_neg htilde, if_neg htilde]
      by_cases hslash : c = '/'
      · rw [if_pos hslash, hslash]
        show replacePair '~' '1' '/' ('~' :: '1' :: escapePointer name) = '/' :: escapeTildes name
        rw [replacePair_pair, ih]
      · rw [if_neg hslash]
        show replacePair '~' '1' '/' (c :: escapePointer name) = c :: escapeTildes name
        rw [replacePair_cons_of_ne htilde, ih]

/-- The second replacement gives the tildes back. -/
theorem replace_tildes (name : List Char) : replacePair '~' '0' '~' (escapeTildes name) = name := by
  induction name with
  | nil => rfl
  | cons c name ih =>
    rw [escapeTildes_cons]
    by_cases htilde : c = '~'
    · rw [if_pos htilde, htilde]
      show replacePair '~' '0' '~' ('~' :: '0' :: escapeTildes name) = '~' :: name
      rw [replacePair_pair, ih]
    · rw [if_neg htilde]
      show replacePair '~' '0' '~' (c :: escapeTildes name) = c :: name
      rw [replacePair_cons_of_ne htilde, ih]

theorem unescape_escape (name : List Char) : unescapePointer (escapePointer name) = name := by
  unfold unescapePointer
  rw [replace_slashes, replace_tildes]

theorem stripStart_append (start text : List Char) : stripStart start (start ++ text) = some text := by
  unfold stripStart
  have hprefix : start.isPrefixOf (start ++ text) = true := List.isPrefixOf_iff_prefix.mpr (List.prefix_append _ _)
  rw [if_pos hprefix, List.drop_left]

/-- What is behind the start of a reference is the escaped name. -/
theorem stripStart_schemaReference (name : List Char) :
    stripStart "#/schemas/".toList (schemaReference name).toList = some (escapePointer name) := by
  have htext : (schemaReference name).toList = "#/schemas/".toList ++ escapePointer name := String.toList_ofList
  rw [htext, stripStart_append]

theorem referenceName_schemaReference (name : List Char) :
    referenceName (schemaReference name) = some (String.ofList name) := by
  unfold referenceName
  rw [stripStart_schemaReference, Option.map_some, unescape_escape]

/-- Every reader of a reference gets the name that it was made of: the replacements of `rewrite_local_refs`, both
on a reference to the table and on a local one; `schema_ref_name`; and `referenceName` of the TypeScript SDK. So
distinct names have distinct references. -/
theorem schemaReference_roundTrips :
    (∀ name : List Char,
      (stripStart "#/schemas/".toList (schemaReference name).toList).map unescapePointer = some name ∧
      rewriteReference (.string (String.ofList ("#/$defs/".toList ++ escapePointer name))) =
        .string (schemaReference name) ∧
      schemaRefName (schemaReference name) = some (String.ofList name) ∧
      TypeScript.CatalogValue.referenceName (some (.string (schemaReference name))) = some (String.ofList name)) ∧
    Function.Injective schemaReference := by
  constructor
  · intro name
    refine ⟨?_, ?_, referenceName_schemaReference name, referenceName_schemaReference name⟩
    · rw [stripStart_schemaReference, Option.map_some, unescape_escape]
    · unfold rewriteReference
      simp only [String.toList_ofList, stripStart_append, unescape_escape]
  · intro name other heq
    have hname := referenceName_schemaReference name
    rw [heq, referenceName_schemaReference other] at hname
    exact (String.ofList_injective (Option.some.inj hname)).symm

end Rtvbp.Spec

/-!
## What resolving a catalog is for

The order in which a catalog declares its items is no part of what it says, and a resolved catalog stands for itself:
a reference in one of its schemas is to one of its schemas.
-/

namespace Rtvbp.Spec

variable {ν : Type}

/-! ## Payload types -/

/-- The payload types of an operation. -/
def Operation.payloads (operation : Operation Json ν) : List (TypeRef Json ν) := [operation.request, operation.response]

/-- The payload types of a catalog, as they are registered. -/
def Catalog.payloads (catalog : Catalog Json ν) : List (TypeRef Json ν) :=
  catalog.operations.flatMap Operation.payloads ++ catalog.events.map Event.data

/-- The schemas of the payload types are values of a JSON library. -/
def Catalog.SchemasWellFormed (catalog : Catalog Json ν) : Prop :=
  ∀ payload ∈ catalog.payloads, payload.schema.wellFormed = true

/-! ## Orders of declaration -/

/-- The operation with its examples in another order. -/
structure Operation.Reordered (operation other : Operation Json ν) : Prop where
  rest : other = { operation with examples := other.examples }
  examples : operation.examples.Perm other.examples

/-- The event with its examples in another order. -/
structure Event.Reordered (event other : Event Json ν) : Prop where
  rest : other = { event with examples := other.examples }
  examples : event.examples.Perm other.examples

/-- The catalog with its operations, events, fixtures, scenarios and examples in another order. -/
structure Catalog.Reordered (catalog other : Catalog Json ν) : Prop where
  id : catalog.id = other.id
  operations : Lib.Reordered Operation.Reordered catalog.operations other.operations
  events : Lib.Reordered Event.Reordered catalog.events other.events
  fixtures : catalog.fixtures.Perm other.fixtures
  scenarios : catalog.scenarios.Perm other.scenarios

/-- `PartialEq` of resolved catalogs: the table of schemas is a map, and schemas are compared as JSON values. -/
structure ResolvedCatalog.Same (resolved other : ResolvedCatalog ν) : Prop where
  id : resolved.id = other.id
  operations : resolved.operations = other.operations
  events : resolved.events = other.events
  schemas : (Json.object resolved.schemas).same (.object other.schemas) = true
  fixtures : resolved.fixtures = other.fixtures
  scenarios : resolved.scenarios = other.scenarios

/-! ## References in schemas -/

mutual

/-- The references in a schema: the texts of the keys `$ref`, wherever they stand. -/
def references : Json → List String
  | .object fields => fieldReferences fields
  | .array items => itemReferences items
  | _ => []

/-- The references in the fields of an object. -/
def fieldReferences : List (String × Json) → List String
  | [] => []
  | (key, v) :: fields => (if key = "$ref" then v.asStr.toList else []) ++ references v ++ fieldReferences fields

/-- The references in the items of an array. -/
def itemReferences : List Json → List String
  | [] => []
  | v :: items => references v ++ itemReferences items

end

/-- The reference is to a place in the document where it stands. -/
def isLocal (reference : String) : Bool := "#".toList.isPrefixOf reference.toList

/-- The definition that a local reference in a payload schema names. -/
def definitionRefName (reference : String) : Option String :=
  (stripStart "#/$defs/".toList reference.toList).map fun name => String.ofList (unescapePointer name)

/-- Every local reference in the schema names one of the definitions of the schema. -/
def TypeRef.RefsDefined (payload : TypeRef Json ν) : Prop :=
  ∀ reference ∈ references payload.schema, isLocal reference = true →
    ∃ definition ∈ definitionsOf payload.schema, definitionRefName reference = some definition.1

/-- Every local reference in a schema of the table names a schema of the table. -/
def RefsRegistered (schemas : Schemas) : Prop :=
  ∀ entry ∈ schemas, ∀ reference ∈ references entry.2, isLocal reference = true →
    ∃ target ∈ schemas, schemaRefName reference = some target.1

end Rtvbp.Spec
