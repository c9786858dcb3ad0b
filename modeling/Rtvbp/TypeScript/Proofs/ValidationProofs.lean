import Rtvbp.TypeScript.Validation

/-!
# What the TypeScript validator reports

For a payload that decodes, the validator returns, and it reports no issue exactly when the rules are met
everywhere inside the payload.
-/

namespace Rtvbp.TypeScript.Validation

open Rtvbp.Validation Rtvbp.Lib

variable {R : Registry}

/-- The computation returns, with no issue exactly if the condition holds. -/
def Settles (run : Nat → Option (List ValidationIssue)) (P : Prop) : Prop :=
  ∃ issues, Returns run issues ∧ (issues = [] ↔ P)

theorem Settles.congr {run : Nat → Option (List ValidationIssue)} {P Q : Prop} (h : Settles run P) (hPQ : P ↔ Q) :
    Settles run Q := by
  obtain ⟨issues, hrun, hissues⟩ := h
  exact ⟨issues, hrun, hissues.trans hPQ⟩

/-- A call that returns at once. -/
theorem settles_of_const {run : Nat → Option (List ValidationIssue)} {P : Prop} (issues : List ValidationIssue)
    (hrun : ∀ fuel, run (fuel + 1) = some issues) (hissues : issues = [] ↔ P) : Settles run P :=
  ⟨issues, (returns_const issues).of_succ hrun, hissues⟩

theorem Settles.of_succ {run run' : Nat → Option (List ValidationIssue)} {P : Prop} (h : Settles run P)
    (hcall : ∀ fuel, run' (fuel + 1) = run fuel) : Settles run' P := by
  obtain ⟨issues, hrun, hissues⟩ := h
  exact ⟨issues, hrun.of_succ hcall, hissues⟩

/-- Calls on the items of a list, whose issues are put together with those of a last check. -/
theorem settles_mapM {α : Type} {run : Nat → α → Option (List ValidationIssue)} {P : α → Prop} {l : List α}
    (h : ∀ a ∈ l, Settles (fun fuel => run fuel a) (P a)) (last : List ValidationIssue) :
    Settles (fun fuel => (l.mapM (run fuel)).map fun issues => issues.flatten ++ last)
      ((∀ a ∈ l, P a) ∧ last = []) := by
  obtain ⟨all, hall, hforall⟩ := returns_mapM h
  refine ⟨all.flatten ++ last, hall.map _, ?_⟩
  rw [List.append_eq_nil_iff]
  refine and_congr_left fun _ => ?_
  clear hall h
  induction hforall with
  | nil => simp
  | cons hhead _ ih => simp only [List.flatten_cons, List.append_eq_nil_iff, List.forall_mem_cons, hhead, ih]

/-! ## Values without a schema -/

theorem flatMap_objectKeys_eq_nil {entries : List (String × List ValidationIssue)}
    (h : ∀ entry ∈ entries, entry.2 = []) : (objectKeys entries).flatMap Prod.snd = [] := by
  refine List.flatMap_eq_nil_iff.mpr fun entry hentry => h entry ?_
  simp only [objectKeys, List.mem_append, List.mem_mergeSort, List.mem_filter] at hentry
  exact hentry.elim And.left And.left

mutual

theorem validateAny_of_safe : (v : Json) → (path : String) → safeValue v = true → validateAny path v = []
  | .null, _, _ => rfl
  | .bool _, _, _ => rfl
  | .string _, _, _ => rfl
  | .number n, path, h => by
    have hn : safeNumber n = true := h
    rw [validateAny, if_pos hn]
  | .array items, path, h => by
    rw [validateAny]
    exact validateItems_of_safe items path 0 (Json.everywhere_array.1 h).2
  | .object fields, path, h => by
    rw [validateAny]
    exact flatMap_objectKeys_eq_nil (validateEntries_of_safe fields path (Json.everywhere_object.1 h).2)

theorem validateItems_of_safe : (items : List Json) → (path : String) → (index : Nat) →
    (∀ v ∈ items, safeValue v = true) → validateItems path index items = []
  | [], _, _, _ => rfl
  | v :: items, path, index, h => by
    rw [validateItems, validateAny_of_safe v _ (h v (by simp)), List.nil_append]
    exact validateItems_of_safe items path (index + 1) fun w hw => h w (by simp [hw])

theorem validateEntries_of_safe : (fields : List (String × Json)) → (path : String) →
    (∀ f ∈ fields, safeValue f.2 = true) → ∀ entry ∈ validateEntries path fields, entry.2 = []
  | [], _, _ => by simp [validateEntries]
  | (key, v) :: fields, path, h => by
    rw [validateEntries, List.forall_mem_cons]
    exact ⟨validateAny_of_safe v _ (h (key, v) (by simp)),
      validateEntries_of_safe fields path fun f hf => h f (by simp [hf])⟩

end

/-! ## The checks at one place -/

theorem issue_ne_nil {path rule message : String} : issue path rule message ≠ [] := by simp [issue]

theorem boundIssues_eq_nil_iff {value : ℚ} {minimum maximum : Option Literal} {nonzero : Bool} {path : String} :
    boundIssues value minimum maximum nonzero path = [] ↔
      (∀ m ∈ minimum, m.value ≤ value) ∧ (∀ m ∈ maximum, value ≤ m.value) ∧ (nonzero = true → value ≠ 0) := by
  cases minimum <;> cases maximum <;> simp [boundIssues, issue_ne_nil]

theorem orderIssues_eq_nil_iff {s : Struct} {fields : List (String × Json)} {path : String} :
    orderIssues s fields path = [] ↔ s.Ordered fields := by
  rw [orderIssues, List.flatMap_eq_nil_iff]
  refine forall₂_congr fun order _ => ?_
  cases numberField fields order.1 with
  | none => simp
  | some lower =>
    cases numberField fields order.2 with
    | none => simp
    | some upper =>
      by_cases hlt : upper < lower
      · simp [hlt, issue_ne_nil]
      · simp [hlt, not_lt.mp hlt]

/-- The properties of an object, when each of them settles. -/
theorem settles_struct {s : Struct} {fields : List (String × Json)} {path : String} {P : Property → Prop}
    (h : ∀ p ∈ s.properties, Settles (fun fuel => validateProperty (validateAt R fuel) fields path p) (P p)) :
    Settles (fun fuel => validateDeclaration (validateAt R fuel) (.object fields) path (.struct s))
      ((∀ p ∈ s.properties, P p) ∧ s.Ordered fields) :=
  (settles_mapM h (orderIssues s fields path)).congr (and_congr_right fun _ => orderIssues_eq_nil_iff)

/-- `null` for a schema that denotes a type. -/
theorem settles_null {schema : Schema} (h : Denotes R schema) :
    ∀ path, Settles (fun fuel => validateAt R fuel .null schema path) (Meets R schema .null) := by
  induction h with
  | struct declared =>
    intro path
    refine settles_of_const (issue path "type" "must be an object") (fun fuel => ?_) ?_
    · simp [validateAt, validateDeclaration, declared]
    · simp [issue_ne_nil, not_meets_struct declared]
  | @defined name schema declared _ ih =>
    intro path
    refine ((ih path).congr (meets_defined_iff declared).symm).of_succ fun fuel => ?_
    simp [validateAt, validateDeclaration, declared]
  | @inline schema noRef =>
    intro path
    cases schema with
    | ref name => exact absurd rfl (noRef name)
    | any => exact settles_of_const [] (fun fuel => rfl) (by simp [Meets.any])
    | _ =>
      refine settles_of_const _ (fun fuel => rfl) ?_
      simp only [issue_ne_nil, false_iff]
      intro hmeets
      cases hmeets

/-! ## Payloads that decode -/

/-- A property of an object settles if its value does where it decodes. -/
theorem settles_property {p : Property} {fields : List (String × Json)} (hp : p.Resolved R)
    (hpresent : p.required = true → (fields.lookup p.name).isSome = true)
    (hvalue : ∀ v, fields.lookup p.name = some v →
      ¬ (isNull v = true ∧ (p.nullable = true ∨ p.acceptsNull = true)) →
      ∀ path, Settles (fun fuel => validateAt R fuel v p.schema path) (Meets R p.schema v)) (path : String) :
    Settles (fun fuel => validateProperty (validateAt R fuel) fields path p)
      (∀ v, fields.lookup p.name = some v → ¬ (isNull v = true ∧ p.acceptsNull = true) → Meets R p.schema v) := by
  cases hlookup : fields.lookup p.name with
  | none =>
    have hoptional : p.required = false := by
      by_contra hrequired
      have hsome := hpresent (by simpa using hrequired)
      rw [hlookup] at hsome
      cases hsome
    exact settles_of_const [] (fun fuel => by simp [validateProperty, hlookup, hoptional]) (by simp)
  | some v =>
    simp only [Option.some.injEq, forall_eq']
    by_cases hnull : isNull v = true ∧ p.acceptsNull = true
    · exact settles_of_const [] (fun fuel => by simp [validateProperty, hlookup, hnull])
        (by simp [hnull])
    · have hv : Settles (fun fuel => validateAt R fuel v p.schema s!"{path}.{p.name}") (Meets R p.schema v) := by
        by_cases hnullable : isNull v = true ∧ p.nullable = true
        · -- the generated types take `null` here, and the schema does not
          obtain rfl : v = .null := by
            cases v <;> simp [isNull] at hnullable ⊢
          exact settles_null hp.denotes _
        · refine hvalue v hlookup ?_ _
          rintro ⟨hisNull, hn | ha⟩
          · exact hnullable ⟨hisNull, hn⟩
          · exact hnull ⟨hisNull, ha⟩
      obtain ⟨issues, hrun, hissues⟩ := hv
      refine ⟨issues, ?_, by simp [hnull, hissues]⟩
      have hcheck : ∀ fuel, validateProperty (validateAt R fuel) fields path p =
          validateAt R fuel v p.schema s!"{path}.{p.name}" := by
        intro fuel
        simp only [validateProperty, hlookup]
        rw [if_neg (by simpa using hnull)]
      simpa only [hcheck] using hrun

/-- The validator returns for a payload that decodes, with no issue exactly if the rules are met. -/
theorem settles_of_decodes (hacc : R.Accepted) {schema : Schema} {v : Json} (h : Decodes R schema v) :
    ∀ path, Settles (fun fuel => validateAt R fuel v schema path) (Meets R schema v) := by
  induction h with
  | @struct name s fields declared keys present properties ih =>
    intro path
    have hprops : ∀ p ∈ s.properties, Settles (fun fuel => validateProperty (validateAt R fuel) fields path p) _ :=
      fun p hp => settles_property ((hacc name s declared).resolved p hp) (present p hp) (ih p hp) path
    refine ((settles_struct hprops).congr (meets_struct_iff declared).symm).of_succ fun fuel => ?_
    rw [validateAt, declared]
  | @defined name schema v declared _ ih =>
    intro path
    refine ((ih path).congr (meets_defined_iff declared).symm).of_succ fun fuel => ?_
    rw [validateAt, declared]
    rfl
  | @string minLength s =>
    intro path
    cases minLength with
    | none => exact settles_of_const [] (fun fuel => rfl) (by simp [meets_string_iff])
    | some m =>
      refine settles_of_const _ (fun fuel => rfl) ?_
      simp [meets_string_iff, issue_ne_nil]
  | boolean =>
    intro path
    exact settles_of_const [] (fun fuel => rfl) (by simp [Meets.boolean])
  | @integer minimum maximum nonzero n safe =>
    intro path
    refine settles_of_const (boundIssues n (minimum.map .ofInt) (maximum.map .ofInt) nonzero path)
      (fun fuel => ?_) ?_
    · simp [validateAt, JsNumber.ofJson, safe]
    · simp [boundIssues_eq_nil_iff, meets_integer_iff, Literal.ofInt]
  | @number minimum maximum n safe =>
    intro path
    refine settles_of_const (boundIssues (toRat n) minimum maximum false path) (fun fuel => ?_) ?_
    · cases hn : JsNumber.ofJson n <;> simp [safeNumber, hn] at safe ⊢ <;> simp [validateAt, hn]
    · simp [boundIssues_eq_nil_iff, meets_number_iff]
  | @array schema items _ ih =>
    intro path
    have hitems : ∀ item ∈ items.zipIdx, Settles
        (fun fuel => validateAt R fuel item.1 schema s!"{path}[{item.2}]") (Meets R schema item.1) := by
      intro item hitem
      exact ih item.1 (List.fst_mem_of_mem_zipIdx hitem) _
    refine ((settles_mapM hitems []).congr ?_).of_succ fun fuel => ?_
    · rw [meets_array_iff, and_iff_left rfl, ← List.forall_mem_map, List.zipIdx_map_fst]
    · simp [validateAt]
  | @object additional fields _ _ =>
    intro path
    exact settles_of_const [] (fun fuel => rfl) (by simp [Meets.object])
  | @any v safe =>
    intro path
    exact settles_of_const _ (fun fuel => rfl) (by simp [validateAny_of_safe v path safe, Meets.any])

/-- `validateCatalogValue` returns for a payload that decodes, with no issue exactly if the rules are met. -/
theorem reports_of_decodes (hacc : R.Accepted) {name : String} {declaration : Declaration}
    (hdecl : R name = some declaration) {v : Json} (h : Decodes R (.ref name) v) :
    ∃ issues, Reports R name v issues ∧ (issues = [] ↔ Meets R (.ref name) v) := by
  obtain ⟨issues, hrun, hissues⟩ := settles_of_decodes hacc h "$"
  refine ⟨issues, ?_, hissues⟩
  have hcall : ∀ fuel, validateAt R (fuel + 1) v (.ref name) "$" = validateCatalogValue R fuel v name := by
    intro fuel
    rw [validateAt, validateCatalogValue, hdecl]
  simpa only [Reports, hcall] using hrun.succ

end Rtvbp.TypeScript.Validation
