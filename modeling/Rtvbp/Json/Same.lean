import Rtvbp.Json.Access
import Rtvbp.Lib.Registry

/-!
# Proofs: the comparison of JSON values

On the values that a JSON library can hold, comparison is an equivalence, and two objects are equal if they have equal
values at every key.
-/

namespace Rtvbp

/-! ## Numbers -/

theorem JsonNumber.same_refl (n : JsonNumber) : n.same n = true := by
  cases n with
  | int n => simp [JsonNumber.same]
  | float bits => simp [JsonNumber.same]

theorem JsonNumber.same_symm {n m : JsonNumber} (h : n.same m = true) : m.same n = true := by
  cases n with
  | int n =>
    cases m with
    | int m =>
      simp only [JsonNumber.same, beq_iff_eq] at h ⊢
      exact h.symm
    | float bits => cases h
  | float bits =>
    cases m with
    | int m => cases h
    | float bits' =>
      simp only [JsonNumber.same, Bool.or_eq_true, Bool.and_eq_true, beq_iff_eq] at h ⊢
      rcases h with h | ⟨hzero, hzero'⟩
      · exact Or.inl h.symm
      · exact Or.inr ⟨hzero', hzero⟩

theorem JsonNumber.same_trans {n m k : JsonNumber} (h : n.same m = true) (h' : m.same k = true) :
    n.same k = true := by
  cases m with
  | int m =>
    cases n with
    | float bits => cases h
    | int n =>
      simp only [JsonNumber.same, beq_iff_eq] at h
      rw [h]
      exact h'
  | float bits =>
    cases n with
    | int n => cases h
    | float left =>
      cases k with
      | int k => cases h'
      | float right =>
        simp only [JsonNumber.same, Bool.or_eq_true, Bool.and_eq_true, beq_iff_eq] at h h' ⊢
        rcases h with rfl | ⟨hleft, hmiddle⟩
        · exact h'
        · rcases h' with rfl | ⟨-, hright⟩
          · exact Or.inr ⟨hleft, hmiddle⟩
          · exact Or.inr ⟨hleft, hright⟩

namespace Json

/-! ## Items and fields -/

/-- Induction on a value, in which the values inside are those of the items and of the fields. -/
theorem inductionOn {p : Json → Prop} (v : Json) (null : p .null) (bool : ∀ b, p (.bool b))
    (number : ∀ n, p (.number n)) (string : ∀ s, p (.string s))
    (array : ∀ items, (∀ v ∈ items, p v) → p (.array items))
    (object : ∀ fields, (∀ field ∈ fields, p field.2) → p (.object fields)) : p v := by
  refine Json.rec (motive_1 := p) (motive_2 := fun items => ∀ v ∈ items, p v)
    (motive_3 := fun fields => ∀ field ∈ fields, p field.2) (motive_4 := fun field => p field.2)
    null bool number string array object ?_ ?_ ?_ ?_ ?_ v
  · simp
  · intro head tail hhead htail v hmem
    rcases List.mem_cons.mp hmem with rfl | hmem
    · exact hhead
    · exact htail v hmem
  · simp
  · intro head tail hhead htail field hmem
    rcases List.mem_cons.mp hmem with rfl | hmem
    · exact hhead
    · exact htail field hmem
  · intro name v hv
    exact hv

theorem mem_keys_iff {fields : List (String × Json)} {name : String} :
    name ∈ fields.map Prod.fst ↔ (fields.lookup name).isSome = true := by
  rw [List.lookup_isSome_iff, List.mem_map]
  refine exists_congr fun field => and_congr_right fun _ => ?_
  rw [beq_iff_eq, eq_comm]

theorem sameItems_iff {items others : List Json} :
    sameItems items others = true ↔ List.Forall₂ (fun v w => same v w = true) items others := by
  induction items generalizing others with
  | nil =>
    cases others with
    | nil => simp [sameItems]
    | cons w others => simp [sameItems]
  | cons v items ih =>
    cases others with
    | nil => simp [sameItems]
    | cons w others => rw [sameItems, Bool.and_eq_true, List.forall₂_cons, ih]

theorem sameFields_iff {fields others : List (String × Json)} :
    sameFields fields others = true ↔
      ∀ field ∈ fields, ∃ w, others.lookup field.1 = some w ∧ same field.2 w = true := by
  induction fields with
  | nil => simp [sameFields]
  | cons field fields ih =>
    rcases field with ⟨name, v⟩
    rw [sameFields, Bool.and_eq_true, ih, List.forall_mem_cons]
    refine and_congr_left fun _ => ?_
    cases others.lookup name with
    | none => simp
    | some w => simp

/-- Two objects are equal if they have equal values at every key. -/
theorem same_object_iff {fields others : List (String × Json)} (hfields : (fields.map Prod.fst).Nodup)
    (hothers : (others.map Prod.fst).Nodup) :
    same (.object fields) (.object others) = true ↔
      ∀ name, Option.Rel (fun v w => same v w = true) (fields.lookup name) (others.lookup name) := by
  rw [same, Bool.and_eq_true, beq_iff_eq, sameFields_iff]
  constructor
  · rintro ⟨hlength, hall⟩ name
    have hsubset : fields.map Prod.fst ⊆ others.map Prod.fst := by
      intro key hkey
      obtain ⟨field, hfield, rfl⟩ := List.mem_map.mp hkey
      obtain ⟨w, hlookup, -⟩ := hall field hfield
      exact List.mem_map.mpr ⟨_, Lib.mem_of_lookup_eq_some hlookup, rfl⟩
    have hperm : (fields.map Prod.fst).Perm (others.map Prod.fst) :=
      (List.subperm_of_subset hfields hsubset).perm_of_length_le (by simp [hlength])
    cases hlookup : fields.lookup name with
    | some v =>
      obtain ⟨w, hlookup', hsame⟩ := hall _ (Lib.mem_of_lookup_eq_some hlookup)
      have hlookup'' : others.lookup name = some w := hlookup'
      rw [hlookup'']
      exact .some hsame
    | none =>
      cases hlookup' : others.lookup name with
      | none => exact .none
      | some w =>
        have hkey : name ∈ others.map Prod.fst := List.mem_map.mpr ⟨_, Lib.mem_of_lookup_eq_some hlookup', rfl⟩
        obtain ⟨field, hfield, hname⟩ := List.mem_map.mp (hperm.mem_iff.mpr hkey)
        have hsome : fields.lookup field.1 = some field.2 := (Lib.lookup_eq_some_iff_mem hfields).mpr hfield
        rw [hname, hlookup] at hsome
        cases hsome
  · intro h
    have hkeys : ∀ name, name ∈ fields.map Prod.fst ↔ name ∈ others.map Prod.fst := by
      intro name
      have hname : (fields.lookup name).isSome = (others.lookup name).isSome := by
        have hrel := h name
        generalize fields.lookup name = left at hrel ⊢
        generalize others.lookup name = right at hrel ⊢
        cases hrel with
        | some _ => rfl
        | none => rfl
      rw [mem_keys_iff, mem_keys_iff, hname]
    refine ⟨?_, fun field hfield => ?_⟩
    · have hperm : (fields.map Prod.fst).Perm (others.map Prod.fst) :=
        (List.perm_ext_iff_of_nodup hfields hothers).mpr hkeys
      simpa using hperm.length_eq
    · have hlookup : fields.lookup field.1 = some field.2 := (Lib.lookup_eq_some_iff_mem hfields).mpr hfield
      have hrel := h field.1
      rw [hlookup] at hrel
      cases hother : others.lookup field.1 with
      | none =>
        rw [hother] at hrel
        cases hrel
      | some w =>
        rw [hother] at hrel
        cases hrel with
        | some hsame => exact ⟨w, rfl, hsame⟩

/-! ## The equivalence -/

theorem wellFormed_array {items : List Json} (h : (Json.array items).wellFormed = true) :
    ∀ v ∈ items, v.wellFormed = true := (everywhere_array.1 h).2

theorem same_refl (v : Json) (hv : v.wellFormed = true) : same v v = true := by
  induction v using inductionOn with
  | null => rfl
  | bool b => simp [same]
  | number n => exact n.same_refl
  | string s => simp [same]
  | array items ih =>
    rw [same_array, sameItems_iff, List.forall₂_same]
    intro v hmem
    exact ih v hmem (wellFormed_array hv v hmem)
  | object fields ih =>
    obtain ⟨hnodup, hfields⟩ := wellFormed_object.1 hv
    rw [same_object_iff hnodup hnodup]
    intro name
    cases hlookup : fields.lookup name with
    | none => exact .none
    | some v =>
      have hmem := Lib.mem_of_lookup_eq_some hlookup
      exact .some (ih _ hmem (hfields _ hmem))

theorem same_symm (v w : Json) (hv : v.wellFormed = true) (hw : w.wellFormed = true) (h : same v w = true) :
    same w v = true := by
  induction v using inductionOn generalizing w with
  | null =>
    cases w with
    | null => exact h
    | _ => cases h
  | bool b =>
    cases w with
    | bool b' =>
      simp only [same, beq_iff_eq] at h ⊢
      exact h.symm
    | _ => cases h
  | number n =>
    cases w with
    | number m => exact JsonNumber.same_symm h
    | _ => cases h
  | string s =>
    cases w with
    | string s' =>
      simp only [same, beq_iff_eq] at h ⊢
      exact h.symm
    | _ => cases h
  | array items ih =>
    cases w with
    | array others =>
      rw [same_array, sameItems_iff] at h ⊢
      have hv := wellFormed_array hv
      have hw := wellFormed_array hw
      clear * - ih h hv hw
      induction h with
      | nil => exact .nil
      | cons hfirst hrest ihrest =>
        rw [List.forall_mem_cons] at ih hv hw
        exact .cons (ih.1 _ hv.1 hw.1 hfirst) (ihrest ih.2 hv.2 hw.2)
    | _ => cases h
  | object fields ih =>
    cases w with
    | object others =>
      obtain ⟨hnodup, hfields⟩ := wellFormed_object.1 hv
      obtain ⟨hnodup', hothers⟩ := wellFormed_object.1 hw
      rw [same_object_iff hnodup hnodup'] at h
      rw [same_object_iff hnodup' hnodup]
      intro name
      have hname := h name
      generalize hlookup : fields.lookup name = left at hname ⊢
      generalize hlookup' : others.lookup name = right at hname ⊢
      cases hname with
      | none => exact .none
      | some hsame =>
        have hmem := Lib.mem_of_lookup_eq_some hlookup
        have hmem' := Lib.mem_of_lookup_eq_some hlookup'
        exact .some (ih _ hmem _ (hfields _ hmem) (hothers _ hmem') hsame)
    | _ => cases h

theorem same_trans (u v w : Json) (hu : u.wellFormed = true) (hv : v.wellFormed = true) (hw : w.wellFormed = true)
    (h : same u v = true) (h' : same v w = true) : same u w = true := by
  induction u using inductionOn generalizing v w with
  | null =>
    cases v with
    | null => exact h'
    | _ => cases h
  | bool b =>
    cases v with
    | bool b' =>
      obtain rfl : b = b' := by simpa [same] using h
      exact h'
    | _ => cases h
  | number n =>
    cases v with
    | number m =>
      cases w with
      | number k => exact JsonNumber.same_trans h h'
      | _ => cases h'
    | _ => cases h
  | string s =>
    cases v with
    | string s' =>
      obtain rfl : s = s' := by simpa [same] using h
      exact h'
    | _ => cases h
  | array items ih =>
    cases v with
    | array middle =>
      cases w with
      | array others =>
        rw [same_array, sameItems_iff] at h h' ⊢
        have hu := wellFormed_array hu
        have hv := wellFormed_array hv
        have hw := wellFormed_array hw
        clear * - ih h h' hu hv hw
        induction h generalizing others with
        | nil => exact h'
        | cons hfirst hrest ihrest =>
          cases h' with
          | cons hfirst' hrest' =>
            rw [List.forall_mem_cons] at ih hu hv hw
            exact .cons (ih.1 _ _ hu.1 hv.1 hw.1 hfirst hfirst') (ihrest ih.2 _ hrest' hu.2 hv.2 hw.2)
      | _ => cases h'
    | _ => cases h
  | object fields ih =>
    cases v with
    | object middle =>
      cases w with
      | object others =>
        obtain ⟨hnodup, hfields⟩ := wellFormed_object.1 hu
        obtain ⟨hnodup', hmiddle⟩ := wellFormed_object.1 hv
        obtain ⟨hnodup'', hothers⟩ := wellFormed_object.1 hw
        rw [same_object_iff hnodup hnodup'] at h
        rw [same_object_iff hnodup' hnodup''] at h'
        rw [same_object_iff hnodup hnodup'']
        intro name
        have hname := h name
        have hname' := h' name
        generalize hleft : fields.lookup name = left at hname ⊢
        generalize hlookup : middle.lookup name = center at hname hname'
        generalize hright : others.lookup name = right at hname' ⊢
        cases hname with
        | none => exact hname'
        | some hsame =>
          cases hname' with
          | some hsame' =>
            have hmem := Lib.mem_of_lookup_eq_some hleft
            have hmem' := Lib.mem_of_lookup_eq_some hlookup
            have hmem'' := Lib.mem_of_lookup_eq_some hright
            exact .some (ih _ hmem _ _ (hfields _ hmem) (hmiddle _ hmem') (hothers _ hmem'') hsame hsame')
      | _ => cases h'
    | _ => cases h

/-- The comparison is an equivalence on the values of a JSON library. -/
theorem same_equivalence : Lib.EquivalenceOn (fun v => v.wellFormed = true) same where
  refl := same_refl
  symm := same_symm
  trans := same_trans

end Json

end Rtvbp
