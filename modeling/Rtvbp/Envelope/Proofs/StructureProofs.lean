import Rtvbp.Envelope.Codec

/-!
# What the structural validation guarantees

`structure_issues` returns no issue only for declarations that are `WellFormed`: every frame kind has
exactly one shape, the discriminators are distinct, and the wire fields of one frame are distinct from
each other and from the constants. Nothing is said about fields of *different* frames other than their
discriminators.
-/

namespace Rtvbp.Envelope

open Rtvbp.Lib

/-- The frame maps exactly the fields its kind needs, under non-empty names that are distinct from
each other and from the constants. -/
structure FrameSpec.Valid (constants : List String) (frame : FrameSpec) : Prop where
  id_some : frame.kind ≠ .response → ∃ id, frame.id = some id
  id_none : frame.kind = .response → frame.id = none
  error_some : frame.kind = .response → ∃ error, frame.error = some error
  error_none : frame.kind ≠ .response → frame.error = none
  names_nodup : (frame.wireFields.map FieldSpec.name).Nodup
  names_fresh : ∀ field ∈ frame.wireFields, field.name ∉ constants
  names_nonempty : ∀ field ∈ frame.wireFields, field.name ≠ ""

/-- The guarantees of the structural validation that the codecs rely on. -/
structure EnvelopeSpec.WellFormed (spec : EnvelopeSpec) : Prop where
  constants_nodup : spec.constantNames.Nodup
  kinds_nodup : (spec.frames.map FrameSpec.kind).Nodup
  kind_mem : ∀ kind, kind ∈ spec.frames.map FrameSpec.kind
  discriminators_nodup : (spec.frames.map fun frame => frame.discriminator.name).Nodup
  frame_valid : ∀ frame ∈ spec.frames, frame.Valid spec.constantNames
  error_nodup : [spec.error.code.name, spec.error.message.name, spec.error.data.name].Nodup

theorem ite_singleton_eq_nil {α : Type} {p : Prop} [Decidable p] {x : α} :
    (if p then [x] else []) = [] ↔ ¬ p := by
  split_ifs with h <;> simp [h]

theorem validateFieldName_eq_nil {context name : String} :
    validateFieldName context name = [] ↔ name ≠ "" := by
  simp only [validateFieldName, ite_singleton_eq_nil, ne_eq]

theorem FrameSpec.mem_wireFields {frame : FrameSpec} {field : FieldSpec} :
    field ∈ frame.wireFields ↔
      field = frame.discriminator ∨ frame.id = some field ∨ field = frame.payload ∨
        frame.error = some field := by
  simp [wireFields, List.reduceOption, List.mem_filterMap, eq_comm]

/-- A frame whose own checks report nothing is valid. -/
theorem FrameSpec.valid_of_issues {constants : List String} {frame : FrameSpec}
    (hd : frame.discriminator.name ≠ "") (hp : frame.payload.name ≠ "")
    (hi : ∀ id, frame.id = some id → id.name ≠ "")
    (he : ∀ error, frame.error = some error → error.name ≠ "")
    (hshape : frame.shapeIssues = [])
    (hwire : (frame.wireFields.map FieldSpec.name).Nodup ∧
      ∀ field ∈ frame.wireFields, field.name ∉ constants) :
    frame.Valid constants := by
  obtain ⟨kind, discriminator, id, payload, error⟩ := frame
  refine ⟨?_, ?_, ?_, ?_, hwire.1, hwire.2, ?_⟩
  · intro hk
    cases kind <;> cases id <;> simp_all [shapeIssues]
  · rintro rfl
    cases id <;> simp_all [shapeIssues]
  · rintro rfl
    cases error <;> simp_all [shapeIssues]
  · intro hk
    cases kind <;> cases error <;> simp_all [shapeIssues]
  · intro field hfield
    rcases mem_wireFields.1 hfield with rfl | h | rfl | h
    · exact hd
    · exact hi _ h
    · exact hp
    · exact he _ h

/-- The loop over the frames reports nothing only if the frames are valid and their kinds and
discriminators are new. -/
theorem frameIssues_eq_nil {constants : List String} {kinds : List FrameKind}
    {discriminators : List String} {frames : List FrameSpec}
    (h : frameIssues constants kinds discriminators frames = []) :
    (∀ frame ∈ frames, frame.Valid constants) ∧
    (frames.map FrameSpec.kind).Nodup ∧ (∀ frame ∈ frames, frame.kind ∉ kinds) ∧
    (frames.map fun frame => frame.discriminator.name).Nodup ∧
    ∀ frame ∈ frames, frame.discriminator.name ∉ discriminators := by
  induction frames generalizing kinds discriminators with
  | nil => simp
  | cons frame frames ih =>
    simp only [frameIssues, List.append_eq_nil_iff, ite_singleton_eq_nil, validateFieldName_eq_nil,
      scan_eq_nil_iff] at h
    obtain ⟨⟨⟨⟨⟨⟨⟨⟨⟨hkind, hd⟩, -⟩, hdisc⟩, hp⟩, hi⟩, he⟩, hshape⟩, -, hwire⟩, hrest⟩ := h
    obtain ⟨hvalid, hkinds, hkindsNew, hdiscs, hdiscsNew⟩ := ih hrest
    have hi' : ∀ id, frame.id = some id → id.name ≠ "" := by
      intro id hid
      rw [hid] at hi
      exact validateFieldName_eq_nil.1 hi
    have he' : ∀ error, frame.error = some error → error.name ≠ "" := by
      intro error herror
      rw [herror] at he
      exact validateFieldName_eq_nil.1 he
    simp only [List.mem_cons, not_or] at hkindsNew hdiscsNew
    refine ⟨?_, ?_, ?_, ?_, ?_⟩
    · exact List.forall_mem_cons.mpr
        ⟨FrameSpec.valid_of_issues hd hp hi' he' hshape hwire, hvalid⟩
    · simp only [List.map_cons, List.nodup_cons, List.mem_map, not_exists, not_and]
      exact ⟨fun f hf => (hkindsNew f hf).1, hkinds⟩
    · exact List.forall_mem_cons.mpr ⟨hkind, fun f hf => (hkindsNew f hf).2⟩
    · simp only [List.map_cons, List.nodup_cons, List.mem_map, not_exists, not_and]
      exact ⟨fun f hf => (hdiscsNew f hf).1, hdiscs⟩
    · exact List.forall_mem_cons.mpr ⟨hdisc, fun f hf => (hdiscsNew f hf).2⟩

namespace EnvelopeSpec

/-- A declaration without structural issues is well formed. -/
theorem wellFormed_of_structureIssues {spec : EnvelopeSpec} (h : spec.structureIssues = []) :
    spec.WellFormed := by
  simp only [structureIssues, List.append_eq_nil_iff, scan_eq_nil_iff] at h
  obtain ⟨⟨⟨⟨⟨⟨⟨⟨⟨-, -, hconstants, -⟩, hframes⟩, hmissing⟩, -⟩, -⟩, -⟩, -⟩, -, herror, -⟩, -⟩ := h
  obtain ⟨hvalid, hkinds, -, hdiscs, -⟩ := frameIssues_eq_nil hframes
  refine ⟨hconstants, hkinds, fun kind => ?_, hdiscs, hvalid, by simpa using herror⟩
  have hkind := List.flatMap_eq_nil_iff.mp hmissing kind (by cases kind <;> simp)
  by_contra hne
  rw [if_neg hne] at hkind
  exact List.cons_ne_nil _ _ hkind

namespace WellFormed

variable {spec : EnvelopeSpec}

/-- Every kind has a shape, which is the one that `frame` finds. -/
theorem exists_frame (h : spec.WellFormed) (kind : FrameKind) :
    ∃ shape ∈ spec.frames, shape.kind = kind ∧ spec.frame kind = .ok shape := by
  obtain ⟨shape, hshape, hkind⟩ := List.mem_map.mp (h.kind_mem kind)
  have hfind : (spec.frames.find? fun frame => frame.kind = kind).isSome := by
    rw [List.find?_isSome]
    exact ⟨shape, hshape, by simpa using hkind⟩
  obtain ⟨found, hfound⟩ := Option.isSome_iff_exists.mp hfind
  refine ⟨found, List.mem_of_find?_eq_some hfound, by simpa using List.find?_some hfound, ?_⟩
  rw [EnvelopeSpec.frame, hfound]

end WellFormed

end EnvelopeSpec

end Rtvbp.Envelope
