import Rtvbp.Envelope.Proofs.EncodeProofs

/-!
# Encoding and decoding a frame

When is `decode (encode f)` the frame `f` again? Decoding selects the first shape whose discriminator
field holds a non-empty string. The validator keeps the fields of one frame apart, but not the
discriminator of one frame from the id and payload fields of a later one: such a field is mistaken for
the discriminator as soon as it holds a non-empty string. Declarations without these clashes are
`Unambiguous`, and they are exactly the ones whose frames survive the round trip.
-/

namespace Rtvbp.Envelope

open Rtvbp.Lib

/-- The same optional value, where a field that is always emitted does not distinguish the absent value
from `null`. -/
def SameValue (field : FieldSpec) (a b : Option Value) : Prop :=
  a = b ∨ (field.omitWhenNone = false ∧ a.getD Value.null = b.getD Value.null)

namespace EnvelopeSpec

variable (spec : EnvelopeSpec)

/-- The same error, up to `null` error data. -/
def SameError : Option WireError → Option WireError → Prop
  | none, none => True
  | some a, some b =>
    a.code = b.code ∧ a.message = b.message ∧ SameValue spec.error.data a.data b.data
  | _, _ => False

/-- The same frame, up to `null` payload and error data. -/
def SameFrame (f g : ControlFrame) : Prop :=
  f.kind = g.kind ∧ f.identity = g.identity ∧ f.subject = g.subject ∧
  (∀ shape ∈ spec.frames, shape.kind = f.kind → SameValue shape.payload f.payload g.payload) ∧
  spec.SameError f.error g.error

/-- Every frame that `encode` accepts is decoded to the same frame. -/
def RoundTrips (lib : JsonText) : Prop :=
  ∀ frame text, spec.encode lib frame = .ok text →
    ∃ decoded, spec.decode lib text = .ok decoded ∧ spec.SameFrame frame decoded

/-- No discriminator is the id or the payload field of a frame that comes later in the discrimination
order. -/
def Unambiguous : Prop :=
  spec.frames.Pairwise fun earlier later =>
    earlier.discriminator.name ≠ later.payload.name ∧
      ∀ id, later.id = some id → earlier.discriminator.name ≠ id.name

end EnvelopeSpec

/-! ## Reading the fields of an object -/

theorem nonEmptyString_eq_some_iff {m : JsonMap} {name s : String} :
    nonEmptyString m name = some s ↔ (name, .string s) ∈ m.val ∧ s ≠ "" := by
  have hget : m.get name = some (Value.string s) ↔ (name, .string s) ∈ m.val :=
    JsonMap.get_eq_some_iff_mem
  rw [nonEmptyString, Option.filter_eq_some_iff, Option.bind_eq_some_iff, ← hget]
  simp only [Value.asStr_eq_some, bne_iff_ne]
  constructor
  · rintro ⟨⟨v, hv, rfl⟩, hs⟩
    exact ⟨hv, hs⟩
  · rintro ⟨hv, hs⟩
    exact ⟨⟨_, hv, rfl⟩, hs⟩

/-- An optional field is read back from an object that holds it and nothing else under its name. -/
theorem optionalValue_same {m : JsonMap} {field : FieldSpec} {value : Option Value}
    (hmem : ∀ p ∈ serializeOptional field value, p ∈ m.val)
    (honly : ∀ p ∈ m.val, p.1 = field.name → p ∈ serializeOptional field value) :
    SameValue field value (optionalValue m field) := by
  unfold optionalValue
  cases value with
  | some v =>
    have hget : m.get field.name = some v :=
      JsonMap.get_eq_some_iff_mem.2 (hmem _ (by simp [serializeOptional]))
    exact Or.inl hget.symm
  | none =>
    cases homit : field.omitWhenNone with
    | false =>
      have hget : m.get field.name = some Value.null :=
        JsonMap.get_eq_some_iff_mem.2 (hmem _ (by simp [serializeOptional, homit, Value.null]))
      exact Or.inr ⟨homit, by rw [hget]; rfl⟩
    | true =>
      have hget : m.get field.name = none := by
        refine JsonMap.get_eq_none_of_forall_ne fun p hp hname => ?_
        simpa [serializeOptional, homit] using honly p hp hname
      exact Or.inl hget.symm

namespace FrameSpec.Valid

variable {constants : List String} {shape : FrameSpec}

theorem discriminator_ne_payload (h : shape.Valid constants) :
    shape.discriminator.name ≠ shape.payload.name := by
  have hnd := h.names_nodup
  cases hi : shape.id <;> cases he : shape.error <;>
    simp_all [wireFields, List.reduceOption]

theorem id_ne_payload (h : shape.Valid constants) {id : FieldSpec} (hi : shape.id = some id) :
    id.name ≠ shape.payload.name := by
  have hnd := h.names_nodup
  cases he : shape.error <;> simp_all [wireFields, List.reduceOption]

theorem error_ne_payload (h : shape.Valid constants) {error : FieldSpec}
    (he : shape.error = some error) : error.name ≠ shape.payload.name := by
  have hnd := h.names_nodup
  cases hi : shape.id <;> simp_all [wireFields, List.reduceOption, eq_comm]

theorem error_ne_discriminator (h : shape.Valid constants) {error : FieldSpec}
    (he : shape.error = some error) : error.name ≠ shape.discriminator.name := by
  have hnd := h.names_nodup
  cases hi : shape.id <;> simp_all [wireFields, List.reduceOption, eq_comm]

end FrameSpec.Valid

/-! ## Decoding the wire object -/

namespace EnvelopeSpec

variable {spec : EnvelopeSpec}

theorem decodeConstants_eq_ok {m : JsonMap} {constants : List ConstantField}
    (h : ∀ c ∈ constants, (c.name, .string c.value) ∈ m.val) :
    decodeConstants m constants = .ok () := by
  induction constants with
  | nil => rfl
  | cons c cs ih =>
    have hget : m.get c.name = some (Value.string c.value) :=
      JsonMap.get_eq_some_iff_mem.2 (h c (by simp))
    rw [decodeConstants, hget]
    simpa using ih fun d hd => h d (by simp [hd])

/-- The first shape whose discriminator is a non-empty string decides. -/
theorem decodeFrames_eq_decodeShape {m : JsonMap} {pre post : List FrameSpec} {shape : FrameSpec}
    {discriminator : String}
    (hpre : ∀ g ∈ pre, nonEmptyString m g.discriminator.name = none)
    (hshape : nonEmptyString m shape.discriminator.name = some discriminator) :
    spec.decodeFrames m (pre ++ shape :: post) = spec.decodeShape m shape discriminator := by
  induction pre with
  | nil => simp [decodeFrames, hshape]
  | cons g gs ih =>
    rw [List.cons_append, decodeFrames, hpre g (by simp)]
    exact ih fun x hx => hpre x (by simp [hx])

theorem decodeShape_kind {m : JsonMap} {shape : FrameSpec} {discriminator : String}
    {frame : ControlFrame} (h : spec.decodeShape m shape discriminator = .ok frame) :
    frame.kind = shape.kind := by
  unfold decodeShape at h
  split at h
  · next hk =>
    cases hr : requiredFrameId m shape "request" <;> simp [hr, bind, Except.bind, pure, Except.pure] at h
    rw [← h, hk]; rfl
  · next hk =>
    cases hr : requiredFrameId m shape "event" <;> simp [hr, bind, Except.bind, pure, Except.pure] at h
    rw [← h, hk]; rfl
  · next hk =>
    cases hr : spec.decodeResponseError m shape <;>
      simp [hr, bind, Except.bind, pure, Except.pure] at h
    rw [← h, hk]; rfl

/-- No shape after one whose discriminator is a non-empty string can be selected. -/
theorem decodeFrames_kind_mem {m : JsonMap} {pre post : List FrameSpec} {shape : FrameSpec}
    {frame : ControlFrame} (hshape : nonEmptyString m shape.discriminator.name ≠ none)
    (h : spec.decodeFrames m (pre ++ shape :: post) = .ok frame) :
    frame.kind ∈ (pre ++ [shape]).map FrameSpec.kind := by
  induction pre with
  | nil =>
    obtain ⟨d, hd⟩ := Option.ne_none_iff_exists'.mp hshape
    rw [List.nil_append, decodeFrames, hd] at h
    simpa using decodeShape_kind h
  | cons g gs ih =>
    rw [List.cons_append, decodeFrames] at h
    cases hg : nonEmptyString m g.discriminator.name with
    | none =>
      rw [hg] at h
      have hgs := ih h
      simp only [List.cons_append, List.map_cons, List.mem_cons]
      exact Or.inr hgs
    | some d =>
      rw [hg] at h
      simp [decodeShape_kind h]

/-- The wire object of a frame. -/
def wireMap (h : spec.WellFormed) {shape : FrameSpec} (hshape : shape ∈ spec.frames)
    (frame : ControlFrame) : JsonMap :=
  ⟨spec.wireObject shape frame, wireObject_wellFormed h hshape frame⟩

section WireMap

variable (h : spec.WellFormed) {shape : FrameSpec} (hshape : shape ∈ spec.frames)
  (frame : ControlFrame)

theorem mem_wireMap_body {p : String × Json} (hp : p ∈ spec.bodyFields shape frame) :
    p ∈ (wireMap h hshape frame).val :=
  List.mem_append_right _ hp

/-- A field of the wire object that is named like a wire field of the shape is in the body. -/
theorem mem_body_of_mem_wireMap {p : String × Json} (hp : p ∈ (wireMap h hshape frame).val)
    {field : FieldSpec} (hf : field ∈ shape.wireFields) (hname : p.1 = field.name) :
    p ∈ spec.bodyFields shape frame := by
  rcases List.mem_append.mp hp with hp | hp
  · have hfresh := (h.frame_valid shape hshape).names_fresh field hf
    exact absurd (mem_constantFields hp) (by rw [hname]; exact hfresh)
  · exact hp

theorem wireMap_discriminator (hs : frame.subject ≠ "") :
    nonEmptyString (wireMap h hshape frame) shape.discriminator.name = some frame.subject :=
  nonEmptyString_eq_some_iff.2
    ⟨mem_wireMap_body h hshape frame (mem_bodyFields.2 (Or.inr (Or.inl rfl))), hs⟩

theorem wireMap_payload :
    SameValue shape.payload frame.payload (optionalValue (wireMap h hshape frame) shape.payload) := by
  have hvalid := h.frame_valid shape hshape
  refine optionalValue_same (fun p hp => ?_) (fun p hp hname => ?_)
  · exact mem_wireMap_body h hshape frame (mem_bodyFields.2 (Or.inr (Or.inr (Or.inl hp))))
  · have hpf : shape.payload ∈ shape.wireFields := by simp [FrameSpec.mem_wireFields]
    have hbody := mem_body_of_mem_wireMap h hshape frame hp hpf hname
    rcases mem_bodyFields.1 hbody with ⟨field, hf, rfl⟩ | rfl | hp | hp
    · exact absurd hname (hvalid.id_ne_payload hf)
    · exact absurd hname hvalid.discriminator_ne_payload
    · exact hp
    · obtain ⟨field, hf, hfname, -⟩ := mem_errorFields.1 hp
      exact absurd (hfname.symm.trans hname) (hvalid.error_ne_payload hf)

theorem wireMap_requiredFrameId (hk : shape.kind ≠ .response) (hid : frame.identity ≠ "")
    (kind : String) : requiredFrameId (wireMap h hshape frame) shape kind = .ok frame.identity := by
  obtain ⟨field, hf⟩ := (h.frame_valid shape hshape).id_some hk
  have hstr : nonEmptyString (wireMap h hshape frame) field.name = some frame.identity :=
    nonEmptyString_eq_some_iff.2
      ⟨mem_wireMap_body h hshape frame (mem_bodyFields.2 (Or.inl ⟨field, hf, rfl⟩)), hid⟩
  simp [requiredFrameId, hf, hstr]

end WireMap

/-- The object of a proper error decodes to the same error. -/
theorem decodeError_encodedError (h : spec.WellFormed) {e : WireError} (he : e.Encodable)
    (hd : (Json.object (spec.encodedError e)).wellFormed = true) :
    ∃ d, spec.decodeError ⟨.object (spec.encodedError e), hd⟩ = .ok d ∧
      spec.SameError (some e) (some d) := by
  set m : JsonMap := ⟨spec.encodedError e, hd⟩ with hm
  have hcode : m.get spec.error.code.name =
      some ⟨.number (.int e.code.toInt), Json.wellFormed_i64 _⟩ :=
    JsonMap.get_eq_some_iff_mem.2 (by simp [hm, encodedError])
  have hmessage : nonEmptyString m spec.error.message.name = some e.message :=
    nonEmptyString_eq_some_iff.2 ⟨by simp [hm, encodedError], he.2⟩
  have hdata : SameValue spec.error.data e.data (optionalValue m spec.error.data) := by
    refine optionalValue_same (fun p hp => ?_) (fun p hp hname => ?_)
    · exact List.mem_append_right _ hp
    · have hnd := h.error_nodup
      simp only [List.nodup_cons, List.mem_cons, List.not_mem_nil, or_false, not_or] at hnd
      rcases List.mem_append.mp hp with hp | hp
      · rcases List.mem_cons.mp hp with rfl | hp
        · exact absurd hname hnd.1.2
        · obtain rfl := List.mem_singleton.mp hp
          exact absurd hname hnd.2.1
      · exact hp
  refine ⟨⟨e.code, e.message, optionalValue m spec.error.data⟩, ?_, rfl, rfl, hdata⟩
  simp only [decodeError, Value.asObject]
  rw [← hm, hcode, Option.bind_some, Value.asI64_int]
  simp only [hmessage, if_neg he.1]

/-- The error of the wire object of a response. -/
theorem decodeResponseError_wireMap (h : spec.WellFormed) {shape : FrameSpec}
    (hshape : shape ∈ spec.frames) (hk : shape.kind = .response) {frame : ControlFrame}
    (he : ∀ e, frame.error = some e → e.Encodable) :
    ∃ error, spec.decodeResponseError (wireMap h hshape frame) shape = .ok error ∧
      spec.SameError frame.error error := by
  have hvalid := h.frame_valid shape hshape
  obtain ⟨field, hf⟩ := hvalid.error_some hk
  have hmem : ∀ p ∈ spec.errorFields shape frame.error, p ∈ (wireMap h hshape frame).val :=
    fun p hp => mem_wireMap_body h hshape frame (mem_bodyFields.2 (Or.inr (Or.inr (Or.inr hp))))
  unfold decodeResponseError
  rw [hf, Option.bind_some]
  cases herr : frame.error with
  | some e =>
    obtain ⟨d, hd, hsame⟩ := decodeError_encodedError h (he e herr) (encodedError_wellFormed h e)
    have hget : (wireMap h hshape frame).get field.name =
        some ⟨.object (spec.encodedError e), encodedError_wellFormed h e⟩ :=
      JsonMap.get_eq_some_iff_mem.2 (hmem _ (mem_errorFields.2 ⟨field, hf, rfl, Or.inl ⟨e, herr, rfl⟩⟩))
    refine ⟨some d, ?_, hsame⟩
    rw [hget]
    simp [Value.isNull, hd]
  | none =>
    refine ⟨none, ?_, trivial⟩
    cases homit : field.omitWhenNone with
    | false =>
      have hget : (wireMap h hshape frame).get field.name = some Value.null :=
        JsonMap.get_eq_some_iff_mem.2
          (hmem _ (mem_errorFields.2 ⟨field, hf, rfl, Or.inr ⟨herr, homit, rfl⟩⟩))
      rw [hget]
      simp
    | true =>
      have hget : (wireMap h hshape frame).get field.name = none := by
        refine JsonMap.get_eq_none_of_forall_ne fun p hp hname => ?_
        have hff : field ∈ shape.wireFields := by simp [FrameSpec.mem_wireFields, hf]
        have hbody := mem_body_of_mem_wireMap h hshape frame hp hff hname
        rcases mem_bodyFields.1 hbody with ⟨i, hi, -⟩ | rfl | hp | hp
        · rw [hvalid.id_none hk] at hi
          cases hi
        · exact hvalid.error_ne_discriminator hf hname.symm
        · exact hvalid.error_ne_payload hf (hname.symm.trans (mem_serializeOptional.1 hp).1)
        · rw [herr] at hp
          simp [errorFields, hf, serializeOptional, homit] at hp
      rw [hget]

/-- The shape of the frame's kind decodes the wire object to the same frame. -/
theorem decodeShape_wireMap (h : spec.WellFormed) {shape : FrameSpec} (hshape : shape ∈ spec.frames)
    {frame : ControlFrame} (hkind : shape.kind = frame.kind) (hen : frame.Encodable) :
    ∃ decoded, spec.decodeShape (wireMap h hshape frame) shape frame.subject = .ok decoded ∧
      spec.SameFrame frame decoded := by
  have hpayload := wireMap_payload h hshape frame
  have hone : ∀ s ∈ spec.frames, s.kind = frame.kind → s = shape := fun s hs hsk =>
    List.inj_on_of_nodup_map h.kinds_nodup hs hshape (hsk.trans hkind.symm)
  have hsame : ∀ s ∈ spec.frames, s.kind = frame.kind → SameValue s.payload frame.payload
      (optionalValue (wireMap h hshape frame) shape.payload) := by
    intro s hs hsk
    rw [hone s hs hsk]
    exact hpayload
  cases hf : frame with
  | request id method params =>
    have hk : shape.kind = .request := by rw [hkind, hf]; rfl
    have hid := wireMap_requiredFrameId h hshape frame (by rw [hk]; simp)
      (by rw [hf] at hen ⊢; exact hen.1) "request"
    rw [← hf]
    refine ⟨.request frame.identity frame.subject
      (optionalValue (wireMap h hshape frame) shape.payload), ?_, ?_, rfl, rfl, hsame, ?_⟩
    · simp [decodeShape, hk, hid, bind, Except.bind, pure, Except.pure]
    · rw [hf]; rfl
    · rw [hf]; trivial
  | response correlationId result error =>
    have hk : shape.kind = .response := by rw [hkind, hf]; rfl
    have herr : ∀ e, frame.error = some e → e.Encodable := by
      rw [hf] at hen ⊢
      exact hen.2
    obtain ⟨d, hd, hds⟩ := decodeResponseError_wireMap h hshape hk herr
    rw [← hf]
    refine ⟨.response frame.subject (optionalValue (wireMap h hshape frame) shape.payload) d, ?_, ?_,
      ?_, rfl, hsame, hds⟩
    · simp [decodeShape, hk, hd, bind, Except.bind, pure, Except.pure]
    · rw [hf]; rfl
    · rw [hf]; rfl
  | event id name data =>
    have hk : shape.kind = .event := by rw [hkind, hf]; rfl
    have hid := wireMap_requiredFrameId h hshape frame (by rw [hk]; simp)
      (by rw [hf] at hen ⊢; exact hen.1) "event"
    rw [← hf]
    refine ⟨.event frame.identity frame.subject
      (optionalValue (wireMap h hshape frame) shape.payload), ?_, ?_, rfl, rfl, hsame, ?_⟩
    · simp [decodeShape, hk, hid, bind, Except.bind, pure, Except.pure]
    · rw [hf]; rfl
    · rw [hf]; trivial

/-! ## The round trip -/

theorem validateStructure_eq_ok (h : spec.structureIssues = []) : spec.validateStructure = .ok () := by
  rw [validateStructure, if_pos h]

/-- `encode` writes the wire object of the encodable frames. -/
theorem encode_eq_ok_iff (lib : JsonText) (hs : spec.structureIssues = []) {shape : FrameSpec}
    {frame : ControlFrame} (hshape : shape ∈ spec.frames) (hkind : shape.kind = frame.kind)
    (hframe : spec.frame frame.kind = .ok shape) {text : lib.Text} :
    spec.encode lib frame = .ok text ↔
      frame.Encodable ∧ text = lib.serialize (.object (spec.wireObject shape frame)) := by
  have hiff : spec.encodeUnvalidated frame = .ok (spec.wireObject shape frame) ↔
      frame.Encodable ∧ spec.wireObject shape frame = spec.wireObject shape frame :=
    encodeUnvalidated_eq_ok_iff (wellFormed_of_structureIssues hs) hshape hkind hframe
  rw [encode, validateStructure_eq_ok hs]
  cases hen : spec.encodeUnvalidated frame with
  | error x =>
    have hne : ¬ frame.Encodable := fun he => by simp [hiff.mpr ⟨he, rfl⟩] at hen
    simp [hne, bind, Except.bind]
  | ok fields =>
    obtain ⟨he, rfl⟩ := (encodeUnvalidated_eq_ok_iff (wellFormed_of_structureIssues hs) hshape hkind
      hframe).mp hen
    simp [he, bind, Except.bind, pure, Except.pure, eq_comm]

/-- `decode` of the text of a wire object is the loop over the frame shapes. -/
theorem decode_serialize_wireObject (lib : JsonText) (hs : spec.structureIssues = [])
    {shape : FrameSpec} (hshape : shape ∈ spec.frames) (frame : ControlFrame) :
    spec.decode lib (lib.serialize (.object (spec.wireObject shape frame))) =
      spec.decodeFrames (wireMap (wellFormed_of_structureIssues hs) hshape frame) spec.frames := by
  set m := wireMap (wellFormed_of_structureIssues hs) hshape frame with hm
  have hparse := lib.parse_serialize ⟨.object (spec.wireObject shape frame), m.property⟩
  have hconstants : decodeConstants m spec.constants = .ok () :=
    decodeConstants_eq_ok fun c hc => List.mem_append_left _ (List.mem_map.mpr ⟨c, hc, rfl⟩)
  rw [decode, validateStructure_eq_ok hs]
  simp only [bind, Except.bind, hparse, Value.asObject, decodeUnvalidated]
  rw [show (⟨spec.wireObject shape frame, m.property⟩ : JsonMap) = m from rfl, hconstants]

/-- A shape before that of the frame does not have its discriminator in the wire object, if the id and the
payload of the frame do not stand in for it. -/
theorem nonEmptyString_eq_none_of_before (h : spec.WellFormed) {shape : FrameSpec}
    (hshape : shape ∈ spec.frames) (frame : ControlFrame) {pre post : List FrameSpec}
    (hsplit : spec.frames = pre ++ shape :: post) {g : FrameSpec} (hg : g ∈ pre)
    (hid : ∀ id, shape.id = some id → g.discriminator.name ≠ id.name)
    (hpayload : ∀ s, (g.discriminator.name, .string s) ∉
      serializeOptional shape.payload frame.payload) :
    nonEmptyString (wireMap h hshape frame) g.discriminator.name = none := by
  have hgf : g ∈ spec.frames := by rw [hsplit]; simp [hg]
  have hdisc : g.discriminator.name ≠ shape.discriminator.name := by
    have hnd := h.discriminators_nodup
    rw [hsplit, List.map_append, List.nodup_append] at hnd
    exact hnd.2.2 _ (List.mem_map.mpr ⟨g, hg, rfl⟩) _ (by simp)
  by_contra hne
  obtain ⟨s, hs⟩ := Option.ne_none_iff_exists'.mp hne
  obtain ⟨hmem, -⟩ := nonEmptyString_eq_some_iff.1 hs
  rcases List.mem_append.mp hmem with hc | hb
  · have hgd : g.discriminator ∈ g.wireFields := by simp [FrameSpec.mem_wireFields]
    exact (h.frame_valid g hgf).names_fresh _ hgd (mem_constantFields hc)
  · rcases mem_bodyFields.1 hb with ⟨i, hi, he⟩ | he | hp | hp
    · exact hid i hi (congrArg Prod.fst he)
    · exact hdisc (congrArg Prod.fst he)
    · exact hpayload s hp
    · -- the error field never holds a string
      obtain ⟨field, -, -, ⟨e, -, he⟩ | ⟨-, -, he⟩⟩ := mem_errorFields.1 hp
      · cases he
      · cases he

/-- In an unambiguous declaration no shape before that of the frame has its discriminator in the wire
object. -/
theorem nonEmptyString_earlier (h : spec.WellFormed) (hu : spec.Unambiguous) {shape : FrameSpec}
    (hshape : shape ∈ spec.frames) (frame : ControlFrame) {pre post : List FrameSpec}
    (hsplit : spec.frames = pre ++ shape :: post) {g : FrameSpec} (hg : g ∈ pre) :
    nonEmptyString (wireMap h hshape frame) g.discriminator.name = none := by
  have hpair : g.discriminator.name ≠ shape.payload.name ∧
      ∀ id, shape.id = some id → g.discriminator.name ≠ id.name := by
    rw [Unambiguous, hsplit] at hu
    exact (List.pairwise_append.mp hu).2.2 g hg shape (by simp)
  refine nonEmptyString_eq_none_of_before h hshape frame hsplit hg hpair.2 fun s hs => ?_
  exact hpair.1 (mem_serializeOptional.1 hs).1

/-- A response with an error is decoded by every well-formed declaration: it has no id, and its payload is
absent or `null`. -/
theorem decodeUnvalidated_errorResponse (h : spec.WellFormed) {shape : FrameSpec}
    (hshape : shape ∈ spec.frames) (hkind : shape.kind = .response) {correlationId : String}
    {error : WireError} (hid : correlationId ≠ "") (he : error.Encodable) :
    ∃ decoded, spec.decodeUnvalidated (wireMap h hshape (.response correlationId none (some error))) =
        .ok decoded ∧
      spec.SameFrame (.response correlationId none (some error)) decoded := by
  have hen : (ControlFrame.response correlationId none (some error)).Encodable :=
    ⟨hid, fun e hsome => Option.some.inj hsome ▸ he⟩
  have hframe : shape.kind = (ControlFrame.response correlationId none (some error)).kind := hkind
  obtain ⟨decoded, hdec, hsame⟩ := decodeShape_wireMap h hshape hframe hen
  obtain ⟨pre, post, hsplit⟩ := List.append_of_mem hshape
  refine ⟨decoded, ?_, hsame⟩
  have hconstants : decodeConstants (wireMap h hshape (.response correlationId none (some error)))
      spec.constants = .ok () :=
    decodeConstants_eq_ok fun c hc => List.mem_append_left _ (List.mem_map.mpr ⟨c, hc, rfl⟩)
  have hnone := (h.frame_valid shape hshape).id_none hkind
  rw [decodeUnvalidated, hconstants, ← hdec, hsplit]
  refine decodeFrames_eq_decodeShape (fun g hg => ?_) (wireMap_discriminator h hshape _ hid)
  refine nonEmptyString_eq_none_of_before h hshape _ hsplit hg (by simp [hnone]) fun s hs => ?_
  obtain ⟨-, ⟨v, hv, -⟩ | ⟨-, -, hnull⟩⟩ := mem_serializeOptional.1 hs
  · cases hv
  · cases hnull

theorem ControlFrame.Encodable.subject_ne {frame : ControlFrame} (h : frame.Encodable) :
    frame.subject ≠ "" := by
  cases frame with
  | request => exact h.2
  | response => exact h.1
  | event => exact h.2

/-- The frames of an unambiguous declaration survive the round trip. -/
theorem roundTrips_of_unambiguous (lib : JsonText) (hs : spec.structureIssues = [])
    (hu : spec.Unambiguous) : spec.RoundTrips lib := by
  intro frame text hen
  have h := wellFormed_of_structureIssues hs
  obtain ⟨shape, hshape, hkind, hframe⟩ := h.exists_frame frame.kind
  obtain ⟨he, rfl⟩ := (encode_eq_ok_iff lib hs hshape hkind hframe).mp hen
  obtain ⟨decoded, hdec, hsame⟩ := decodeShape_wireMap h hshape hkind he
  refine ⟨decoded, ?_, hsame⟩
  obtain ⟨pre, post, hsplit⟩ := List.append_of_mem hshape
  rw [decode_serialize_wireObject lib hs hshape frame, ← hdec]
  conv_lhs => rw [hsplit]
  exact decodeFrames_eq_decodeShape (fun g hg => nonEmptyString_earlier h hu hshape frame hsplit hg)
    (wireMap_discriminator h hshape frame (ControlFrame.Encodable.subject_ne he))

/-- A frame of a kind with the same text in every field. -/
def probe (text : String) : FrameKind → ControlFrame
  | .request => .request text text (some (Value.string text))
  | .response => .response text (some (Value.string text)) none
  | .event => .event text text (some (Value.string text))

theorem probe_kind (text : String) (kind : FrameKind) : (probe text kind).kind = kind := by
  cases kind <;> rfl

theorem probe_encodable {text : String} (h : text ≠ "") (kind : FrameKind) :
    (probe text kind).Encodable := by
  cases kind <;> simp [probe, ControlFrame.Encodable, h]

/-- The probe of a kind holds its text in the id and payload fields. -/
theorem probe_field (h : spec.WellFormed) {text : String} (ht : text ≠ "") {shape : FrameSpec}
    (hshape : shape ∈ spec.frames) {name : String}
    (hname : name = shape.payload.name ∨ ∃ id, shape.id = some id ∧ name = id.name) :
    nonEmptyString (wireMap h hshape (probe text shape.kind)) name = some text := by
  refine nonEmptyString_eq_some_iff.2 ⟨mem_wireMap_body h hshape _ (mem_bodyFields.2 ?_), ht⟩
  rcases hname with rfl | ⟨id, hid, rfl⟩
  · refine Or.inr (Or.inr (Or.inl (mem_serializeOptional.2 ⟨rfl, Or.inl ⟨Value.string text, ?_, rfl⟩⟩)))
    cases shape.kind <;> rfl
  · have hk : shape.kind ≠ .response := by
      intro hk
      rw [(h.frame_valid shape hshape).id_none hk] at hid
      cases hid
    refine Or.inl ⟨id, hid, ?_⟩
    cases hkind : shape.kind with
    | request => rfl
    | response => exact absurd hkind hk
    | event => rfl

/-- A clash with an earlier discriminator breaks the round trip of the probe of the later kind: the
decoder selects a shape before that of the probe, and the kinds are distinct. -/
theorem unambiguous_of_roundTrips (lib : JsonText) (hs : spec.structureIssues = [])
    (hr : spec.RoundTrips lib) : spec.Unambiguous := by
  have h := wellFormed_of_structureIssues hs
  refine List.pairwise_iff_getElem.mpr fun i j hi hj hij => ?_
  by_contra hclash
  set g := spec.frames[i] with hg
  set shape := spec.frames[j] with hshapeDef
  have hshape : shape ∈ spec.frames := List.getElem_mem hj
  have hname : g.discriminator.name = shape.payload.name ∨
      ∃ id, shape.id = some id ∧ g.discriminator.name = id.name := by
    by_contra hno
    push Not at hno
    exact hclash hno
  have hsplit : spec.frames = spec.frames.take i ++ g :: spec.frames.drop (i + 1) := by
    rw [hg, ← List.drop_eq_getElem_cons hi, List.take_append_drop]
  have hlater : shape ∈ spec.frames.drop (i + 1) := by
    rw [List.mem_iff_getElem]
    exact ⟨j - (i + 1), by simp; omega, by
      rw [List.getElem_drop, hshapeDef]
      congr 1
      omega⟩
  obtain ⟨shape', hshape', hkind', hframe'⟩ := h.exists_frame shape.kind
  obtain rfl : shape' = shape := List.inj_on_of_nodup_map h.kinds_nodup hshape' hshape hkind'
  have ha : ("a" : String) ≠ "" := by decide
  have hpk := probe_kind "a" shape.kind
  obtain ⟨decoded, hdec, hsame⟩ := hr (probe "a" shape.kind) _
    ((encode_eq_ok_iff lib hs hshape hpk.symm (by rw [hpk]; exact hframe')).mpr
      ⟨probe_encodable ha _, rfl⟩)
  rw [decode_serialize_wireObject lib hs hshape] at hdec
  have hfound := probe_field h ha hshape hname
  have hmem : decoded.kind ∈ (spec.frames.take i ++ [g]).map FrameSpec.kind := by
    rw [hsplit] at hdec
    exact decodeFrames_kind_mem (by rw [hfound]; simp) hdec
  have hdk : decoded.kind = shape.kind := by rw [← hsame.1, hpk]
  have hnd := h.kinds_nodup
  rw [hsplit, List.append_cons, List.map_append, List.nodup_append] at hnd
  exact hnd.2.2 _ hmem _ (List.mem_map.mpr ⟨shape, hlater, rfl⟩) hdk

/-- For every declaration without structural issues, all frames survive the round trip exactly when no
discriminator clashes with the id or payload field of a later frame. -/
theorem roundTrips_iff_unambiguous (lib : JsonText) (spec : EnvelopeSpec)
    (h : spec.structureIssues = []) : spec.RoundTrips lib ↔ spec.Unambiguous :=
  ⟨unambiguous_of_roundTrips lib h, roundTrips_of_unambiguous lib h⟩

theorem synthetic_roundTrips :
    synthetic.structureIssues = [] ∧ synthetic.RoundTrips JsonText.trees :=
  ⟨by decide, (roundTrips_iff_unambiguous JsonText.trees synthetic (by decide)).mpr
    (by simp [Unambiguous, synthetic, FieldSpec.required, FieldSpec.optional])⟩

/-- The same declaration with the event id carried by the field `command`, which is the discriminator
of the requests. -/
def clashing : EnvelopeSpec :=
  { synthetic with
    frames := [
      { kind := .request, discriminator := .required "command", id := some (.required "request_id"),
        payload := .required "arguments", error := none },
      { kind := .event, discriminator := .required "notification", id := some (.required "command"),
        payload := .optional "body", error := none },
      { kind := .response, discriminator := .required "reply_to", id := none,
        payload := .optional "value", error := some (.optional "failure") }] }

/-- The validator accepts `clashing`, whose event `e-1` is encoded and then rejected as a request
without an id. -/
theorem clashing_not_roundTrips :
    clashing.structureIssues = [] ∧ ¬ clashing.RoundTrips JsonText.trees := by
  refine ⟨by decide, fun hr => ?_⟩
  obtain ⟨decoded, hdec, -⟩ := hr (.event "e-1" "ready" none)
    (.object [("protocol", .string "two"), ("command", .string "e-1"),
      ("notification", .string "ready")]) rfl
  have hreject : clashing.decode JsonText.trees (.object [("protocol", .string "two"),
      ("command", .string "e-1"), ("notification", .string "ready")]) =
      .error (.invalidFrame "request id is required") := rfl
  rw [hreject] at hdec
  cases hdec

end EnvelopeSpec

end Rtvbp.Envelope
