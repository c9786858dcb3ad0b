import Rtvbp.Envelope.Proofs.AgreementProofs
import Rtvbp.Media.Signaling

/-!
# Proofs: the WebRTC offer and answer

Each language writes a description in the same wire object, and reads it back from that object whichever language has
written it. What a sender lets pass is then what its receiver accepts, and the exchange is one of two messages.
-/

namespace Rtvbp.Signaling

open Rtvbp.Lib
open Rtvbp.Envelope (EnvelopeSpec)
open Rtvbp.Signaling.Rust (descriptionValue)

variable {text : WireText} {spec : EnvelopeSpec} {language : Language} {id sdp : String} {encoded : text.Text}

/-! ## The frames -/

/-- The frame of an offer. -/
def offerFrame (id sdp : String) : Envelope.ControlFrame := .request id offerMethod (some (descriptionValue sdp))

/-- The frame of an answer. -/
def answerFrame (id sdp : String) : Envelope.ControlFrame := .response id (some (descriptionValue sdp)) none

/-- What the languages share of a declaration: all of its decoders read what its encoders write. -/
structure Sendable (spec : EnvelopeSpec) : Prop where
  structure_ok : spec.structureIssues = []
  unambiguous : spec.Unambiguous
  constants : ∀ c ∈ spec.constants, c.value ≠ ""

theorem Sendable.wellFormed (h : Sendable spec) : spec.WellFormed :=
  EnvelopeSpec.wellFormed_of_structureIssues h.structure_ok

theorem offerFrame_encodable (sdp : String) (hid : id ≠ "") : (offerFrame id sdp).Encodable := ⟨hid, by decide⟩

theorem answerFrame_encodable (sdp : String) (hid : id ≠ "") : (answerFrame id sdp).Encodable := ⟨hid, nofun⟩

theorem safeNumbers_description : (descriptionValue sdp).val.safeNumbers = true := by
  simp [descriptionValue, Json.safeNumbers, Json.everywhere, Json.everywhereFields, Json.numberSafe]

/-- A frame whose payload is a description. -/
structure Describes (frame : Envelope.ControlFrame) (sdp : String) : Prop where
  encodable : frame.Encodable
  payload : frame.payload = some (descriptionValue sdp)
  error : frame.error = none

theorem describes_offer (sdp : String) (hid : id ≠ "") : Describes (offerFrame id sdp) sdp := ⟨offerFrame_encodable sdp hid, rfl, rfl⟩

theorem describes_answer (sdp : String) (hid : id ≠ "") : Describes (answerFrame id sdp) sdp := ⟨answerFrame_encodable sdp hid, rfl, rfl⟩

variable {frame : Envelope.ControlFrame} {shape : Envelope.FrameSpec}

theorem Describes.safeNumbers (h : Describes frame sdp) : frame.safeNumbers := by
  refine ⟨fun v hv => ?_, fun e he => ?_⟩
  · obtain rfl := Option.some.inj (h.payload.symm.trans hv)
    exact safeNumbers_description
  · rw [h.error] at he
    cases he

/-- The payload of a description comes back as it is, since it is not `null`. -/
theorem Describes.eq_of_same {decoded : Envelope.ControlFrame} (h : Describes frame sdp)
    (hshape : shape ∈ spec.frames) (hkind : shape.kind = frame.kind) (hsame : spec.SameFrame frame decoded) :
    decoded = frame := by
  obtain ⟨hkind', hidentity, hsubject, hpayload, herror⟩ := hsame
  have hvalue : decoded.payload = some (descriptionValue sdp) := by
    obtain heq | ⟨-, heq⟩ := hpayload shape hshape hkind
    · exact heq.symm.trans h.payload
    · rw [h.payload] at heq
      cases hdecoded : decoded.payload with
      | none =>
        rw [hdecoded] at heq
        cases congrArg Subtype.val heq
      | some v =>
        rw [hdecoded] at heq
        exact congrArg some heq.symm
  have hnone : decoded.error = none := by
    rw [h.error] at herror
    cases hdecoded : decoded.error with
    | none => rfl
    | some e =>
      rw [hdecoded] at herror
      exact herror.elim
  have hpayload' := h.payload
  have herror' := h.error
  cases frame <;> cases decoded <;>
    simp_all [Envelope.ControlFrame.kind, Envelope.ControlFrame.identity, Envelope.ControlFrame.subject,
      Envelope.ControlFrame.payload, Envelope.ControlFrame.error]

/-- The reference decoder reads a description from its wire object. -/
theorem decodeUnvalidated_wireMap (hs : Sendable spec) (hshape : shape ∈ spec.frames) (hkind : shape.kind = frame.kind)
    (h : Describes frame sdp) :
    spec.decodeUnvalidated (EnvelopeSpec.wireMap hs.wellFormed hshape frame) = .ok frame := by
  have hwf := hs.wellFormed
  obtain ⟨decoded, hdecoded, hsame⟩ := EnvelopeSpec.decodeShape_wireMap hwf hshape hkind h.encodable
  obtain ⟨before, after, hsplit⟩ := List.append_of_mem hshape
  have hconstants : EnvelopeSpec.decodeConstants (EnvelopeSpec.wireMap hwf hshape frame) spec.constants = .ok () :=
    EnvelopeSpec.decodeConstants_eq_ok fun c hc => List.mem_append_left _ (List.mem_map.mpr ⟨c, hc, rfl⟩)
  have hsubject := EnvelopeSpec.wireMap_discriminator hwf hshape frame
    (EnvelopeSpec.ControlFrame.Encodable.subject_ne h.encodable)
  have hframes : spec.decodeFrames (EnvelopeSpec.wireMap hwf hshape frame) spec.frames = .ok decoded := by
    rw [← hdecoded]
    conv_lhs => rw [hsplit]
    exact EnvelopeSpec.decodeFrames_eq_decodeShape
      (fun g hg => EnvelopeSpec.nonEmptyString_earlier hwf hs.unambiguous hshape frame hsplit hg) hsubject
  rw [EnvelopeSpec.decodeUnvalidated, hconstants, ← h.eq_of_same hshape hkind hsame, ← hframes, h.eq_of_same hshape hkind hsame]
  rfl

/-! ## The texts -/

/-- A text of the frame, written by some language and not too long. -/
def Spells (text : WireText) (spec : EnvelopeSpec) (frame : Envelope.ControlFrame) (encoded : text.Text) : Prop :=
  ∃ (language : Language) (shape : Envelope.FrameSpec), shape ∈ spec.frames ∧ shape.kind = frame.kind ∧
    encoded = text.serialize language (.object (spec.wireObject shape frame)) ∧ text.size encoded ≤ maxSignalFrameLen

/-- What a decoder finds in the text of a description. -/
theorem Spells.exists_object (hs : Sendable spec) (h : Describes frame sdp) (hspells : Spells text spec frame encoded) :
    text.size encoded ≠ 0 ∧ text.size encoded ≤ maxSignalFrameLen ∧ ∃ object : JsonMap,
      text.parse encoded = some ⟨.object object.val, object.property⟩ ∧
      (Json.object object.val).safeNumbers = true ∧ spec.decodeUnvalidated object = .ok frame := by
  obtain ⟨language, shape, hshape, hkind, rfl, hle⟩ := hspells
  have hobject := (EnvelopeSpec.wireMap hs.wellFormed hshape frame).property
  have hpos := text.size_pos language ⟨_, hobject⟩
  exact ⟨Nat.ne_of_gt hpos, hle, EnvelopeSpec.wireMap hs.wellFormed hshape frame, text.parse_serialize language ⟨_, hobject⟩,
    TypeScript.wireObject_safeNumbers h.safeNumbers, decodeUnvalidated_wireMap hs hshape hkind h⟩

/-- What holds of a function that writes the frames of descriptions. -/
structure Writes (text : WireText) (spec : EnvelopeSpec) (encode : String → String → Except SignalError text.Text)
    (frame : String → String → Envelope.ControlFrame) : Prop where
  ok : ∀ id sdp encoded, id ≠ "" → encode id sdp = .ok encoded →
    sdpInBounds sdp = true ∧ Spells text spec (frame id sdp) encoded
  error : ∀ id sdp error, id ≠ "" → encode id sdp = .error error → error.Local

/-- An encoder that writes the wire object, with the two checks of the size. -/
theorem writes_of_eq {encode : String → String → Except SignalError text.Text}
    {frame : String → String → Envelope.ControlFrame} (hs : Sendable spec) (language : Language)
    (hencode : ∀ id sdp, id ≠ "" → ∀ shape ∈ spec.frames, shape.kind = (frame id sdp).kind →
      spec.frame (frame id sdp).kind = .ok shape → encode id sdp =
        if sdpInBounds sdp then
          if maxSignalFrameLen < text.size (text.serialize language (.object (spec.wireObject shape (frame id sdp)))) then
            .error .encodedSize
          else .ok (text.serialize language (.object (spec.wireObject shape (frame id sdp))))
        else .error .localSdpSize) : Writes text spec encode frame := by
  constructor
  · intro id sdp encoded hid hok
    obtain ⟨shape, hshape, hkind, hframe⟩ := hs.wellFormed.exists_frame (frame id sdp).kind
    rw [hencode id sdp hid shape hshape hkind hframe] at hok
    split_ifs at hok with hsdp hsize
    obtain rfl := Except.ok.inj hok
    exact ⟨hsdp, language, shape, hshape, hkind, rfl, not_lt.mp hsize⟩
  · intro id sdp error hid herror
    obtain ⟨shape, hshape, hkind, hframe⟩ := hs.wellFormed.exists_frame (frame id sdp).kind
    rw [hencode id sdp hid shape hshape hkind hframe] at herror
    split_ifs at herror
    · obtain rfl := Except.error.inj herror
      trivial
    · obtain rfl := Except.error.inj herror
      trivial

/-! ## Go -/

namespace Go

theorem encodeSignal_eq (text : WireText) (hs : Sendable spec) (hshape : shape ∈ spec.frames) (hkind : shape.kind = frame.kind)
    (hframe : spec.frame frame.kind = .ok shape) (h : frame.Encodable) :
    encodeSignal text spec (.ofFrame frame) =
      if maxSignalFrameLen < text.size (text.serialize .go (.object (spec.wireObject shape frame))) then .error .encodedSize
      else .ok (text.serialize .go (.object (spec.wireObject shape frame))) := by
  rw [encodeSignal, (Envelope.Go.encode_eq_ok_iff hs.wellFormed hshape hkind hframe).mpr ⟨h, rfl⟩]

theorem decodeSignal_eq (hs : Sendable spec) (h : Describes frame sdp) (hspells : Spells text spec frame encoded) :
    decodeSignal text spec encoded = .ok (.ofFrame frame) := by
  obtain ⟨hne, hle, object, hparse, -, hdecoded⟩ := hspells.exists_object hs h
  rw [decodeSignal, if_neg (by omega), hparse]
  simp only [Option.bind_some, Value.asObject]
  rw [(Envelope.Go.decode_agree hs.wellFormed hs.constants object).eq_ok hdecoded]

theorem decodeDescription_eq (hsdp : sdpInBounds sdp = true) :
    decodeDescription (.ofValue (some (descriptionValue sdp))) = .ok sdp := by
  have hmatches : matchesSdp "sdp" = true := by decide
  simp [decodeDescription, unmarshalDescription, Envelope.Go.RawMessage.ofValue, descriptionValue, hmatches, hsdp]

theorem offerer_writes (hs : Sendable spec) : Writes text spec (offerer text spec).encodeOffer offerFrame := by
  refine writes_of_eq hs .go fun id sdp hid shape hshape hkind hframe => ?_
  have hencode := encodeSignal_eq text hs hshape hkind hframe (offerFrame_encodable sdp hid)
  by_cases hsdp : sdpInBounds sdp = true
  · rw [if_pos hsdp, ← hencode]
    simp only [offerer, encodeDescription, hsdp, if_true]
    rfl
  · rw [if_neg hsdp]
    simp only [offerer, encodeDescription, hsdp]
    rfl

theorem answerer_writes (hs : Sendable spec) : Writes text spec (answerer text spec).encodeAnswer answerFrame := by
  refine writes_of_eq hs .go fun id sdp hid shape hshape hkind hframe => ?_
  have hencode := encodeSignal_eq text hs hshape hkind hframe (answerFrame_encodable sdp hid)
  by_cases hsdp : sdpInBounds sdp = true
  · rw [if_pos hsdp, ← hencode]
    simp only [answerer, encodeDescription, hsdp, if_true]
    rfl
  · rw [if_neg hsdp]
    simp only [answerer, encodeDescription, hsdp]
    rfl

theorem decodeOffer_eq (hs : Sendable spec) (hid : id ≠ "") (hsdp : sdpInBounds sdp = true)
    (hspells : Spells text spec (offerFrame id sdp) encoded) :
    (answerer text spec).decodeOffer encoded = .ok (id, sdp) := by
  have hdecode := decodeSignal_eq hs (describes_offer sdp hid) hspells
  have hdescription := decodeDescription_eq hsdp
  unfold answerer
  simp [hdecode, hdescription, hid, offerFrame, Envelope.Go.ControlFrame.ofFrame, bind, Except.bind, pure, Except.pure]

theorem decodeAnswer_eq (hs : Sendable spec) (hid : id ≠ "") (hsdp : sdpInBounds sdp = true)
    (hspells : Spells text spec (answerFrame id sdp) encoded) :
    (offerer text spec).decodeAnswer id encoded = .ok sdp := by
  have hdecode := decodeSignal_eq hs (describes_answer sdp hid) hspells
  have hdescription := decodeDescription_eq hsdp
  unfold offerer
  simp [hdecode, hdescription, answerFrame, Envelope.Go.ControlFrame.ofFrame, bind, Except.bind]

end Go

/-! ## Rust -/

namespace Rust

theorem encodeSignal_eq (text : WireText) (hs : Sendable spec) (hshape : shape ∈ spec.frames) (hkind : shape.kind = frame.kind)
    (hframe : spec.frame frame.kind = .ok shape) (h : frame.Encodable) :
    encodeSignal text spec (.ofFrame frame) =
      if maxSignalFrameLen < text.size (text.serialize .rust (.object (spec.wireObject shape frame))) then
        .error .encodedSize
      else .ok (text.serialize .rust (.object (spec.wireObject shape frame))) := by
  have hpos : 0 < text.size (text.serialize .rust (.object (spec.wireObject shape frame))) :=
    text.size_pos .rust ⟨_, EnvelopeSpec.wireObject_wellFormed hs.wellFormed hshape frame⟩
  rw [encodeSignal, (Envelope.Rust.encode_eq_ok_iff hs.wellFormed hshape hkind hframe).mpr ⟨h, rfl⟩]
  simp only [validSignal, Nat.ne_of_gt hpos, ne_eq, not_false_eq_true, decide_true, Bool.true_and, decide_eq_true_eq]
  by_cases hsize : maxSignalFrameLen < text.size (text.serialize .rust (.object (spec.wireObject shape frame)))
  · rw [if_pos hsize, if_neg (not_le.mpr hsize)]
  · rw [if_neg hsize, if_pos (not_lt.mp hsize)]

theorem decodeSignal_eq (hs : Sendable spec) (h : Describes frame sdp) (hspells : Spells text spec frame encoded) :
    decodeSignal text spec encoded = .ok (.ofFrame frame) := by
  obtain ⟨hne, hle, object, hparse, -, hdecoded⟩ := hspells.exists_object hs h
  have hvalid : validSignal text encoded = true := by simp [validSignal, hne, hle]
  rw [decodeSignal, if_pos hvalid, hparse]
  simp only [Option.bind_some, Value.asObject]
  rw [(Envelope.Rust.decode_agree object).eq_ok hdecoded]

theorem decodeDescription_eq (hsdp : sdpInBounds sdp = true) :
    decodeDescription (some (descriptionValue sdp)) = .ok sdp := by
  simp [decodeDescription, fromValue, descriptionValue, hsdp]

theorem offerer_writes (hs : Sendable spec) : Writes text spec (offerer text spec).encodeOffer offerFrame := by
  refine writes_of_eq hs .rust fun id sdp hid shape hshape hkind hframe => ?_
  have hencode := encodeSignal_eq text hs hshape hkind hframe (offerFrame_encodable sdp hid)
  by_cases hsdp : sdpInBounds sdp = true
  · rw [if_pos hsdp, ← hencode]
    simp only [offerer, encodeDescription, hsdp, if_true]
    rfl
  · rw [if_neg hsdp]
    simp only [offerer, encodeDescription, hsdp]
    rfl

theorem answerer_writes (hs : Sendable spec) : Writes text spec (answerer text spec).encodeAnswer answerFrame := by
  refine writes_of_eq hs .rust fun id sdp hid shape hshape hkind hframe => ?_
  have hencode := encodeSignal_eq text hs hshape hkind hframe (answerFrame_encodable sdp hid)
  by_cases hsdp : sdpInBounds sdp = true
  · rw [if_pos hsdp, ← hencode]
    simp only [answerer, encodeDescription, hsdp, if_true]
    rfl
  · rw [if_neg hsdp]
    simp only [answerer, encodeDescription, hsdp]
    rfl

theorem decodeOffer_eq (hs : Sendable spec) (hid : id ≠ "") (hsdp : sdpInBounds sdp = true)
    (hspells : Spells text spec (offerFrame id sdp) encoded) :
    (answerer text spec).decodeOffer encoded = .ok (id, sdp) := by
  have hdecode := decodeSignal_eq hs (describes_offer sdp hid) hspells
  have hdescription := decodeDescription_eq hsdp
  unfold answerer
  simp [hdecode, hdescription, hid, offerFrame, Envelope.Rust.ControlFrame.ofFrame, Envelope.Rust.ControlFrame.request, bind,
    Except.bind, pure, Except.pure]

theorem decodeAnswer_eq (hs : Sendable spec) (hid : id ≠ "") (hsdp : sdpInBounds sdp = true)
    (hspells : Spells text spec (answerFrame id sdp) encoded) :
    (offerer text spec).decodeAnswer id encoded = .ok sdp := by
  have hdecode := decodeSignal_eq hs (describes_answer sdp hid) hspells
  have hdescription := decodeDescription_eq hsdp
  unfold offerer
  simp [hdecode, hdescription, answerFrame, Envelope.Rust.ControlFrame.ofFrame, Envelope.Rust.ControlFrame.response, bind,
    Except.bind]

end Rust

/-! ## TypeScript -/

namespace TypeScript

open Rtvbp.TypeScript

/-- The last entry may be exchanged for one that is written the same. -/
theorem encodeEntries_last {a b : WireEncodable} (h : encodeValue a = encodeValue b) (key : String) (seen : List String)
    (entries : Entries) : encodeEntries seen (entries ++ [(key, a)]) = encodeEntries seen (entries ++ [(key, b)]) := by
  induction entries generalizing seen with
  | nil => simp only [List.nil_append, encodeEntries, h]
  | cons entry entries ih =>
    obtain ⟨name, value⟩ := entry
    simp only [List.cons_append, encodeEntries, ih]

theorem objectKeys_singleton (entry : String × WireEncodable) : objectKeys [entry] = [entry] := by
  unfold objectKeys
  cases hindex : arrayIndex entry.1 with
  | none => simp [hindex]
  | some n => simp [hindex]

/-- A plain object is written as one whose entries have an order. -/
theorem encode_plain (id method : String) (fields : Entries) :
    (renderEnvelope spec).encode (.request id method (some (.plain fields))) =
      (renderEnvelope spec).encode (.request id method (some (.ordered fields))) := by
  have hvalue : encodeValue (.plain fields) = encodeValue (.ordered fields) := by simp only [encodeValue]
  simp only [EnvelopeDescriptor.encode, EnvelopeDescriptor.frameEntries, EnvelopeDescriptor.identityEntries,
    Rtvbp.TypeScript.ControlFrame.kind, pushOptional, encodeWireJson]
  cases (renderEnvelope spec).frameSpec .request with
  | error error => rfl
  | ok shape =>
    cases hfield : shape.id with
    | none => simp [hfield, bind, Except.bind]
    | some field =>
      have hlast := fun entries => encodeEntries_last hvalue shape.payload.name [] entries
      by_cases hid : id = ""
      · simp [hid, bind, Except.bind]
      · by_cases hmethod : method = ""
        · simp [hid, hmethod, bind, Except.bind]
        · simp only [hid, hmethod, hfield, if_false, bind, Except.bind, encodeValue, ← List.append_assoc, hlast]

theorem encodeOffer_eq (hs : Sendable spec) (hshape : shape ∈ spec.frames) (hkind : shape.kind = (offerFrame id sdp).kind)
    (hframe : spec.frame (offerFrame id sdp).kind = .ok shape) (hid : id ≠ "") :
    (renderEnvelope spec).encode (.request id offerMethod (some (.plain [("sdp", .string sdp)]))) =
      .ok (.object (spec.wireObject shape (offerFrame id sdp))) := by
  have hsafe := (describes_offer sdp hid).safeNumbers
  rw [encode_plain]
  exact (encode_eq_ok_iff hs.wellFormed hshape hkind hframe hsafe).mpr ⟨offerFrame_encodable sdp hid, rfl⟩

theorem offerer_writes (hs : Sendable spec) : Writes text spec (offerer text json spec).encodeOffer offerFrame := by
  refine writes_of_eq hs .typescript fun id sdp hid shape hshape hkind hframe => ?_
  simp only [offerer, encodeOffer_eq hs hshape hkind hframe hid]

theorem decodeAnswer_eq {json : LosslessJson} (hs : Sendable spec) (hid : id ≠ "") (hsdp : sdpInBounds sdp = true)
    (hspells : Spells text spec (answerFrame id sdp) encoded) :
    (offerer text json spec).decodeAnswer id encoded = .ok sdp := by
  obtain ⟨hne, hle, object, hparse, hsafe, hdecoded⟩ := hspells.exists_object hs (describes_answer sdp hid)
  have hdecode := (decode_agree json hsafe).eq_ok hdecoded
  have hresult : resultSdp (some (parsed (descriptionValue sdp).val)) = some sdp := by
    simp [descriptionValue, parsed, parsedFields, objectKeys_singleton, resultSdp]
  have hsize : ¬ (text.size encoded = 0 ∨ maxSignalFrameLen < text.size encoded) := by omega
  simp only [offerer, if_neg hsize, hparse, hdecode, answerFrame, ControlFrame.ofFrame, Option.map_some]
  simp [hresult, hsdp]

end TypeScript

/-! ## Both sides -/

/-- What an exchange relies on: each side writes its description for the other, and reads what the other has written. -/
structure Speaks (text : WireText) (spec : EnvelopeSpec) (offerer : Offerer text.Text) (answerer : Answerer text.Text) :
    Prop where
  offer_writes : Writes text spec offerer.encodeOffer offerFrame
  answer_writes : Writes text spec answerer.encodeAnswer answerFrame
  offer_read : ∀ id sdp encoded, id ≠ "" → sdpInBounds sdp = true → Spells text spec (offerFrame id sdp) encoded →
    answerer.decodeOffer encoded = .ok (id, sdp)
  answer_read : ∀ id sdp encoded, id ≠ "" → sdpInBounds sdp = true → Spells text spec (answerFrame id sdp) encoded →
    offerer.decodeAnswer id encoded = .ok sdp

theorem speaks {json : Rtvbp.TypeScript.LosslessJson} (hs : Sendable spec) (offerer : Language) (answerer : ServerLanguage) :
    Speaks text spec (offerer.offerer text json spec) (answerer.answerer text spec) := by
  constructor
  · cases offerer with
    | go => exact Go.offerer_writes hs
    | rust => exact Rust.offerer_writes hs
    | typescript => exact TypeScript.offerer_writes hs
  · cases answerer with
    | go => exact Go.answerer_writes hs
    | rust => exact Rust.answerer_writes hs
  · intro id sdp encoded hid hsdp hspells
    cases answerer with
    | go => exact Go.decodeOffer_eq hs hid hsdp hspells
    | rust => exact Rust.decodeOffer_eq hs hid hsdp hspells
  · intro id sdp encoded hid hsdp hspells
    cases offerer with
    | go => exact Go.decodeAnswer_eq hs hid hsdp hspells
    | rust => exact Rust.decodeAnswer_eq hs hid hsdp hspells
    | typescript => exact TypeScript.decodeAnswer_eq hs hid hsdp hspells

/-! ## The exchange -/

variable {offerer : Offerer text.Text} {answerer : Answerer text.Text} {peers : Peers} {s t : State text.Text}

/-- The text carries the offerer's description under an identity. -/
structure Offered (spec : EnvelopeSpec) (peers : Peers) (id offer : String) (encoded : text.Text) : Prop where
  id_ne : id ≠ ""
  offer_eq : peers.offer = some offer
  bounds : sdpInBounds offer = true
  spells : Spells text spec (offerFrame id offer) encoded

/-- The text carries the answerer's description for an offer under its identity. -/
structure Answered (spec : EnvelopeSpec) (peers : Peers) (id offer answer : String) (encoded : text.Text) : Prop where
  id_ne : id ≠ ""
  answer_eq : peers.answer offer = some answer
  bounds : sdpInBounds answer = true
  spells : Spells text spec (answerFrame id answer) encoded

theorem Offered.unique {id' offer offer' : String} (hspeaks : Speaks text spec offerer answerer)
    (h : Offered spec peers id offer encoded) (h' : Offered spec peers id' offer' encoded) : id = id' ∧ offer = offer' := by
  have hread := hspeaks.offer_read id offer encoded h.id_ne h.bounds h.spells
  have hread' := hspeaks.offer_read id' offer' encoded h'.id_ne h'.bounds h'.spells
  simpa using hread.symm.trans hread'

/-- What the state of the offerer says about the wires: it sends one message and takes one. -/
def OffererState.Inv (spec : EnvelopeSpec) (peers : Peers) (answerer : AnswererState) (sent received : List text.Text) :
    OffererState → Prop
  | .idle => sent = [] ∧ received = []
  | .waiting id => (∃ offer encoded, Offered spec peers id offer encoded ∧ sent = [encoded]) ∧ received = []
  | .done answer => ∃ offer, peers.offer = some offer ∧ answerer = .done offer answer ∧ peers.answer offer = some answer ∧
      sdpInBounds answer = true
  | .failed error => error.Local

/-- What the state of the answerer says about the wires: it takes one message and sends one. -/
def AnswererState.Inv (spec : EnvelopeSpec) (peers : Peers) (received sent : List text.Text) : AnswererState → Prop
  | .idle => received = [] ∧ sent = []
  | .taken id offer answer => (∃ encoded, Offered spec peers id offer encoded ∧ received = [encoded]) ∧
      peers.answer offer = some answer ∧ sent = []
  | .done offer answer => ∃ id encoded reply, Offered spec peers id offer encoded ∧ received = [encoded] ∧
      Answered spec peers id offer answer reply ∧ sent = [reply]
  | .failed error => error.Local ∧ sent = []

/-- An offerer that is done has the answer of an answerer that is done. -/
theorem OffererState.Inv.of_not_done {state : OffererState} {a b : AnswererState} {sent received : List text.Text}
    (h : state.Inv spec peers a sent received) (ha : ∀ offer answer, a ≠ .done offer answer) :
    state.Inv spec peers b sent received := by
  cases state with
  | idle => exact h
  | waiting id => exact h
  | failed error => exact h
  | done answer =>
    obtain ⟨offer, -, hdone, -⟩ := h
    exact absurd hdone (ha offer answer)

/-- The invariant of a negotiation. -/
structure State.Inv (spec : EnvelopeSpec) (peers : Peers) (s : State text.Text) : Prop where
  sent : s.up.sent = [] ∨ ∃ id offer encoded, Offered spec peers id offer encoded ∧ s.up.sent = [encoded]
  offerer : s.offerer.Inv spec peers s.answerer s.up.sent s.down.received
  answerer : s.answerer.Inv spec peers s.up.received s.down.sent

theorem State.Inv.initial : (initial : State text.Text).Inv spec peers where
  sent := .inl rfl
  offerer := ⟨rfl, rfl⟩
  answerer := ⟨rfl, rfl⟩

/-- The invariant is about what the wires have carried. -/
theorem State.Inv.wires (h : s.Inv spec peers) {up down : Wire text.Text} (hup : up.sent = s.up.sent)
    (hup' : up.received = s.up.received) (hdown : down.sent = s.down.sent) (hdown' : down.received = s.down.received) :
    ({ s with up := up, down := down } : State text.Text).Inv spec peers where
  sent := by
    show up.sent = [] ∨ _
    rw [hup]
    exact h.sent
  offerer := by
    show s.offerer.Inv spec peers s.answerer up.sent down.received
    rw [hup, hdown']
    exact h.offerer
  answerer := by
    show s.answerer.Inv spec peers up.received down.sent
    rw [hup', hdown]
    exact h.answerer

theorem State.Inv.failOfferer (h : s.Inv spec peers) {error : SignalError} (herror : error.Local) :
    (s.failOfferer error).Inv spec peers where
  sent := h.sent
  offerer := herror
  answerer := h.answerer

/-- An answerer can fail until it has sent its answer. -/
theorem State.Inv.failAnswerer (h : s.Inv spec peers) (hsent : s.down.sent = []) {error : SignalError}
    (herror : error.Local) : (s.failAnswerer error).Inv spec peers where
  sent := h.sent
  offerer := by
    refine h.offerer.of_not_done fun offer answer hdone => ?_
    have hanswerer := h.answerer
    rw [hdone] at hanswerer
    obtain ⟨id, encoded, reply, -, -, -, hreply⟩ := hanswerer
    rw [hsent] at hreply
    cases hreply
  answerer := ⟨herror, hsent⟩

/-- The first item that a wire hands out is the one that was sent on it. -/
theorem recv_of_nil {w v : Wire text.Text} {x : text.Text} (hreceived : w.received = []) (hrecv : w.recv = some (x, v)) :
    v.sent = w.sent ∧ v.received = [x] ∧ ∃ rest, w.sent = x :: rest := by
  have hsent := Wire.sent_of_recv hrecv
  have hv := Wire.received_of_recv hrecv
  rw [hreceived, List.nil_append] at hv
  obtain ⟨rest, hrest⟩ := v.received_isPrefix
  rw [hv, hsent] at hrest
  exact ⟨hsent, hv, rest, hrest.symm⟩

theorem State.Inv.sendOffer (hspeaks : Speaks text spec offerer answerer) (h : s.Inv spec peers)
    (hidle : s.offerer = .idle) (hid : id ≠ "") : (s.sendOffer offerer peers id).Inv spec peers := by
  have hofferer := h.offerer
  rw [hidle] at hofferer
  obtain ⟨hnil, hreceived⟩ := hofferer
  unfold State.sendOffer
  cases hpeer : peers.offer with
  | none => exact h.failOfferer trivial
  | some offer =>
    cases hencode : offerer.encodeOffer id offer with
    | error error => simpa [hencode] using h.failOfferer (hspeaks.offer_writes.error id offer error hid hencode)
    | ok encoded =>
      obtain ⟨hbounds, hspells⟩ := hspeaks.offer_writes.ok id offer encoded hid hencode
      cases hsend : s.up.send encoded with
      | none =>
        have hclosed : (s.failOfferer .closed).Inv spec peers := h.failOfferer trivial
        simpa [hencode, hsend] using hclosed
      | some up =>
        have hsent := Wire.sent_of_send hsend
        rw [hnil, List.nil_append] at hsent
        have hoffered : Offered spec peers id offer encoded := ⟨hid, hpeer, hbounds, hspells⟩
        have hanswerer := h.answerer
        rw [← Wire.received_of_send hsend] at hanswerer
        simp only [hencode, hsend]
        exact ⟨.inr ⟨id, offer, encoded, hoffered, hsent⟩, ⟨⟨offer, encoded, hoffered, hsent⟩, hreceived⟩, hanswerer⟩

theorem State.Inv.recvOffer (hspeaks : Speaks text spec offerer answerer) (h : s.Inv spec peers)
    (hidle : s.answerer = .idle) {up : Wire text.Text} (hrecv : s.up.recv = some (encoded, up)) :
    ({ s with up := up }.takeOffer answerer peers encoded).Inv spec peers := by
  have hofferer := h.offerer
  have hanswerer := h.answerer
  rw [hidle] at hanswerer hofferer
  obtain ⟨hreceived, hnil⟩ := hanswerer
  obtain ⟨hsent, hv, rest, hrest⟩ := recv_of_nil hreceived hrecv
  obtain hempty | ⟨id, offer, encoded', hoffered, heq⟩ := h.sent
  · rw [hempty] at hrest
    cases hrest
  · rw [heq] at hrest
    obtain ⟨rfl, -⟩ := List.cons.inj hrest
    have hread := hspeaks.offer_read id offer encoded' hoffered.id_ne hoffered.bounds hoffered.spells
    have hofferer' : ∀ state, s.offerer.Inv spec peers state up.sent s.down.received := fun state => by
      rw [hsent]
      exact hofferer.of_not_done nofun
    have hsent' : up.sent = [] ∨ ∃ id offer encoded, Offered spec peers id offer encoded ∧ up.sent = [encoded] :=
      .inr ⟨id, offer, encoded', hoffered, hsent.trans heq⟩
    unfold State.takeOffer
    simp only [hread]
    cases hanswer : peers.answer offer with
    | none => exact ⟨hsent', hofferer' _, trivial, hnil⟩
    | some answer => exact ⟨hsent', hofferer' _, ⟨encoded', hoffered, hv⟩, hanswer, hnil⟩

theorem State.Inv.sendAnswer (hspeaks : Speaks text spec offerer answerer) (h : s.Inv spec peers) {offer answer : String}
    (htaken : s.answerer = .taken id offer answer) : (s.sendAnswer answerer id offer answer).Inv spec peers := by
  have hofferer := h.offerer
  have hanswerer := h.answerer
  rw [htaken] at hanswerer hofferer
  obtain ⟨⟨encoded, hoffered, hreceived⟩, hanswer, hnil⟩ := hanswerer
  unfold State.sendAnswer
  cases hencode : answerer.encodeAnswer id answer with
  | error error => exact h.failAnswerer hnil (hspeaks.answer_writes.error id answer error hoffered.id_ne hencode)
  | ok reply =>
    obtain ⟨hbounds, hspells⟩ := hspeaks.answer_writes.ok id answer reply hoffered.id_ne hencode
    cases hsend : s.down.send reply with
    | none =>
      have hclosed : (s.failAnswerer .closed).Inv spec peers := h.failAnswerer hnil trivial
      simpa [hsend] using hclosed
    | some down =>
      have hsent := Wire.sent_of_send hsend
      rw [hnil, List.nil_append] at hsent
      have hofferer' : s.offerer.Inv spec peers (.done offer answer) s.up.sent down.received := by
        rw [Wire.received_of_send hsend]
        exact hofferer.of_not_done nofun
      simp only [hsend]
      exact ⟨h.sent, hofferer', id, encoded, reply, hoffered, hreceived, ⟨hoffered.id_ne, hanswer, hbounds, hspells⟩, hsent⟩

theorem State.Inv.recvAnswer (hspeaks : Speaks text spec offerer answerer) (h : s.Inv spec peers)
    (hwaiting : s.offerer = .waiting id) {down : Wire text.Text} (hrecv : s.down.recv = some (encoded, down)) :
    ({ s with down := down }.takeAnswer offerer peers id encoded).Inv spec peers := by
  have hofferer := h.offerer
  have hanswerer := h.answerer
  rw [hwaiting] at hofferer
  obtain ⟨⟨offer, sent, hoffered, hup⟩, hnil⟩ := hofferer
  obtain ⟨hsent, hv, rest, hrest⟩ := recv_of_nil hnil hrecv
  rw [← hsent] at hanswerer hrest
  cases hs : s.answerer with
  | idle =>
    rw [hs] at hanswerer
    obtain ⟨-, hempty⟩ := hanswerer
    rw [hempty] at hrest
    cases hrest
  | taken id offer answer =>
    rw [hs] at hanswerer
    obtain ⟨-, -, hempty⟩ := hanswerer
    rw [hempty] at hrest
    cases hrest
  | failed error =>
    rw [hs] at hanswerer
    obtain ⟨-, hempty⟩ := hanswerer
    rw [hempty] at hrest
    cases hrest
  | done offer' answer =>
    rw [hs] at hanswerer
    obtain ⟨id', encoded', reply, hoffered', hreceived, hanswered, hreply⟩ := hanswerer
    -- both sides mean the one text that was sent, and with it the same identity
    have hsame : encoded' = sent := by
      obtain ⟨rest', hprefix⟩ := s.up.received_isPrefix
      rw [hreceived, hup] at hprefix
      exact (List.cons.inj hprefix).1
    subst hsame
    obtain ⟨rfl, rfl⟩ := hoffered.unique hspeaks hoffered'
    rw [hreply] at hrest
    obtain ⟨rfl, -⟩ := List.cons.inj hrest
    have hread := hspeaks.answer_read id answer reply hanswered.id_ne hanswered.bounds hanswered.spells
    have hanswerer' : (AnswererState.done offer answer).Inv spec peers s.up.received down.sent :=
      ⟨id, encoded', reply, hoffered', hreceived, hanswered, hreply⟩
    simp only [State.takeAnswer, hread]
    by_cases haccepts : peers.accepts answer = true
    · rw [if_pos haccepts]
      exact ⟨h.sent, ⟨offer, hoffered.offer_eq, rfl, hanswered.answer_eq, hanswered.bounds⟩, hanswerer'⟩
    · rw [if_neg haccepts]
      exact ⟨h.sent, trivial, hanswerer'⟩

/-- Every step keeps the invariant. -/
theorem State.Inv.step (hspeaks : Speaks text spec offerer answerer) (h : s.Inv spec peers) {action : Action}
    (hstep : step offerer answerer peers s action = some t) : t.Inv spec peers := by
  have hanswerer := h.answerer
  cases action with
  | sendOffer id fresh =>
    simp only [Signaling.step] at hstep
    split at hstep
    case h_1 hidle =>
      obtain rfl := Option.some.inj hstep
      exact h.sendOffer hspeaks hidle fresh
    · cases hstep
  | recvOffer =>
    simp only [Signaling.step] at hstep
    split at hstep
    case h_1 hidle =>
      obtain ⟨r, hrecv, rfl⟩ := Option.map_eq_some_iff.mp hstep
      exact h.recvOffer hspeaks hidle hrecv
    · cases hstep
  | sendAnswer =>
    simp only [Signaling.step] at hstep
    split at hstep
    case h_1 id offer answer htaken =>
      obtain rfl := Option.some.inj hstep
      exact h.sendAnswer hspeaks htaken
    · cases hstep
  | recvAnswer =>
    simp only [Signaling.step] at hstep
    split at hstep
    case h_1 id hwaiting =>
      obtain ⟨r, hrecv, rfl⟩ := Option.map_eq_some_iff.mp hstep
      exact h.recvAnswer hspeaks hwaiting hrecv
    · cases hstep
  | offerEnds =>
    simp only [Signaling.step] at hstep
    split at hstep
    case h_1 hidle hended =>
      rw [hidle] at hanswerer
      obtain rfl := Option.some.inj hstep
      exact h.failAnswerer hanswerer.2 trivial
    · cases hstep
  | answerEnds =>
    simp only [Signaling.step] at hstep
    split at hstep
    case h_1 id hwaiting hended =>
      obtain rfl := Option.some.inj hstep
      exact h.failOfferer trivial
    · cases hstep
  | cancelOfferer =>
    simp only [Signaling.step] at hstep
    split at hstep
    case h_3 => cases hstep
    all_goals
      obtain rfl := Option.some.inj hstep
      exact h.failOfferer trivial
  | cancelAnswerer =>
    simp only [Signaling.step] at hstep
    split at hstep
    case h_1 hidle =>
      rw [hidle] at hanswerer
      obtain rfl := Option.some.inj hstep
      exact h.failAnswerer hanswerer.2 trivial
    case h_2 htaken =>
      rw [htaken] at hanswerer
      obtain rfl := Option.some.inj hstep
      exact h.failAnswerer hanswerer.2.2 trivial
    · cases hstep
  | close =>
    obtain rfl := Option.some.inj hstep
    exact h.wires rfl rfl rfl rfl
  | discard =>
    obtain rfl := Option.some.inj hstep
    exact h.wires rfl rfl rfl rfl

theorem inv_of_reachable (hspeaks : Speaks text spec offerer answerer)
    (h : (machine offerer answerer peers).Reachable s) : s.Inv spec peers := by
  refine h.invariant (fun s hs => ?_) fun s action t hs hstep => hs.step hspeaks hstep
  rw [show s = Signaling.initial from hs]
  exact .initial

/-! ## The negotiation -/

/-- What is under way on an open wire can be received. -/
theorem exists_recv {w : Wire text.Text} (hopen : w.closed = false) (hreceived : w.received = []) (hsent : w.sent = [encoded]) :
    ∃ r, w.recv = some r := by
  have hfifo := w.fifo
  rw [hsent, hreceived, w.lost_of_open hopen, List.nil_append, List.append_nil] at hfifo
  unfold Wire.recv
  split
  case h_1 hpending =>
    rw [hpending] at hfifo
    cases hfifo
  · exact ⟨_, rfl⟩

/-- Until both sides are done or one has failed, the exchange has a next step. -/
theorem State.Inv.goes_on (h : s.Inv spec peers) (hup : s.up.closed = false) (hdown : s.down.closed = false)
    (hofferer : ∀ error, s.offerer ≠ .failed error) (hanswerer : ∀ error, s.answerer ≠ .failed error) :
    (∃ offer answer, s.offerer = .done answer ∧ s.answerer = .done offer answer) ∨
      ∃ action t, action.Proceeds ∧ Signaling.step offerer answerer peers s action = some t := by
  have hinv := h.offerer
  have hinv' := h.answerer
  cases ho : s.offerer with
  | failed error => exact absurd ho (hofferer error)
  | idle => exact .inr ⟨.sendOffer "offer" (by decide), s.sendOffer offerer peers "offer", trivial, by simp only [Signaling.step, ho]⟩
  | done answer =>
    rw [ho] at hinv
    obtain ⟨offer, -, hdone, -⟩ := hinv
    exact .inl ⟨offer, answer, rfl, hdone⟩
  | waiting id =>
    rw [ho] at hinv
    obtain ⟨⟨offer, sent, hoffered, hsent⟩, hreceived⟩ := hinv
    right
    cases ha : s.answerer with
    | failed error => exact absurd ha (hanswerer error)
    | idle =>
      rw [ha] at hinv'
      obtain ⟨r, hrecv⟩ := exists_recv hup hinv'.1 hsent
      have hstep : (Signaling.step offerer answerer peers s .recvOffer).isSome := by
        simp only [Signaling.step, ha, hrecv, Option.map_some, Option.isSome_some]
      exact ⟨.recvOffer, _, trivial, (Option.some_get hstep).symm⟩
    | taken id offer answer =>
      exact ⟨.sendAnswer, s.sendAnswer answerer id offer answer, trivial, by simp only [Signaling.step, ha]⟩
    | done offer answer =>
      rw [ha] at hinv'
      obtain ⟨id, encoded, reply, -, -, -, hreply⟩ := hinv'
      obtain ⟨r, hrecv⟩ := exists_recv hdown hreceived hreply
      have hstep : (Signaling.step offerer answerer peers s .recvAnswer).isSome := by
        simp only [Signaling.step, ho, hrecv, Option.map_some, Option.isSome_some]
      exact ⟨.recvAnswer, _, trivial, (Option.some_get hstep).symm⟩

theorem State.Inv.sound (h : s.Inv spec peers) : Sound offerer answerer peers s where
  heard offer hheard := by
    have hanswerer := h.answerer
    obtain ⟨id, answer, heq⟩ | ⟨answer, heq⟩ := hheard
    · rw [heq] at hanswerer
      obtain ⟨⟨encoded, hoffered, -⟩, -⟩ := hanswerer
      exact ⟨hoffered.offer_eq, hoffered.bounds⟩
    · rw [heq] at hanswerer
      obtain ⟨id, encoded, reply, hoffered, -⟩ := hanswerer
      exact ⟨hoffered.offer_eq, hoffered.bounds⟩
  agreed answer hdone := by
    have hofferer := h.offerer
    rw [hdone] at hofferer
    exact hofferer
  offerer_failed error hfailed := by
    have hofferer := h.offerer
    rw [hfailed] at hofferer
    exact hofferer
  answerer_failed error hfailed := by
    have hanswerer := h.answerer
    rw [hfailed] at hanswerer
    exact hanswerer.1
  goes_on hup hdown hofferer hanswerer := h.goes_on hup hdown hofferer hanswerer

/-- Whatever the languages of the two sides and the order of the steps, a negotiation ends with both peer connections
holding the descriptions of each other, or with a failure that is not about what the other side has sent. -/
theorem negotiation_sound {json : Rtvbp.TypeScript.LosslessJson} (hs : Sendable spec) (a : Language) (b : ServerLanguage)
    (hreachable : (machine (a.offerer text json spec) (b.answerer text spec) peers).Reachable s) :
    Sound (a.offerer text json spec) (b.answerer text spec) peers s :=
  (inv_of_reachable (speaks hs a b) hreachable).sound

/-- The trees that the texts spell, with one byte each. -/
def WireText.trees : WireText where
  Text := Json
  size _ := 1
  serialize _ v := v
  parse v := if h : v.wellFormed = true then some ⟨v, h⟩ else none
  parse_serialize _ v := dif_pos v.property
  size_pos _ _ := Nat.one_pos

/-- Peer connections that take what they are given. -/
def willing : Peers where
  offer := some "v=0 offer"
  answer _ := some "v=0 answer"
  accepts _ := true

/-- Both sides are done. -/
def settled {β : Type} (s : State β) : Bool :=
  match s.offerer, s.answerer with
  | .done answer, .done offer answer' => answer = "v=0 answer" ∧ offer = "v=0 offer" ∧ answer' = answer
  | _, _ => false

theorem willing_settle :
    ∃ s, (machine (Language.rust.offerer WireText.trees .binary64 .classicV1)
        (ServerLanguage.go.answerer WireText.trees .classicV1) willing).exec (initial : State WireText.trees.Text)
        [.sendOffer "o-1" (by decide), .recvOffer, .sendAnswer, .recvAnswer] = some s ∧ settled s = true ∧
      Sound (Language.rust.offerer WireText.trees .binary64 .classicV1)
        (ServerLanguage.go.answerer WireText.trees .classicV1) willing s := by
  have hruns : ((machine (Language.rust.offerer WireText.trees .binary64 .classicV1)
      (ServerLanguage.go.answerer WireText.trees .classicV1) willing).exec (initial : State WireText.trees.Text)
      [.sendOffer "o-1" (by decide), .recvOffer, .sendAnswer, .recvAnswer]).any settled = true := by
    decide
  obtain ⟨s, hexec, hsettled⟩ := (Option.any_eq_true ..).mp hruns
  have hsendable : Sendable .classicV1 := by
    refine ⟨by decide, ?_, by decide⟩
    simp [EnvelopeSpec.Unambiguous, EnvelopeSpec.classicV1, Envelope.FieldSpec.required, Envelope.FieldSpec.optional]
  exact ⟨s, hexec, hsettled, negotiation_sound hsendable .rust .go (.of_exec rfl hexec)⟩

end Rtvbp.Signaling
