import Rtvbp.Envelope.GoCodec
import Rtvbp.Envelope.RustCodec
import Rtvbp.Lib.Machine
import Rtvbp.Lib.Mailbox
import Rtvbp.TypeScript.EnvelopeCodec

/-!
# The WebRTC offer and answer

`negotiateOffer` and `negotiateAnswer` of `sdk/go/transport/webrtcws/signaling.go`, their Rust counterparts in
`sdk/rust/src/transport/webrtcws/signaling.rs`, and `negotiateOffer` of `sdk/typescript/src/browser_webrtc.ts`. Before a
session starts, the offerer sends the SDP of its local description in a request of the envelope, and the answerer sends
its own in the response. What the peer connections do with a description is not part of the SDKs and a parameter.
-/

namespace Rtvbp.Signaling

open Rtvbp.Lib
open Rtvbp.Envelope (EnvelopeSpec)

inductive Language where
  | go
  | rust
  | typescript

/-- What the three JSON libraries are relied on for: their texts have bytes and are read back. -/
structure WireText where
  Text : Type
  size : Text → ℕ
  serialize : Language → Json → Text
  parse : Text → Option Value
  parse_serialize : ∀ language (v : Value), parse (serialize language v.val) = some v
  size_pos : ∀ language (v : Value), 0 < size (serialize language v.val)

def offerMethod : String := "transport.webrtc.offer"

def maxSignalFrameLen : ℕ := 2 ^ 20

def maxSdpLen : ℕ := 512 * 2 ^ 10

/-- Why a negotiation fails. -/
inductive SignalError where
  /-- The peer connection fails, or refuses a description. -/
  | peer
  | localSdpSize
  | encode
  | encodedSize
  | frameSize
  | decode
  | unexpected
  | rejected (code : ℤ) (message : String)
  | description
  | remoteSdpSize
  /-- The context is done. -/
  | cancelled
  | closed

/-- The length of an SDP is in bounds. -/
def sdpInBounds (sdp : String) : Bool := decide (sdp.utf8ByteSize ≠ 0) && decide (sdp.utf8ByteSize ≤ maxSdpLen)

/-- The functions of an offerer, with the identity of its request. -/
structure Offerer (β : Type) where
  encodeOffer : String → String → Except SignalError β
  decodeAnswer : String → β → Except SignalError String

/-- The functions of an answerer, with the identity of the request. -/
structure Answerer (β : Type) where
  decodeOffer : β → Except SignalError (String × String)
  encodeAnswer : String → String → Except SignalError β

/-! ## Go -/

namespace Go

open Rtvbp.Envelope.Go

variable (text : WireText) (spec : EnvelopeSpec)

/-- `encodeDescription`. -/
def encodeDescription (sdp : String) : Except SignalError RawMessage :=
  if sdpInBounds sdp then .ok (.json (.object [("sdp", .string sdp)])) else .error .localSdpSize

/-- A key that `encoding/json` takes for the field `sdp`: the same up to simple case folding. -/
def matchesSdp (key : String) : Bool :=
  match key.toList with
  | [a, b, c] => ['s', 'S', '\u017F'].contains a && ['d', 'D'].contains b && ['p', 'P'].contains c
  | _ => false

/-- `json.Unmarshal` into a `sessionDescription`; a later key overwrites an earlier one, and `null` changes nothing. -/
def unmarshalDescription : RawMessage → Option String
  | .json .null => some ""
  | .json (.object fields) =>
    fields.foldlM (fun sdp field =>
      if matchesSdp field.1 then
        match field.2 with
        | .string s => some s
        | .null => some sdp
        | _ => none
      else some sdp) ""
  | _ => none

/-- `decodeDescription`. -/
def decodeDescription (payload : RawMessage) : Except SignalError String :=
  match unmarshalDescription payload with
  | none => .error .description
  | some sdp => if sdpInBounds sdp then .ok sdp else .error .remoteSdpSize

/-- The frame is encoded, and its text is not too long. -/
def encodeSignal (frame : ControlFrame) : Except SignalError text.Text :=
  match (renderCodec spec).encode frame with
  | .error _ => .error .encode
  | .ok json =>
    if maxSignalFrameLen < text.size (text.serialize .go json) then .error .encodedSize
    else .ok (text.serialize .go json)

/-- `decodeSignal`. -/
def decodeSignal (encoded : text.Text) : Except SignalError ControlFrame :=
  if text.size encoded = 0 ∨ maxSignalFrameLen < text.size encoded then .error .frameSize
  else
    match (text.parse encoded).bind Value.asObject with
    | none => .error .decode
    | some object =>
      match (renderCodec spec).decode object with
      | .error _ => .error .decode
      | .ok frame => .ok frame

def offerer : Offerer text.Text where
  encodeOffer id sdp := do
    let payload ← encodeDescription sdp
    encodeSignal text spec ⟨.request, id, "", offerMethod, payload, none⟩
  decodeAnswer id encoded := do
    let frame ← decodeSignal text spec encoded
    if frame.Kind ≠ .response ∨ frame.CorrelID ≠ id then .error .unexpected
    else
      match frame.Err with
      | some err => .error (.rejected err.Code.toInt err.Message)
      | none => decodeDescription frame.Payload

def answerer : Answerer text.Text where
  decodeOffer encoded := do
    let frame ← decodeSignal text spec encoded
    if frame.Kind ≠ .request ∨ frame.Method ≠ offerMethod ∨ frame.ID = "" then .error .unexpected
    else
      let sdp ← decodeDescription frame.Payload
      return (frame.ID, sdp)
  encodeAnswer id sdp := do
    let payload ← encodeDescription sdp
    encodeSignal text spec ⟨.response, "", id, "", payload, none⟩

end Go

/-! ## Rust -/

namespace Rust

open Rtvbp.Envelope.Rust

variable (text : WireText) (spec : EnvelopeSpec)

/-- The value of a `Description`. -/
def descriptionValue (sdp : String) : Value :=
  ⟨.object [("sdp", .string sdp)], by simp [Json.wellFormed_object]⟩

/-- `encode_description`. -/
def encodeDescription (sdp : String) : Except SignalError Value :=
  if sdpInBounds sdp then .ok (descriptionValue sdp) else .error .localSdpSize

/-- `serde_json::from_value` into a `Description`, from an object or from an array with one item. -/
def fromValue (value : Json) : Option String :=
  match value with
  | .object fields =>
    match fields.lookup "sdp" with
    | some (.string sdp) => some sdp
    | _ => none
  | .array [.string sdp] => some sdp
  | _ => none

/-- `decode_description`. -/
def decodeDescription (payload : Option Value) : Except SignalError String :=
  match payload.bind fun value => fromValue value.val with
  | none => .error .description
  | some sdp => if sdpInBounds sdp then .ok sdp else .error .remoteSdpSize

/-- `validate_signal`. -/
def validSignal (encoded : text.Text) : Bool :=
  decide (text.size encoded ≠ 0) && decide (text.size encoded ≤ maxSignalFrameLen)

def encodeSignal (frame : ControlFrame) : Except SignalError text.Text :=
  match (renderCodec spec).encode frame with
  | .error _ => .error .encode
  | .ok json =>
    if validSignal text (text.serialize .rust json) then .ok (text.serialize .rust json) else .error .encodedSize

/-- `decode_signal`. -/
def decodeSignal (encoded : text.Text) : Except SignalError ControlFrame :=
  if validSignal text encoded then
    match (text.parse encoded).bind Value.asObject with
    | none => .error .decode
    | some object =>
      match (renderCodec spec).decode object with
      | .error _ => .error .decode
      | .ok frame => .ok frame
  else .error .frameSize

def offerer : Offerer text.Text where
  encodeOffer id sdp := do
    let payload ← encodeDescription sdp
    encodeSignal text spec (.request id offerMethod (some payload))
  decodeAnswer id encoded := do
    let frame ← decodeSignal text spec encoded
    if frame.kind ≠ .response ∨ frame.correlationId ≠ id then .error .unexpected
    else
      match frame.error with
      | some error => .error (.rejected error.code.toInt error.message)
      | none => decodeDescription frame.payload

def answerer : Answerer text.Text where
  decodeOffer encoded := do
    let frame ← decodeSignal text spec encoded
    if frame.kind ≠ .request ∨ frame.method ≠ offerMethod ∨ frame.id = "" then .error .unexpected
    else
      let sdp ← decodeDescription frame.payload
      return (frame.id, sdp)
  encodeAnswer id sdp := do
    let payload ← encodeDescription sdp
    encodeSignal text spec (.response id (some payload) none)

end Rust

/-! ## TypeScript -/

namespace TypeScript

open Rtvbp.TypeScript

variable (text : WireText) (json : LosslessJson) (spec : EnvelopeSpec)

/-- The number of a `WireErrorValue` as an integer; the decoder lets only integers pass. -/
def codeOf : JsNumber → ℤ
  | .integer n => n
  | _ => 0

/-- The property `sdp` of the result. -/
def resultSdp : Option WireEncodable → Option String
  | some (.plain entries) =>
    match entries.lookup "sdp" with
    | some (.string sdp) => some sdp
    | _ => none
  | _ => none

def offerer : Offerer text.Text where
  encodeOffer id sdp :=
    if sdpInBounds sdp then
      match (renderEnvelope spec).encode (.request id offerMethod (some (.plain [("sdp", .string sdp)]))) with
      | .error _ => .error .encode
      | .ok value =>
        if maxSignalFrameLen < text.size (text.serialize .typescript value) then .error .encodedSize
        else .ok (text.serialize .typescript value)
    else .error .localSdpSize
  decodeAnswer id encoded :=
    if text.size encoded = 0 ∨ maxSignalFrameLen < text.size encoded then .error .frameSize
    else
      match text.parse encoded with
      | none => .error .decode
      | some value =>
        match (renderEnvelope spec).decode json value with
        | .error _ => .error .decode
        | .ok (.response correlationId result error) =>
          if correlationId ≠ id then .error .unexpected
          else
            match error with
            | some error => .error (.rejected (codeOf error.code) error.message)
            | none =>
              -- `validateSdp` also refuses a value that is no string
              match resultSdp result with
              | none => .error .remoteSdpSize
              | some sdp => if sdpInBounds sdp then .ok sdp else .error .remoteSdpSize
        | .ok _ => .error .unexpected

end TypeScript

/-- The functions of an offerer in each language. -/
def Language.offerer (text : WireText) (json : Rtvbp.TypeScript.LosslessJson) (spec : EnvelopeSpec) :
    Language → Offerer text.Text
  | .go => Go.offerer text spec
  | .rust => Rust.offerer text spec
  | .typescript => TypeScript.offerer text json spec

/-- The languages with an answerer; a browser never answers. -/
inductive ServerLanguage where
  | go
  | rust

def ServerLanguage.answerer (text : WireText) (spec : EnvelopeSpec) : ServerLanguage → Answerer text.Text
  | .go => Go.answerer text spec
  | .rust => Rust.answerer text spec

/-! ## A negotiation -/

/-- The peer connections: the SDP of the offerer's local description, that of the answerer's for an offer, and which
answers the offerer's takes; `none` where a peer connection fails or refuses the offer. -/
structure Peers where
  offer : Option String
  answer : String → Option String
  accepts : String → Bool

inductive OffererState where
  | idle
  | waiting (id : String)
  | done (answer : String)
  | failed (error : SignalError)

inductive AnswererState where
  | idle
  /-- The peer connection has taken the offer. -/
  | taken (id offer answer : String)
  | done (offer answer : String)
  | failed (error : SignalError)

/-- The two sides, with the wire to the answerer and the one to the offerer. -/
structure State (β : Type) where
  offerer : OffererState
  answerer : AnswererState
  up : Wire β
  down : Wire β

/-- The steps. A fresh identity is not empty: it is a UUID or has a counter at its end. -/
inductive Action where
  | sendOffer (id : String) (fresh : id ≠ "")
  | recvOffer
  | sendAnswer
  | recvAnswer
  /-- `Recv` fails at the end of the channel. -/
  | offerEnds
  | answerEnds
  /-- The context of a side is done. -/
  | cancelOfferer
  | cancelAnswerer
  /-- The control channel closes, with or without what is under way. -/
  | close
  | discard

variable {β : Type} (offerer : Offerer β) (answerer : Answerer β) (peers : Peers)

namespace State

def failOfferer (s : State β) (error : SignalError) : State β := { s with offerer := .failed error }

def failAnswerer (s : State β) (error : SignalError) : State β := { s with answerer := .failed error }

/-- The offer is encoded and sent. -/
def sendOffer (s : State β) (id : String) : State β :=
  match peers.offer with
  | none => s.failOfferer .peer
  | some sdp =>
    match offerer.encodeOffer id sdp with
    | .error error => s.failOfferer error
    | .ok encoded =>
      match s.up.send encoded with
      | none => s.failOfferer .closed
      | some up => { s with offerer := .waiting id, up := up }

/-- The offer is decoded and given to the peer connection. -/
def takeOffer (s : State β) (encoded : β) : State β :=
  match answerer.decodeOffer encoded with
  | .error error => s.failAnswerer error
  | .ok (id, offer) =>
    match peers.answer offer with
    | none => s.failAnswerer .peer
    | some answer => { s with answerer := .taken id offer answer }

/-- The answer is encoded and sent. -/
def sendAnswer (s : State β) (id offer answer : String) : State β :=
  match answerer.encodeAnswer id answer with
  | .error error => s.failAnswerer error
  | .ok encoded =>
    match s.down.send encoded with
    | none => s.failAnswerer .closed
    | some down => { s with answerer := .done offer answer, down := down }

/-- The answer is decoded and given to the peer connection. -/
def takeAnswer (s : State β) (id : String) (encoded : β) : State β :=
  match offerer.decodeAnswer id encoded with
  | .error error => s.failOfferer error
  | .ok answer => if peers.accepts answer then { s with offerer := .done answer } else s.failOfferer .peer

end State

def step (s : State β) : Action → Option (State β)
  | .sendOffer id _ =>
    match s.offerer with
    | .idle => some (s.sendOffer offerer peers id)
    | _ => none
  | .recvOffer =>
    match s.answerer with
    | .idle => s.up.recv.map fun r => { s with up := r.2 }.takeOffer answerer peers r.1
    | _ => none
  | .sendAnswer =>
    match s.answerer with
    | .taken id offer answer => some (s.sendAnswer answerer id offer answer)
    | _ => none
  | .recvAnswer =>
    match s.offerer with
    | .waiting id => s.down.recv.map fun r => { s with down := r.2 }.takeAnswer offerer peers id r.1
    | _ => none
  | .offerEnds =>
    match s.answerer, s.up.ended with
    | .idle, true => some (s.failAnswerer .closed)
    | _, _ => none
  | .answerEnds =>
    match s.offerer, s.down.ended with
    | .waiting _, true => some (s.failOfferer .closed)
    | _, _ => none
  | .cancelOfferer =>
    match s.offerer with
    | .idle | .waiting _ => some (s.failOfferer .cancelled)
    | _ => none
  | .cancelAnswerer =>
    match s.answerer with
    | .idle | .taken .. => some (s.failAnswerer .cancelled)
    | _ => none
  | .close => some { s with up := s.up.close, down := s.down.close }
  | .discard => some { s with up := s.up.discard, down := s.down.discard }

def initial : State β := ⟨.idle, .idle, .empty, .empty⟩

def machine : Machine (State β) Action where
  Start s := s = initial
  step := step offerer answerer peers

/-! ## What is asked of a run -/

/-- A failure that the other side has no part in: of the own peer connection, of what is sent, or of the channel. -/
def SignalError.Local : SignalError → Prop
  | .peer | .localSdpSize | .encodedSize | .cancelled | .closed => True
  | _ => False

/-- A step of the exchange itself. -/
def Action.Proceeds : Action → Prop
  | .sendOffer .. | .recvOffer | .sendAnswer | .recvAnswer => True
  | _ => False

/-- The answerer has given this offer to its peer connection. -/
def AnswererState.Heard (answerer : AnswererState) (offer : String) : Prop :=
  (∃ id answer, answerer = .taken id offer answer) ∨ ∃ answer, answerer = .done offer answer

/-- The sides agree on the descriptions, neither refuses what the other has sent, and a negotiation without a failure
goes on until both are done. -/
structure Sound (s : State β) : Prop where
  heard : ∀ offer, s.answerer.Heard offer → peers.offer = some offer ∧ sdpInBounds offer = true
  agreed : ∀ answer, s.offerer = .done answer → ∃ offer, peers.offer = some offer ∧ s.answerer = .done offer answer ∧
    peers.answer offer = some answer ∧ sdpInBounds answer = true
  offerer_failed : ∀ error, s.offerer = .failed error → error.Local
  answerer_failed : ∀ error, s.answerer = .failed error → error.Local
  goes_on : s.up.closed = false → s.down.closed = false → (∀ error, s.offerer ≠ .failed error) →
    (∀ error, s.answerer ≠ .failed error) →
    (∃ offer answer, s.offerer = .done answer ∧ s.answerer = .done offer answer) ∨
      ∃ action t, action.Proceeds ∧ step offerer answerer peers s action = some t

end Rtvbp.Signaling
