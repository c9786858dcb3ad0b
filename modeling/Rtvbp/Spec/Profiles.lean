import Rtvbp.Negotiation.Rule
import Rtvbp.Spec.Validate

/-!
# The profile registry

The registry of transports, media formats, signaling methods and profiles of `spec/crates/rtvbp-spec-model/src/profile.rs`
with its validator, and what `spec/crates/rtvbp-spec-gen/src/emit/profiles.rs` makes of it for the three SDKs: the
constants, the order of preference, and the test vectors of the negotiation.
-/

namespace Rtvbp.Spec

open Rtvbp.Negotiation (Token tokenChar Decision)

/-- `ControlCarrier`. -/
inductive ControlCarrier where
  | memory
  | webSocketText

/-- `MediaCarrier`. -/
inductive MediaCarrier where
  | memory
  | webSocketBinary
  | webRtcRtp
  deriving DecidableEq

/-- `Debug` of a carrier. -/
def MediaCarrier.debug : MediaCarrier → String
  | .memory => "Memory"
  | .webSocketBinary => "WebSocketBinary"
  | .webRtcRtp => "WebRtcRtp"

/-- `TransportSpec`. -/
structure TransportSpec where
  id : String
  description : String
  control : ControlCarrier
  mediaCarriers : List MediaCarrier

/-- `MediaFormatSpec`. -/
structure MediaFormatSpec where
  id : String
  encoding : String
  sampleRate : UInt32
  bitDepth : UInt16
  channels : UInt16
  packetTimeMs : UInt32

/-- `SignalingSpec`. -/
structure SignalingSpec where
  method : String
  transport : String
  description : String

/-- `ProfileMediaSpec`. -/
structure ProfileMediaSpec where
  channel : String
  carrier : MediaCarrier
  wireFormat : String
  sdkFormat : String

/-- `ProfileSpec`. -/
structure ProfileSpec where
  id : String
  negotiationToken : String
  transport : String
  envelope : String
  catalog : CatalogId
  signaling : List String
  media : List ProfileMediaSpec

/-- `NegotiationSpec`. The only negotiation transport is the WebSocket subprotocol. -/
structure NegotiationSpec where
  /-- Profile ids in the order of the accepting endpoint. -/
  serverPreference : List String
  defaultProfile : String
  headerlessProfile : Option String

/-- `ProfileRegistry`. -/
structure ProfileRegistry where
  transports : List TransportSpec
  mediaFormats : List MediaFormatSpec
  signaling : List SignalingSpec
  profiles : List ProfileSpec
  negotiation : NegotiationSpec

/-- `Display` of a catalog id. -/
def CatalogId.display (id : CatalogId) : String := id.name ++ ".v" ++ toString id.major

/-! ## The validator -/

/-- `ProfileValidationError::Invalid`. -/
structure ProfileValidationError where
  location : String
  message : String
  deriving DecidableEq

/-- `issue`, if the condition holds. -/
def issueIf (condition : Bool) (location message : String) : List ProfileValidationError :=
  if condition then [⟨location, message⟩] else []

/-- `require_text`. -/
def requireText (location value : String) : List ProfileValidationError :=
  issueIf (isBlank value) location "must be non-empty"

/-- `valid_websocket_token`. -/
def validWebsocketToken (value : String) : Bool := value ≠ "" && value.toList.all tokenChar

/-- The item that a map holds for a key after these insertions: the last one. -/
def lastOf {α : Type} (key : α → String) (items : List α) (name : String) : Option α :=
  items.reverse.find? fun item => key item = name

/-- The loop over the carriers of a transport. -/
def carrierIssues (transport : String) (seen : List MediaCarrier) : List MediaCarrier → List ProfileValidationError
  | [] => []
  | carrier :: carriers =>
    issueIf (seen.contains carrier) s!"transport {transport.quote}" s!"duplicate media carrier {carrier.debug}" ++
      carrierIssues transport (carrier :: seen) carriers

/-- The loop over the transports. -/
def transportIssues (seen : List String) : List TransportSpec → List ProfileValidationError
  | [] => []
  | transport :: transports =>
    requireText "transport id" transport.id ++
      requireText s!"transport {transport.id.quote} description" transport.description ++
      issueIf (seen.contains transport.id) "transports" s!"duplicate transport {transport.id.quote}" ++
      carrierIssues transport.id [] transport.mediaCarriers ++
      transportIssues (transport.id :: seen) transports

/-- The loop over the media formats. -/
def formatIssues (seen : List String) : List MediaFormatSpec → List ProfileValidationError
  | [] => []
  | format :: formats =>
    requireText "media format id" format.id ++
      requireText s!"media format {format.id.quote} encoding" format.encoding ++
      issueIf (seen.contains format.id) "media formats" s!"duplicate media format {format.id.quote}" ++
      issueIf (format.sampleRate = 0 || format.bitDepth = 0 || format.channels = 0 || format.packetTimeMs = 0)
        s!"media format {format.id.quote}" "sample rate, bit depth, channels and packet time must be positive" ++
      formatIssues (format.id :: seen) formats

/-- The loop over the signaling methods. -/
def signalingIssues (transports : List TransportSpec) (seen : List String) :
    List SignalingSpec → List ProfileValidationError
  | [] => []
  | signal :: signals =>
    issueIf (!reservedTransportMethodPrefix.toList.isPrefixOf signal.method.toList ||
        signal.method.utf8ByteSize = reservedTransportMethodPrefix.utf8ByteSize)
        "signaling" s!"method {signal.method.quote} must use the reserved transport.* namespace" ++
      requireText s!"signaling {signal.method.quote} description" signal.description ++
      issueIf (seen.contains signal.method) "signaling" s!"duplicate signaling method {signal.method.quote}" ++
      issueIf (lastOf TransportSpec.id transports signal.transport).isNone s!"signaling {signal.method.quote}"
        s!"unknown transport {signal.transport.quote}" ++
      signalingIssues transports (signal.method :: seen) signals

/-- The issue of a reference to a signaling method. -/
def signalReferenceIssues (registry : ProfileRegistry) (profile : ProfileSpec) (method : String) :
    List ProfileValidationError :=
  match lastOf SignalingSpec.method registry.signaling method with
  | none => [⟨s!"profile {profile.id.quote}", s!"unknown signaling method {method.quote}"⟩]
  | some signal =>
    issueIf (signal.transport ≠ profile.transport) s!"profile {profile.id.quote}"
      s!"signaling method {method.quote} belongs to transport {signal.transport.quote}"

/-- The loop over the signaling references of a profile. -/
def signalReferencesIssues (registry : ProfileRegistry) (profile : ProfileSpec) (seen : List String) :
    List String → List ProfileValidationError
  | [] => []
  | method :: methods =>
    issueIf (seen.contains method) s!"profile {profile.id.quote}" s!"duplicate signaling reference {method.quote}" ++
      signalReferenceIssues registry profile method ++
      signalReferencesIssues registry profile (method :: seen) methods

/-- The issues of a media channel after those of the channels `seen`. -/
def mediaIssues (registry : ProfileRegistry) (profile : ProfileSpec) (transport : TransportSpec) (seen : List String)
    (media : ProfileMediaSpec) : List ProfileValidationError :=
  let location := s!"profile {profile.id.quote} media {media.channel.quote}"
  issueIf (isBlank media.channel || seen.contains media.channel) s!"profile {profile.id.quote}"
      s!"blank or duplicate media channel {media.channel.quote}" ++
    issueIf (!transport.mediaCarriers.contains media.carrier) location
      s!"carrier {media.carrier.debug} is not supported by transport {profile.transport.quote}" ++
    issueIf (!(registry.mediaFormats.map MediaFormatSpec.id).contains media.wireFormat) location
      s!"unknown wire format {media.wireFormat.quote}" ++
    issueIf (!(registry.mediaFormats.map MediaFormatSpec.id).contains media.sdkFormat) location
      s!"unknown SDK format {media.sdkFormat.quote}"

/-- The loop over the media channels of a profile. A blank channel is not inserted. -/
def mediasIssues (registry : ProfileRegistry) (profile : ProfileSpec) (transport : TransportSpec)
    (seen : List String) : List ProfileMediaSpec → List ProfileValidationError
  | [] => []
  | media :: medias =>
    mediaIssues registry profile transport seen media ++
      mediasIssues registry profile transport (if isBlank media.channel then seen else media.channel :: seen) medias

/-- The issues of the composition of a profile. -/
def compositionIssues (registry : ProfileRegistry) (catalogIds envelopeIds : List String) (profile : ProfileSpec) :
    List ProfileValidationError :=
  let location := s!"profile {profile.id.quote}"
  match lastOf TransportSpec.id registry.transports profile.transport with
  | none => [⟨location, s!"unknown transport {profile.transport.quote}"⟩]
  | some transport =>
    issueIf (!envelopeIds.contains profile.envelope) location s!"unknown envelope {profile.envelope.quote}" ++
      issueIf (!catalogIds.contains profile.catalog.display) location
        s!"unknown catalog {profile.catalog.display.quote}" ++
      signalReferencesIssues registry profile [] profile.signaling ++
      mediasIssues registry profile transport [] profile.media

/-- The loop over the profiles, after those with these ids and tokens. -/
def profileIssues (registry : ProfileRegistry) (catalogIds envelopeIds : List String) (ids tokens : List String) :
    List ProfileSpec → List ProfileValidationError
  | [] => []
  | profile :: profiles =>
    requireText "profile id" profile.id ++
      issueIf (ids.contains profile.id) "profiles" s!"duplicate profile {profile.id.quote}" ++
      issueIf (!validWebsocketToken profile.negotiationToken) s!"profile {profile.id.quote}"
        s!"negotiation token {profile.negotiationToken.quote} is not a valid WebSocket subprotocol token" ++
      issueIf (tokens.contains profile.negotiationToken) "profiles"
        s!"duplicate negotiation token {profile.negotiationToken.quote}" ++
      compositionIssues registry catalogIds envelopeIds profile ++
      profileIssues registry catalogIds envelopeIds (profile.id :: ids) (profile.negotiationToken :: tokens) profiles

/-- The loop over the server preference. -/
def preferenceIssues (profileIds seen : List String) : List String → List ProfileValidationError
  | [] => []
  | profile :: profiles =>
    issueIf (seen.contains profile) "negotiation" s!"duplicate server-preference profile {profile.quote}" ++
      issueIf (!profileIds.contains profile) "negotiation" s!"unknown server-preference profile {profile.quote}" ++
      preferenceIssues profileIds (profile :: seen) profiles

/-- The issues of the headerless profile. -/
def headerlessIssues (profileIds : List String) (defaultProfile : String) :
    Option String → List ProfileValidationError
  | none => []
  | some headerless =>
    issueIf (!profileIds.contains headerless) "negotiation" s!"headerless profile {headerless.quote} is unknown" ++
      issueIf (headerless ≠ defaultProfile) "negotiation"
        "headerless profile must equal the default profile to avoid ambiguous fallback"

/-- The issues of the negotiation. -/
def negotiationIssues (registry : ProfileRegistry) : List ProfileValidationError :=
  let profileIds := registry.profiles.map ProfileSpec.id
  let negotiation := registry.negotiation
  preferenceIssues profileIds [] negotiation.serverPreference ++
    profileIds.flatMap (fun id => issueIf (!negotiation.serverPreference.contains id) "negotiation"
      s!"profile {id.quote} is absent from server preference") ++
    issueIf (!profileIds.contains negotiation.defaultProfile) "negotiation"
      s!"default profile {negotiation.defaultProfile.quote} is unknown" ++
    headerlessIssues profileIds negotiation.defaultProfile negotiation.headerlessProfile

variable {σ ν : Type}

/-- The issues that `ProfileRegistry::validate` collects. -/
def ProfileRegistry.issues (registry : ProfileRegistry) (catalogs : List (Catalog σ ν))
    (envelopes : List Envelope.EnvelopeSpec) : List ProfileValidationError :=
  transportIssues [] registry.transports ++ formatIssues [] registry.mediaFormats ++
    signalingIssues registry.transports [] registry.signaling ++
    profileIssues registry (catalogs.map fun catalog => catalog.id.display)
      (envelopes.map Envelope.EnvelopeSpec.id) [] [] registry.profiles ++
    negotiationIssues registry

/-- `ProfileRegistry::validate`. -/
def ProfileRegistry.validate (registry : ProfileRegistry) (catalogs : List (Catalog σ ν))
    (envelopes : List Envelope.EnvelopeSpec) : Except (List ProfileValidationError) Unit :=
  if (registry.issues catalogs envelopes).isEmpty then .ok () else .error (registry.issues catalogs envelopes)

/-! ## What the emitters write -/

/-- `ProfileEmitError`. -/
inductive ProfileEmitError where
  | missingHeaderlessProfile
  | missingProfile (id : String)

/-- What the negotiation of an SDK uses of its generated file: the constants with their values, and the constants
that stand for the default profile, for the headerless one, and in the order of preference. -/
structure ProfileConstants where
  constants : List (String × String)
  defaultProfile : String
  headerless : String
  serverPreference : List String

/-- `find_profile`. -/
def ProfileRegistry.findProfile (registry : ProfileRegistry) (id : String) : Except ProfileEmitError ProfileSpec :=
  match registry.profiles.find? fun profile => profile.id = id with
  | some profile => .ok profile
  | none => .error (.missingProfile id)

/-- What the three emitters have in common; `constant` and `signalingConstant` name the constants. -/
def ProfileRegistry.emitConstants (registry : ProfileRegistry) (constant signalingConstant : String → String) :
    Except ProfileEmitError ProfileConstants :=
  match registry.negotiation.headerlessProfile with
  | none => .error .missingHeaderlessProfile
  | some headerless =>
    .ok
      { constants :=
          registry.profiles.map (fun profile => (constant profile.id, profile.negotiationToken)) ++
            registry.signaling.map fun signal => (signalingConstant signal.method, signal.method)
        defaultProfile := constant registry.negotiation.defaultProfile
        headerless := constant headerless
        serverPreference := registry.negotiation.serverPreference.map constant }

/-- `words`. -/
def profileWords (value : String) : List (List Char) :=
  ((value.toList.splitOnP fun c => !c.isAlphanum).filter fun part => !part.isEmpty).map (List.map Char.toLower)

/-- `pascal_words`. -/
def pascalWords (value : String) : List Char :=
  (profileWords value).flatMap fun word =>
    match word with
    | [] => []
    | first :: rest => first.toUpper :: rest

/-- `go_constant` and `go_signaling_constant`. -/
def goConstant (value : String) : String := String.ofList ("Profile".toList ++ pascalWords value)
def goSignalingConstant (value : String) : String := String.ofList ("Signaling".toList ++ pascalWords value)

/-- The words of a constant of Rust and TypeScript. -/
def screamingWords (value : String) : List Char := (List.intercalate ['_'] (profileWords value)).map Char.toUpper

/-- `rust_constant`, which is also `typescript_constant`, and `rust_signaling_constant`. -/
def rustConstant (value : String) : String := String.ofList ("PROFILE_".toList ++ screamingWords value)
def rustSignalingConstant (value : String) : String := String.ofList ("SIGNALING_".toList ++ screamingWords value)

/-- `emit_go_profiles`, which looks the profiles of the preference up. -/
def emitGoProfiles (registry : ProfileRegistry) : Except ProfileEmitError ProfileConstants := do
  let file ← registry.emitConstants goConstant goSignalingConstant
  let preference ← registry.negotiation.serverPreference.mapM fun id =>
    (registry.findProfile id).map fun profile => goConstant profile.id
  return { file with serverPreference := preference }

/-- `emit_rust_profiles`. -/
def emitRustProfiles (registry : ProfileRegistry) : Except ProfileEmitError ProfileConstants :=
  registry.emitConstants rustConstant rustSignalingConstant

/-- `emit_typescript_profiles`. -/
def emitTypescriptProfiles (registry : ProfileRegistry) : Except ProfileEmitError ProfileConstants :=
  registry.emitConstants rustConstant rustSignalingConstant

/-- The names of the constants are distinct, so that the file compiles. -/
def ProfileConstants.Unique (file : ProfileConstants) : Prop := (file.constants.map Prod.fst).Nodup

/-- The tokens that the file prefers. -/
def ProfileConstants.tokens (file : ProfileConstants) : List (Option String) :=
  file.serverPreference.map fun name => file.constants.lookup name

/-- A valid test vector of the negotiation. -/
structure ValidVector where
  name : String
  offered : List String
  selectedToken : Option String
  effectiveProfile : String

/-- An invalid test vector of the negotiation. -/
structure InvalidVector where
  name : String
  offered : List String
  error : String

/-- The vector without an offer. -/
def headerlessVectors : Option String → List ValidVector
  | none => []
  | some headerless =>
    [{ name := "headerless-default", offered := [], selectedToken := none, effectiveProfile := headerless }]

/-- The vector that offers the token of one profile. -/
def explicitVector (profile : ProfileSpec) : ValidVector where
  name := "explicit-" ++ profile.id
  offered := [profile.negotiationToken]
  selectedToken := some profile.negotiationToken
  effectiveProfile := profile.id

/-- The vectors of an unknown token, and of an empty one. -/
def invalidVectors : List InvalidVector :=
  [{ name := "unsupported-token", offered := ["rtvbp.unsupported.v999"], error := "unsupported-profile" },
    { name := "empty-token", offered := [""], error := "invalid-token" }]

/-- The vector that offers the tokens `reversed`, of all profiles against the order of preference. -/
def preferenceVectors (registry : ProfileRegistry) (reversed : List String) :
    Except ProfileEmitError (List ValidVector) :=
  match registry.negotiation.serverPreference with
  | [] => .ok []
  | selected :: _ =>
    (registry.findProfile selected).map fun profile =>
      [{ name := "server-preference", offered := reversed, selectedToken := some profile.negotiationToken,
         effectiveProfile := profile.id }]

/-- `emit_profile_vectors`. -/
def emitProfileVectors (registry : ProfileRegistry) :
    Except ProfileEmitError (List ValidVector × List InvalidVector) := do
  let reversed ← registry.negotiation.serverPreference.reverse.mapM fun id =>
    (registry.findProfile id).map ProfileSpec.negotiationToken
  let preferred ← preferenceVectors registry reversed
  return (headerlessVectors registry.negotiation.headerlessProfile ++ registry.profiles.map explicitVector ++ preferred,
    invalidVectors)

end Rtvbp.Spec

/-! ## The public registry -/

namespace Rtvbp.Spec

/-- `registry` of `rtvbp-spec-profiles/src/lib.rs`. -/
def registry : ProfileRegistry where
  transports :=
    [{ id := "ws.v1", description := "Semantic control in WebSocket text frames with optional binary media."
       control := .webSocketText, mediaCarriers := [.webSocketBinary] },
      { id := "webrtcws.v1", description := "Semantic control on WebSocket with RTP media on WebRTC."
        control := .webSocketText, mediaCarriers := [.webRtcRtp] }]
  mediaFormats :=
    [{ id := "l16-8000-16-1-20ms", encoding := "L16", sampleRate := 8000, bitDepth := 16, channels := 1
       packetTimeMs := 20 },
      { id := "pcmu-8000-8-1-20ms", encoding := "PCMU", sampleRate := 8000, bitDepth := 8, channels := 1
        packetTimeMs := 20 }]
  signaling :=
    [{ method := "transport.webrtc.offer", transport := "webrtcws.v1"
       description := "Exchange a complete non-trickle SDP offer and correlated answer." }]
  profiles :=
    [{ id := "rtvbp.v1", negotiationToken := "rtvbp.v1", transport := "ws.v1", envelope := "classic.v1"
       catalog := ⟨"babelforce", 1⟩, signaling := []
       media := [{ channel := "audio", carrier := .webSocketBinary, wireFormat := "l16-8000-16-1-20ms"
                   sdkFormat := "l16-8000-16-1-20ms" }] },
      { id := "rtvbp.demo.v1", negotiationToken := "rtvbp.demo.v1", transport := "ws.v1", envelope := "classic.v1"
        catalog := ⟨"demo", 1⟩, signaling := [], media := [] },
      { id := "rtvbp.webrtc.v1", negotiationToken := "rtvbp.webrtc.v1", transport := "webrtcws.v1"
        envelope := "classic.v1", catalog := ⟨"babelforce", 1⟩, signaling := ["transport.webrtc.offer"]
        media := [{ channel := "audio", carrier := .webRtcRtp, wireFormat := "pcmu-8000-8-1-20ms"
                    sdkFormat := "l16-8000-16-1-20ms" }] }]
  negotiation :=
    { serverPreference := ["rtvbp.v1", "rtvbp.demo.v1", "rtvbp.webrtc.v1"]
      defaultProfile := "rtvbp.v1"
      headerlessProfile := some "rtvbp.v1" }

end Rtvbp.Spec

/-!
## Well-formed registries

What a registry is meant to be: every name is declared once, every reference is to a declaration, and the preference is
an order of all profiles.
-/

namespace Rtvbp.Spec

open Rtvbp.Negotiation (Token tokenChar)

variable {σ ν : Type}

/-- A transport with texts and different carriers. -/
structure TransportSpec.WellFormed (transport : TransportSpec) : Prop where
  id : isBlank transport.id = false
  description : isBlank transport.description = false
  carriers : transport.mediaCarriers.Nodup

/-- A media format with texts and positive numbers. -/
structure MediaFormatSpec.WellFormed (format : MediaFormatSpec) : Prop where
  id : isBlank format.id = false
  encoding : isBlank format.encoding = false
  positive : 0 < format.sampleRate ∧ 0 < format.bitDepth ∧ 0 < format.channels ∧ 0 < format.packetTimeMs

/-- A signaling method in the reserved namespace, of a declared transport. -/
structure SignalingSpec.WellFormed (registry : ProfileRegistry) (signal : SignalingSpec) : Prop where
  reserved : ∃ rest, rest ≠ [] ∧ signal.method.toList = reservedTransportMethodPrefix.toList ++ rest
  description : isBlank signal.description = false
  transport : ∃ transport ∈ registry.transports, transport.id = signal.transport

/-- A media channel of a profile: its transport has the carrier, and its formats are declared. -/
structure ProfileMediaSpec.WellFormed (registry : ProfileRegistry) (transport : TransportSpec)
    (media : ProfileMediaSpec) : Prop where
  channel : isBlank media.channel = false
  carrier : media.carrier ∈ transport.mediaCarriers
  wireFormat : ∃ format ∈ registry.mediaFormats, format.id = media.wireFormat
  sdkFormat : ∃ format ∈ registry.mediaFormats, format.id = media.sdkFormat

/-- A profile that is composed of declared parts. -/
structure ProfileSpec.WellFormed (registry : ProfileRegistry) (catalogs : List (Catalog σ ν))
    (envelopes : List Envelope.EnvelopeSpec) (profile : ProfileSpec) : Prop where
  id : isBlank profile.id = false
  token : ∃ token : Token, token.text = profile.negotiationToken
  envelope : ∃ envelope ∈ envelopes, envelope.id = profile.envelope
  catalog : ∃ catalog ∈ catalogs, catalog.id = profile.catalog
  signaling : ∀ method ∈ profile.signaling, ∃ signal ∈ registry.signaling,
    signal.method = method ∧ signal.transport = profile.transport
  signalingUnique : profile.signaling.Nodup
  media : ∃ transport ∈ registry.transports, transport.id = profile.transport ∧
    ∀ media ∈ profile.media, media.WellFormed registry transport
  channels : (profile.media.map ProfileMediaSpec.channel).Nodup

/-- A well-formed registry. -/
structure ProfileRegistry.WellFormed (registry : ProfileRegistry) (catalogs : List (Catalog σ ν))
    (envelopes : List Envelope.EnvelopeSpec) : Prop where
  transports : ∀ transport ∈ registry.transports, transport.WellFormed
  transportIds : (registry.transports.map TransportSpec.id).Nodup
  formats : ∀ format ∈ registry.mediaFormats, format.WellFormed
  formatIds : (registry.mediaFormats.map MediaFormatSpec.id).Nodup
  signaling : ∀ signal ∈ registry.signaling, signal.WellFormed registry
  methods : (registry.signaling.map SignalingSpec.method).Nodup
  profiles : ∀ profile ∈ registry.profiles, profile.WellFormed registry catalogs envelopes
  profileIds : (registry.profiles.map ProfileSpec.id).Nodup
  tokens : (registry.profiles.map ProfileSpec.negotiationToken).Nodup
  preference : registry.negotiation.serverPreference.Perm (registry.profiles.map ProfileSpec.id)
  defaultProfile : ∃ profile ∈ registry.profiles, profile.id = registry.negotiation.defaultProfile
  headerless : ∀ id, registry.negotiation.headerlessProfile = some id → id = registry.negotiation.defaultProfile

/-! ## What the generated files are meant to be -/

/-- The tokens of the profiles in the order of preference. -/
def ProfileRegistry.supported (registry : ProfileRegistry) : List String :=
  registry.negotiation.serverPreference.filterMap fun id =>
    (registry.profiles.find? fun profile => profile.id = id).map ProfileSpec.negotiationToken

/-- The file prefers the tokens of the registry, and the token of a headerless peer is that of the default profile. -/
structure ProfileConstants.Renders (registry : ProfileRegistry) (file : ProfileConstants) : Prop where
  tokens : file.tokens = registry.supported.map some
  headerless : ∃ profile ∈ registry.profiles, profile.id = registry.negotiation.defaultProfile ∧
    file.constants.lookup file.defaultProfile = some profile.negotiationToken ∧
    file.constants.lookup file.headerless = some profile.negotiationToken

/-- The vector can be offered, and it is what the rule of the servers selects. -/
structure ValidVector.Selected (registry : ProfileRegistry) (vector : ValidVector) : Prop where
  offerable : ∃ offered : List Token, offered.map Token.text = vector.offered
  selected : ∀ offered : List Token, offered.map Token.text = vector.offered →
    (offered = [] ∧ vector.selectedToken = none ∧ vector.effectiveProfile = registry.negotiation.defaultProfile) ∨
    ∃ profile ∈ registry.profiles, profile.id = vector.effectiveProfile ∧
      vector.selectedToken = some profile.negotiationToken ∧
      Negotiation.rule registry.supported offered =
        .accepted (some profile.negotiationToken) profile.negotiationToken

/-- The vector cannot be offered, or it is rejected unless a profile has its token. -/
structure InvalidVector.Refused (registry : ProfileRegistry) (vector : InvalidVector) : Prop where
  unofferable : vector.error = "invalid-token" → ¬ ∃ offered : List Token, offered.map Token.text = vector.offered
  rejected : vector.error = "unsupported-profile" → ∀ offered : List Token, offered.map Token.text = vector.offered →
    (Negotiation.rule registry.supported offered = .rejected ↔
      ∀ profile ∈ registry.profiles, profile.negotiationToken ∉ vector.offered)

end Rtvbp.Spec
