import Rtvbp.Spec.Profiles
import Rtvbp.Spec.Proofs.ValidateProofs
import Std.Data.String.ToNat

/-!
# Proofs: the profile registry

The registry validator accepts exactly the well-formed registries. For such a registry the generated files of the three
SDKs prefer the same tokens, and the test vectors of the negotiation are what the rule of the servers does with them.
-/

namespace Rtvbp.Spec

open Rtvbp.Lib
open Rtvbp.Negotiation (Token tokenChar Decision rule offers)

/-! ## Issues -/

theorem issueIf_eq_nil_iff {condition : Bool} {location message : String} :
    issueIf condition location message = [] ↔ condition = false := by
  cases condition <;> simp [issueIf]

theorem requireText_eq_nil_iff {location value : String} : requireText location value = [] ↔ isBlank value = false :=
  issueIf_eq_nil_iff

/-- A token is what `valid_websocket_token` accepts. -/
theorem validWebsocketToken_iff {value : String} :
    validWebsocketToken value = true ↔ ∃ token : Token, token.text = value := by
  simp only [validWebsocketToken, Bool.and_eq_true, decide_eq_true_eq, List.all_eq_true]
  constructor
  · rintro ⟨hne, hchars⟩
    exact ⟨⟨value, hne, hchars⟩, rfl⟩
  · rintro ⟨token, rfl⟩
    exact ⟨token.nonempty, token.chars⟩

section LastOf

variable {α : Type} {key : α → String} {items : List α} {name : String} {item : α}

theorem mem_of_lastOf (h : lastOf key items name = some item) : item ∈ items ∧ key item = name := by
  refine ⟨List.mem_reverse.mp (List.mem_of_find?_eq_some h), ?_⟩
  simpa using List.find?_some h

theorem lastOf_isNone_iff : (lastOf key items name).isNone = false ↔ ∃ item ∈ items, key item = name := by
  rw [Option.isNone_eq_false_iff, lastOf, List.find?_isSome]
  simp

/-- Where the keys are distinct, the map holds the item of a key. -/
theorem lastOf_eq_some_iff (h : (items.map key).Nodup) :
    lastOf key items name = some item ↔ item ∈ items ∧ key item = name := by
  refine ⟨mem_of_lastOf, ?_⟩
  rintro ⟨hmem, rfl⟩
  obtain ⟨other, hother⟩ := Option.isSome_iff_exists.mp
    (Option.isNone_eq_false_iff.mp (lastOf_isNone_iff.2 ⟨item, hmem, rfl⟩))
  obtain ⟨hmem', hkey⟩ := mem_of_lastOf hother
  rw [hother, List.inj_on_of_nodup_map h hmem' hmem hkey]

end LastOf

/-- What stands before the last occurrence of a character, and what stands after it. -/
theorem append_cons_inj_of_notMem_right {α : Type} {c : α} {xs xs' ys ys' : List α} (h : c ∉ ys) (h' : c ∉ ys')
    (heq : xs ++ c :: ys = xs' ++ c :: ys') : xs = xs' ∧ ys = ys' := by
  rcases List.append_eq_append_iff.mp heq with ⟨between, hxs, hys⟩ | ⟨between, hxs, hys⟩
  · cases between with
    | nil => exact ⟨by simpa using hxs.symm, by simpa using hys⟩
    | cons first rest =>
      obtain ⟨rfl, rfl⟩ := List.cons.inj hys
      exact absurd (by simp) h
  · cases between with
    | nil => exact ⟨by simpa using hxs, by simpa using hys.symm⟩
    | cons first rest =>
      obtain ⟨rfl, rfl⟩ := List.cons.inj hys
      exact absurd (by simp) h'

/-- Different catalogs are displayed differently. -/
theorem CatalogId.display_injective {a b : CatalogId} (h : a.display = b.display) : a = b := by
  have hdigits : ∀ major : UInt32, 'v' ∉ (toString major).toList := by
    intro major hmem
    rw [show toString major = Nat.repr major.toNat from rfl, Nat.toList_repr] at hmem
    have hdigit := Nat.isDigit_of_mem_toDigits (by decide) (by decide) hmem
    exact absurd hdigit (by decide)
  have hsplit : ∀ id : CatalogId, id.display.toList = (id.name.toList ++ ['.']) ++ 'v' :: (toString id.major).toList :=
    fun id => by simp [CatalogId.display]
  have heq := congrArg String.toList h
  rw [hsplit, hsplit] at heq
  obtain ⟨hname, hmajor⟩ := append_cons_inj_of_notMem_right (hdigits a.major) (hdigits b.major) heq
  rcases a with ⟨name, major⟩
  rcases b with ⟨name', major'⟩
  obtain rfl := String.toList_inj.mp (List.append_cancel_right hname)
  have hrepr : Nat.repr major.toNat = Nat.repr major'.toNat := String.toList_inj.mp hmajor
  rw [UInt32.toNat_inj.mp (Nat.repr_injective hrepr)]

/-! ## The loops of the validator -/

theorem carrierIssues_eq_nil_iff {transport : String} {carriers : List MediaCarrier} :
    ∀ seen : List MediaCarrier, carrierIssues transport seen carriers = [] ↔
      carriers.Nodup ∧ ∀ carrier ∈ carriers, carrier ∉ seen := by
  induction carriers with
  | nil => simp [carrierIssues]
  | cons carrier carriers ih =>
    intro seen
    have hcons := @new_names_cons _ _ id (fun _ => True) seen carrier carriers
    simp only [id_eq, List.map_id_fun, and_true] at hcons
    rw [← hcons, ← ih, carrierIssues, List.append_eq_nil_iff, issueIf_eq_nil_iff]
    simp

theorem transportIssues_eq_nil_iff {transports : List TransportSpec} :
    ∀ seen : List String, transportIssues seen transports = [] ↔ (transports.map TransportSpec.id).Nodup ∧
      ∀ transport ∈ transports, transport.id ∉ seen ∧ transport.WellFormed := by
  induction transports with
  | nil => simp [transportIssues]
  | cons transport transports ih =>
    intro seen
    rw [← new_names_cons, ← ih, transportIssues]
    simp only [List.append_eq_nil_iff, requireText_eq_nil_iff, issueIf_eq_nil_iff, carrierIssues_eq_nil_iff,
      List.contains_eq_mem, decide_eq_false_iff_not]
    constructor
    · rintro ⟨⟨⟨⟨hid, hdescription⟩, hnew⟩, hcarriers⟩, hrest⟩
      exact ⟨⟨hnew, hid, hdescription, hcarriers.1⟩, hrest⟩
    · rintro ⟨⟨hnew, h⟩, hrest⟩
      exact ⟨⟨⟨⟨h.id, h.description⟩, hnew⟩, h.carriers, by simp⟩, hrest⟩

theorem formatIssues_eq_nil_iff {formats : List MediaFormatSpec} :
    ∀ seen : List String, formatIssues seen formats = [] ↔ (formats.map MediaFormatSpec.id).Nodup ∧
      ∀ format ∈ formats, format.id ∉ seen ∧ format.WellFormed := by
  induction formats with
  | nil => simp [formatIssues]
  | cons format formats ih =>
    intro seen
    rw [← new_names_cons, ← ih, formatIssues]
    simp only [List.append_eq_nil_iff, requireText_eq_nil_iff, issueIf_eq_nil_iff, List.contains_eq_mem,
      decide_eq_false_iff_not, Bool.or_eq_false_iff]
    constructor
    · rintro ⟨⟨⟨⟨hid, hencoding⟩, hnew⟩, ⟨⟨hrate, hdepth⟩, hchannels⟩, htime⟩, hrest⟩
      refine ⟨⟨hnew, hid, hencoding, ?_⟩, hrest⟩
      exact ⟨UInt32.pos_iff_ne_zero.mpr hrate, UInt16.pos_iff_ne_zero.mpr hdepth, UInt16.pos_iff_ne_zero.mpr hchannels,
        UInt32.pos_iff_ne_zero.mpr htime⟩
    · rintro ⟨⟨hnew, h⟩, hrest⟩
      obtain ⟨hrate, hdepth, hchannels, htime⟩ := h.positive
      exact ⟨⟨⟨⟨h.id, h.encoding⟩, hnew⟩, ⟨⟨UInt32.pos_iff_ne_zero.mp hrate, UInt16.pos_iff_ne_zero.mp hdepth⟩,
        UInt16.pos_iff_ne_zero.mp hchannels⟩, UInt32.pos_iff_ne_zero.mp htime⟩, hrest⟩

section Registry

variable {σ ν : Type} {registry : ProfileRegistry} {catalogs : List (Catalog σ ν)}
  {envelopes : List Envelope.EnvelopeSpec}

/-- A method is in the reserved namespace if something follows the prefix. -/
theorem reserved_iff {method : String} :
    (!reservedTransportMethodPrefix.toList.isPrefixOf method.toList ||
        decide (method.utf8ByteSize = reservedTransportMethodPrefix.utf8ByteSize)) = false ↔
      ∃ rest, rest ≠ [] ∧ method.toList = reservedTransportMethodPrefix.toList ++ rest := by
  simp only [Bool.or_eq_false_iff, Bool.not_eq_false', List.isPrefixOf_iff_prefix, decide_eq_false_iff_not]
  constructor
  · rintro ⟨⟨rest, hrest⟩, hlength⟩
    refine ⟨rest, ?_, hrest.symm⟩
    rintro rfl
    refine hlength (congrArg String.utf8ByteSize (String.toList_inj.mp ?_))
    rw [← hrest, List.append_nil]
  · rintro ⟨rest, hne, heq⟩
    refine ⟨⟨rest, heq.symm⟩, fun hlength => hne ?_⟩
    have hmethod : method = reservedTransportMethodPrefix ++ String.ofList rest :=
      String.toList_inj.mp (by rw [heq, String.toList_append, String.toList_ofList])
    rw [hmethod, String.utf8ByteSize_append] at hlength
    have hempty : String.ofList rest = "" := String.utf8ByteSize_eq_zero_iff.mp (by omega)
    simpa using hempty

theorem signalingIssues_eq_nil_iff {signals : List SignalingSpec} :
    ∀ seen : List String, signalingIssues registry.transports seen signals = [] ↔
      (signals.map SignalingSpec.method).Nodup ∧
        ∀ signal ∈ signals, signal.method ∉ seen ∧ signal.WellFormed registry := by
  induction signals with
  | nil => simp [signalingIssues]
  | cons signal signals ih =>
    intro seen
    rw [← new_names_cons, ← ih, signalingIssues]
    simp only [List.append_eq_nil_iff, requireText_eq_nil_iff, issueIf_eq_nil_iff, reserved_iff, lastOf_isNone_iff,
      List.contains_eq_mem, decide_eq_false_iff_not]
    constructor
    · rintro ⟨⟨⟨⟨hreserved, hdescription⟩, hnew⟩, htransport⟩, hrest⟩
      exact ⟨⟨hnew, hreserved, hdescription, htransport⟩, hrest⟩
    · rintro ⟨⟨hnew, h⟩, hrest⟩
      exact ⟨⟨⟨⟨h.reserved, h.description⟩, hnew⟩, h.transport⟩, hrest⟩

/-- A reference is to a declared method of the transport of the profile. -/
theorem signalReferenceIssues_eq_nil_iff (hmethods : (registry.signaling.map SignalingSpec.method).Nodup)
    {profile : ProfileSpec} {method : String} :
    signalReferenceIssues registry profile method = [] ↔
      ∃ signal ∈ registry.signaling, signal.method = method ∧ signal.transport = profile.transport := by
  have hlast : ∀ signal, lastOf SignalingSpec.method registry.signaling method = some signal ↔
      signal ∈ registry.signaling ∧ signal.method = method := fun signal => lastOf_eq_some_iff hmethods
  unfold signalReferenceIssues
  constructor
  · intro h
    split at h
    · cases h
    · next signal hsignal =>
      obtain ⟨hmem, hmethod⟩ := (hlast signal).mp hsignal
      exact ⟨signal, hmem, hmethod, by simpa [issueIf_eq_nil_iff] using h⟩
  · rintro ⟨signal, hmem, hmethod, htransport⟩
    rw [(hlast signal).mpr ⟨hmem, hmethod⟩]
    simp [issueIf_eq_nil_iff, htransport]

theorem signalReferencesIssues_eq_nil_iff (hmethods : (registry.signaling.map SignalingSpec.method).Nodup)
    {profile : ProfileSpec} {methods : List String} :
    ∀ seen : List String, signalReferencesIssues registry profile seen methods = [] ↔
      methods.Nodup ∧ ∀ method ∈ methods, method ∉ seen ∧
        ∃ signal ∈ registry.signaling, signal.method = method ∧ signal.transport = profile.transport := by
  induction methods with
  | nil => simp [signalReferencesIssues]
  | cons method methods ih =>
    intro seen
    have hcons := @new_names_cons _ _ id (fun method => ∃ signal ∈ registry.signaling, signal.method = method ∧
      signal.transport = profile.transport) seen method methods
    simp only [id_eq, List.map_id_fun] at hcons
    rw [← hcons, ← ih, signalReferencesIssues, List.append_eq_nil_iff, List.append_eq_nil_iff, issueIf_eq_nil_iff,
      signalReferenceIssues_eq_nil_iff hmethods]
    simp

theorem mediaIssues_eq_nil_iff {profile : ProfileSpec} {transport : TransportSpec} {seen : List String}
    {media : ProfileMediaSpec} :
    mediaIssues registry profile transport seen media = [] ↔
      media.channel ∉ seen ∧ media.WellFormed registry transport := by
  simp only [mediaIssues, List.append_eq_nil_iff, issueIf_eq_nil_iff, Bool.or_eq_false_iff, Bool.not_eq_false',
    List.contains_eq_mem, decide_eq_false_iff_not, decide_eq_true_eq, List.mem_map]
  constructor
  · rintro ⟨⟨⟨⟨hblank, hnew⟩, hcarrier⟩, hwire⟩, hsdk⟩
    exact ⟨hnew, hblank, hcarrier, hwire, hsdk⟩
  · rintro ⟨hnew, h⟩
    exact ⟨⟨⟨⟨h.channel, hnew⟩, h.carrier⟩, h.wireFormat⟩, h.sdkFormat⟩

theorem mediasIssues_eq_nil_iff {profile : ProfileSpec} {transport : TransportSpec} {medias : List ProfileMediaSpec} :
    ∀ seen : List String, mediasIssues registry profile transport seen medias = [] ↔
      (medias.map ProfileMediaSpec.channel).Nodup ∧
        ∀ media ∈ medias, media.channel ∉ seen ∧ media.WellFormed registry transport := by
  induction medias with
  | nil => simp [mediasIssues]
  | cons media medias ih =>
    intro seen
    rw [← new_names_cons, ← ih, mediasIssues, List.append_eq_nil_iff, mediaIssues_eq_nil_iff]
    refine and_congr_right fun h => ?_
    rw [h.2.channel]
    simp

theorem compositionIssues_eq_nil_iff (htransports : (registry.transports.map TransportSpec.id).Nodup)
    (hmethods : (registry.signaling.map SignalingSpec.method).Nodup) {profile : ProfileSpec} :
    compositionIssues registry (catalogs.map fun catalog => catalog.id.display)
        (envelopes.map Envelope.EnvelopeSpec.id) profile = [] ↔
      (∃ envelope ∈ envelopes, envelope.id = profile.envelope) ∧
        (∃ catalog ∈ catalogs, catalog.id = profile.catalog) ∧
        (∀ method ∈ profile.signaling, ∃ signal ∈ registry.signaling,
          signal.method = method ∧ signal.transport = profile.transport) ∧ profile.signaling.Nodup ∧
        (∃ transport ∈ registry.transports, transport.id = profile.transport ∧
          ∀ media ∈ profile.media, media.WellFormed registry transport) ∧
        (profile.media.map ProfileMediaSpec.channel).Nodup := by
  have hlast : ∀ transport, lastOf TransportSpec.id registry.transports profile.transport = some transport ↔
      transport ∈ registry.transports ∧ transport.id = profile.transport := fun transport => lastOf_eq_some_iff htransports
  have hcatalog : profile.catalog.display ∈ catalogs.map (fun catalog => catalog.id.display) ↔
      ∃ catalog ∈ catalogs, catalog.id = profile.catalog := by
    rw [List.mem_map]
    exact exists_congr fun catalog => and_congr_right fun _ => ⟨CatalogId.display_injective, congrArg _⟩
  unfold compositionIssues
  constructor
  · intro h
    split at h
    · cases h
    · next transport htransport =>
      simp only [List.append_eq_nil_iff, issueIf_eq_nil_iff, Bool.not_eq_false', List.contains_iff_mem,
        signalReferencesIssues_eq_nil_iff hmethods, mediasIssues_eq_nil_iff, hcatalog, List.not_mem_nil,
        not_false_eq_true, true_and] at h
      obtain ⟨⟨⟨henvelope, hcatalog⟩, hsignaling⟩, hmedia⟩ := h
      obtain ⟨hmem, hid⟩ := (hlast transport).mp htransport
      exact ⟨List.mem_map.mp henvelope, hcatalog, hsignaling.2, hsignaling.1, ⟨transport, hmem, hid, hmedia.2⟩, hmedia.1⟩
  · rintro ⟨henvelope, hcatalogs, hsignaling, hunique, ⟨transport, hmem, hid, hmedia⟩, hchannels⟩
    rw [(hlast transport).mpr ⟨hmem, hid⟩]
    simp only [List.append_eq_nil_iff, issueIf_eq_nil_iff, Bool.not_eq_false', List.contains_iff_mem,
      signalReferencesIssues_eq_nil_iff hmethods, mediasIssues_eq_nil_iff, hcatalog, List.not_mem_nil,
      not_false_eq_true, true_and]
    exact ⟨⟨⟨List.mem_map.mpr henvelope, hcatalogs⟩, hunique, hsignaling⟩, hchannels, hmedia⟩

theorem profileIssues_eq_nil_iff (htransports : (registry.transports.map TransportSpec.id).Nodup)
    (hmethods : (registry.signaling.map SignalingSpec.method).Nodup) {profiles : List ProfileSpec} :
    ∀ ids tokens : List String,
      profileIssues registry (catalogs.map fun catalog => catalog.id.display)
          (envelopes.map Envelope.EnvelopeSpec.id) ids tokens profiles = [] ↔
        ((profiles.map ProfileSpec.id).Nodup ∧
          ∀ profile ∈ profiles, profile.id ∉ ids ∧ profile.WellFormed registry catalogs envelopes) ∧
        (profiles.map ProfileSpec.negotiationToken).Nodup ∧
          ∀ profile ∈ profiles, profile.negotiationToken ∉ tokens ∧ True := by
  induction profiles with
  | nil => simp [profileIssues]
  | cons profile profiles ih =>
    intro ids tokens
    rw [← new_names_cons, ← new_names_cons, profileIssues]
    simp only [List.append_eq_nil_iff, requireText_eq_nil_iff, issueIf_eq_nil_iff, Bool.not_eq_false',
      validWebsocketToken_iff, List.contains_eq_mem, decide_eq_false_iff_not, ih,
      compositionIssues_eq_nil_iff htransports hmethods]
    constructor
    · rintro ⟨⟨⟨⟨⟨hid, hnew⟩, htoken⟩, hfresh⟩, henvelope, hcatalog, hsignaling, hunique, hmedia, hchannels⟩, hids, htokens⟩
      exact ⟨⟨⟨hnew, hid, htoken, henvelope, hcatalog, hsignaling, hunique, hmedia, hchannels⟩, hids⟩, ⟨hfresh, trivial⟩,
        htokens⟩
    · rintro ⟨⟨⟨hnew, h⟩, hids⟩, ⟨hfresh, -⟩, htokens⟩
      exact ⟨⟨⟨⟨⟨h.id, hnew⟩, h.token⟩, hfresh⟩, h.envelope, h.catalog, h.signaling, h.signalingUnique, h.media,
        h.channels⟩, hids, htokens⟩

theorem preferenceIssues_eq_nil_iff {profileIds preference : List String} :
    ∀ seen : List String, preferenceIssues profileIds seen preference = [] ↔
      preference.Nodup ∧ ∀ profile ∈ preference, profile ∉ seen ∧ profile ∈ profileIds := by
  induction preference with
  | nil => simp [preferenceIssues]
  | cons profile preference ih =>
    intro seen
    have hcons := @new_names_cons _ _ id (· ∈ profileIds) seen profile preference
    simp only [id_eq, List.map_id_fun] at hcons
    rw [← hcons, ← ih, preferenceIssues, List.append_eq_nil_iff, List.append_eq_nil_iff, issueIf_eq_nil_iff,
      issueIf_eq_nil_iff]
    simp

/-- The negotiation is in order if its preference is an order of the profiles, and its default is one of them. -/
theorem negotiationIssues_eq_nil_iff (hids : (registry.profiles.map ProfileSpec.id).Nodup) :
    negotiationIssues registry = [] ↔
      registry.negotiation.serverPreference.Perm (registry.profiles.map ProfileSpec.id) ∧
        (∃ profile ∈ registry.profiles, profile.id = registry.negotiation.defaultProfile) ∧
        ∀ id, registry.negotiation.headerlessProfile = some id → id = registry.negotiation.defaultProfile := by
  have hheaderless : headerlessIssues (registry.profiles.map ProfileSpec.id) registry.negotiation.defaultProfile
      registry.negotiation.headerlessProfile = [] ↔ ∀ id, registry.negotiation.headerlessProfile = some id →
        id ∈ registry.profiles.map ProfileSpec.id ∧ id = registry.negotiation.defaultProfile := by
    cases registry.negotiation.headerlessProfile <;> simp [headerlessIssues, issueIf_eq_nil_iff]
  simp only [negotiationIssues, List.append_eq_nil_iff, preferenceIssues_eq_nil_iff, List.flatMap_eq_nil_iff,
    issueIf_eq_nil_iff, Bool.not_eq_false', List.contains_iff_mem, hheaderless, List.not_mem_nil, not_false_eq_true,
    true_and]
  constructor
  · rintro ⟨⟨⟨⟨hunique, hknown⟩, hpresent⟩, hdefault⟩, hheaderless⟩
    refine ⟨(List.perm_ext_iff_of_nodup hunique hids).mpr fun id => ⟨hknown id, hpresent id⟩, List.mem_map.mp hdefault, ?_⟩
    exact fun id hid => (hheaderless id hid).2
  · rintro ⟨hperm, hdefault, hheaderless⟩
    refine ⟨⟨⟨⟨hperm.nodup_iff.mpr hids, fun id => hperm.mem_iff.mp⟩, fun id => hperm.mem_iff.mpr⟩,
      List.mem_map.mpr hdefault⟩, fun id hid => ?_⟩
    obtain rfl := hheaderless id hid
    exact ⟨List.mem_map.mpr hdefault, rfl⟩

/-- The registry validator has no issue with the well-formed registries only. -/
theorem ProfileRegistry.issues_eq_nil_iff :
    registry.issues catalogs envelopes = [] ↔ registry.WellFormed catalogs envelopes := by
  simp only [ProfileRegistry.issues, List.append_eq_nil_iff, transportIssues_eq_nil_iff, formatIssues_eq_nil_iff,
    signalingIssues_eq_nil_iff, List.not_mem_nil, not_false_eq_true, true_and]
  constructor
  · rintro ⟨⟨⟨⟨htransports, hformats⟩, hsignaling⟩, hprofiles⟩, hnegotiation⟩
    obtain ⟨⟨hids, hprofiles⟩, htokens, -⟩ := (profileIssues_eq_nil_iff htransports.1 hsignaling.1 [] []).mp hprofiles
    obtain ⟨hperm, hdefault, hheaderless⟩ := (negotiationIssues_eq_nil_iff hids).mp hnegotiation
    exact ⟨htransports.2, htransports.1, hformats.2, hformats.1, hsignaling.2, hsignaling.1,
      fun profile h => (hprofiles profile h).2, hids, htokens, hperm, hdefault, hheaderless⟩
  · intro h
    refine ⟨⟨⟨⟨⟨h.transportIds, h.transports⟩, h.formatIds, h.formats⟩, h.methods, h.signaling⟩, ?_⟩, ?_⟩
    · exact (profileIssues_eq_nil_iff h.transportIds h.methods [] []).mpr
        ⟨⟨h.profileIds, fun profile hmem => ⟨by simp, h.profiles profile hmem⟩⟩, h.tokens, by simp⟩
    · exact (negotiationIssues_eq_nil_iff h.profileIds).mpr ⟨h.preference, h.defaultProfile, h.headerless⟩

/-- The registry validator accepts exactly the well-formed registries. -/
theorem ProfileRegistry.validate_registry_iff :
    registry.validate catalogs envelopes = .ok () ↔ registry.WellFormed catalogs envelopes := by
  rw [← ProfileRegistry.issues_eq_nil_iff, ProfileRegistry.validate]
  split_ifs with hempty
  · simpa using hempty
  · simpa using hempty

end Registry

/-! ## The generated files -/

section Emitted

variable {α β ε : Type}

theorem mapM_eq_ok {f : α → Except ε β} {g : α → Option β} {items : List α}
    (h : ∀ item ∈ items, ∃ result, f item = .ok result ∧ g item = some result) :
    items.mapM f = .ok (items.filterMap g) := by
  induction items with
  | nil => rfl
  | cons item items ih =>
    obtain ⟨result, hf, hg⟩ := h item List.mem_cons_self
    rw [List.mapM_cons, hf, ih fun other hother => h other (List.mem_cons_of_mem _ hother), List.filterMap_cons, hg]
    rfl

end Emitted

section WellFormed

variable {σ ν : Type} {registry : ProfileRegistry} {catalogs : List (Catalog σ ν)}
  {envelopes : List Envelope.EnvelopeSpec} {profile : ProfileSpec} {file : ProfileConstants}

/-- The profile of an id. -/
theorem ProfileRegistry.WellFormed.find_profile (h : registry.WellFormed catalogs envelopes)
    (hprofile : profile ∈ registry.profiles) :
    (registry.profiles.find? fun other => other.id = profile.id) = some profile := by
  obtain ⟨other, hother⟩ := Option.isSome_iff_exists.mp
    (List.find?_isSome.mpr ⟨profile, hprofile, decide_eq_true rfl⟩ :
      (registry.profiles.find? fun other => other.id = profile.id).isSome = true)
  have hid : other.id = profile.id := by simpa using List.find?_some hother
  rw [hother, List.inj_on_of_nodup_map h.profileIds (List.mem_of_find?_eq_some hother) hprofile hid]

/-- The ids of the preference are those of profiles. -/
theorem ProfileRegistry.WellFormed.preferred (h : registry.WellFormed catalogs envelopes) {id : String}
    (hid : id ∈ registry.negotiation.serverPreference) : ∃ profile ∈ registry.profiles, profile.id = id :=
  List.mem_map.mp (h.preference.mem_iff.mp hid)

/-- The supported tokens are those of the profiles. -/
theorem ProfileRegistry.WellFormed.supported_perm (h : registry.WellFormed catalogs envelopes) :
    registry.supported.Perm (registry.profiles.map ProfileSpec.negotiationToken) := by
  have htokens : (registry.profiles.map ProfileSpec.id).filterMap (fun id =>
      (registry.profiles.find? fun profile => profile.id = id).map ProfileSpec.negotiationToken) =
        registry.profiles.map ProfileSpec.negotiationToken := by
    rw [List.filterMap_map, ← List.filterMap_eq_map]
    refine List.filterMap_congr fun profile hprofile => ?_
    show Option.map ProfileSpec.negotiationToken (registry.profiles.find? fun other => other.id = profile.id) = _
    rw [h.find_profile hprofile]
    rfl
  rw [← htokens]
  exact h.preference.filterMap _

theorem ProfileRegistry.WellFormed.supported_nodup (h : registry.WellFormed catalogs envelopes) :
    registry.supported.Nodup :=
  h.supported_perm.nodup_iff.mpr h.tokens

/-- An offer of the token of a profile alone selects it. -/
theorem ProfileRegistry.WellFormed.rule_single (h : registry.WellFormed catalogs envelopes)
    (hprofile : profile ∈ registry.profiles) {offered : List Token}
    (hoffered : offered.map Token.text = [profile.negotiationToken]) :
    rule registry.supported offered = .accepted (some profile.negotiationToken) profile.negotiationToken := by
  have hmem : profile.negotiationToken ∈ registry.supported :=
    h.supported_perm.mem_iff.mpr (List.mem_map_of_mem hprofile)
  obtain ⟨before, after, hsplit⟩ := List.append_of_mem hmem
  refine Negotiation.rule_eq_selected_iff.2 ⟨Negotiation.offers_iff.2 (by simp [hoffered]), before, after, hsplit, ?_⟩
  intro token htoken
  rw [← Bool.not_eq_true, Negotiation.offers_iff, hoffered, List.mem_singleton]
  rintro rfl
  have hnodup := h.supported_nodup
  rw [hsplit, List.nodup_append] at hnodup
  exact hnodup.2.2 _ htoken _ List.mem_cons_self rfl

/-- An offer that contains the first supported token selects it. -/
theorem rule_first {supported : List String} {first : String} {rest : List String} {offered : List Token}
    (hsupported : supported = first :: rest) (hoffered : first ∈ offered.map Token.text) :
    rule supported offered = .accepted (some first) first :=
  Negotiation.rule_eq_selected_iff.2 ⟨Negotiation.offers_iff.2 hoffered, [], rest, hsupported, by simp⟩

/-- The constants of a file stand for what they name. -/
theorem ProfileConstants.lookup_eq (hunique : file.Unique) {name value : String} (hmem : (name, value) ∈ file.constants) :
    file.constants.lookup name = some value :=
  (lookup_eq_some_iff_mem hunique).mpr hmem

theorem ProfileRegistry.WellFormed.renders (h : registry.WellFormed catalogs envelopes)
    {constant signalingConstant : String → String} (hemit : registry.emitConstants constant signalingConstant = .ok file)
    (hunique : file.Unique) : file.Renders registry := by
  unfold ProfileRegistry.emitConstants at hemit
  cases hheaderless : registry.negotiation.headerlessProfile with
  | none => simp [hheaderless] at hemit
  | some headerless =>
    rw [hheaderless] at hemit
    obtain rfl := Except.ok.inj hemit
    have hlookup : ∀ profile ∈ registry.profiles, ∀ id, profile.id = id →
        List.lookup (constant id) (registry.profiles.map (fun profile => (constant profile.id, profile.negotiationToken)) ++
          registry.signaling.map fun signal => (signalingConstant signal.method, signal.method)) =
            some profile.negotiationToken := by
      rintro profile hprofile id rfl
      exact ProfileConstants.lookup_eq hunique
        (List.mem_append_left _ (List.mem_map_of_mem (f := fun profile : ProfileSpec =>
          (constant profile.id, profile.negotiationToken)) hprofile))
    constructor
    · have hpreferred : ∀ id ∈ registry.negotiation.serverPreference,
          ∃ profile ∈ registry.profiles, profile.id = id := fun id => h.preferred
      simp only [ProfileConstants.tokens, ProfileRegistry.supported, List.map_map]
      generalize registry.negotiation.serverPreference = preference at hpreferred
      induction preference with
      | nil => rfl
      | cons id preference ih =>
        obtain ⟨profile, hprofile, hid⟩ := hpreferred id List.mem_cons_self
        have hfind := h.find_profile hprofile
        rw [hid] at hfind
        rw [List.map_cons, Function.comp_apply, hlookup profile hprofile id hid, List.filterMap_cons, hfind,
          ih fun other hother => hpreferred other (List.mem_cons_of_mem _ hother)]
        rfl
    · obtain ⟨profile, hprofile, hdefault⟩ := h.defaultProfile
      refine ⟨profile, hprofile, hdefault, hlookup profile hprofile _ hdefault, hlookup profile hprofile _ ?_⟩
      rw [h.headerless headerless hheaderless, hdefault]

/-- The Go emitter finds the profiles of the preference, and writes what the others write. -/
theorem ProfileRegistry.WellFormed.emitGoProfiles_eq (h : registry.WellFormed catalogs envelopes) :
    emitGoProfiles registry = registry.emitConstants goConstant goSignalingConstant := by
  have hpreference : registry.negotiation.serverPreference.mapM (fun id =>
      (registry.findProfile id).map fun profile => goConstant profile.id) =
        .ok (registry.negotiation.serverPreference.map goConstant) := by
    rw [← List.filterMap_eq_map]
    refine mapM_eq_ok fun id hid => ?_
    obtain ⟨profile, hprofile, rfl⟩ := h.preferred hid
    exact ⟨_, by rw [ProfileRegistry.findProfile, h.find_profile hprofile]; rfl, rfl⟩
  unfold emitGoProfiles
  rw [hpreference]
  unfold ProfileRegistry.emitConstants
  cases registry.negotiation.headerlessProfile <;> rfl

/-- The token of a profile can be offered. -/
theorem ProfileRegistry.WellFormed.offerable (h : registry.WellFormed catalogs envelopes) {texts : List String}
    (htexts : ∀ text ∈ texts, text ∈ registry.supported) : ∃ offered : List Token, offered.map Token.text = texts := by
  induction texts with
  | nil => exact ⟨[], rfl⟩
  | cons text texts ih =>
    obtain ⟨offered, hoffered⟩ := ih fun other hother => htexts other (List.mem_cons_of_mem _ hother)
    have hmem := h.supported_perm.mem_iff.mp (htexts text List.mem_cons_self)
    obtain ⟨profile, hprofile, rfl⟩ := List.mem_map.mp hmem
    obtain ⟨token, htoken⟩ := (h.profiles profile hprofile).token
    exact ⟨token :: offered, by rw [List.map_cons, htoken, hoffered]⟩

theorem ProfileRegistry.WellFormed.headerless_selected (h : registry.WellFormed catalogs envelopes)
    {vector : ValidVector} (hvector : vector ∈ headerlessVectors registry.negotiation.headerlessProfile) :
    vector.Selected registry := by
  cases hheaderless : registry.negotiation.headerlessProfile with
  | none => simp [hheaderless, headerlessVectors] at hvector
  | some headerless =>
    rw [hheaderless] at hvector
    obtain rfl := List.mem_singleton.mp hvector
    refine ⟨⟨[], rfl⟩, fun offered hoffered => .inl ⟨?_, rfl, h.headerless headerless hheaderless⟩⟩
    exact List.map_eq_nil_iff.mp hoffered

theorem ProfileRegistry.WellFormed.explicit_selected (h : registry.WellFormed catalogs envelopes)
    (hprofile : profile ∈ registry.profiles) : (explicitVector profile).Selected registry where
  offerable := by
    obtain ⟨token, htoken⟩ := (h.profiles profile hprofile).token
    exact ⟨[token], congrArg (fun text => [text]) htoken⟩
  selected _ hoffered := .inr ⟨profile, hprofile, rfl, rfl, h.rule_single hprofile hoffered⟩

/-- The vector that offers all tokens against the order of preference selects the first profile. -/
theorem ProfileRegistry.WellFormed.preferenceVectors_ok (h : registry.WellFormed catalogs envelopes) :
    ∃ vectors, preferenceVectors registry registry.supported.reverse = .ok vectors ∧
      ∀ vector ∈ vectors, vector.Selected registry := by
  unfold preferenceVectors
  cases hpreference : registry.negotiation.serverPreference with
  | nil => exact ⟨[], rfl, by simp⟩
  | cons id preference =>
    obtain ⟨profile, hprofile, hid⟩ := h.preferred (by rw [hpreference]; exact List.mem_cons_self)
    have hfind := h.find_profile hprofile
    rw [hid] at hfind
    have hfound : registry.findProfile id = .ok profile := by
      rw [ProfileRegistry.findProfile, hfind]
    have hsupported : ∃ rest, registry.supported = profile.negotiationToken :: rest := by
      rw [ProfileRegistry.supported, hpreference, List.filterMap_cons, hfind]
      exact ⟨_, rfl⟩
    obtain ⟨rest, hsupported⟩ := hsupported
    refine ⟨_, congrArg (Except.map _) hfound, List.forall_mem_singleton.mpr ⟨?_, fun offered hoffered => ?_⟩⟩
    · exact h.offerable fun text htext => List.mem_reverse.mp htext
    · refine .inr ⟨profile, hprofile, rfl, rfl, rule_first hsupported ?_⟩
      rw [hoffered, hsupported]
      simp

theorem ProfileRegistry.WellFormed.unsupported_refused (h : registry.WellFormed catalogs envelopes) {name token : String} :
    InvalidVector.Refused registry { name := name, offered := [token], error := "unsupported-profile" } where
  unofferable herror := absurd herror (by simp)
  rejected _ offered hoffered := by
    have hne : offered ≠ [] := by
      rintro rfl
      cases hoffered
    rw [Negotiation.rule_eq_rejected_iff, Negotiation.Meets]
    simp only [ne_eq, hne, not_false_eq_true, true_and, Negotiation.offers_iff, hoffered, not_exists, not_and]
    refine ⟨fun hnone profile hprofile => ?_, fun hnone supported hsupported => ?_⟩
    · exact hnone _ (h.supported_perm.mem_iff.mpr (List.mem_map_of_mem hprofile))
    · obtain ⟨profile, hprofile, rfl⟩ := List.mem_map.mp (h.supported_perm.mem_iff.mp hsupported)
      exact hnone profile hprofile

theorem empty_refused {name : String} :
    InvalidVector.Refused registry { name := name, offered := [""], error := "invalid-token" } where
  unofferable _ := by
    rintro ⟨offered, hoffered⟩
    have hmem : "" ∈ offered.map Token.text := by rw [hoffered]; exact List.mem_cons_self
    obtain ⟨token, -, htoken⟩ := List.mem_map.mp hmem
    exact token.nonempty htoken
  rejected herror := absurd herror (by simp)

/-- The test vectors that are written for a well-formed registry. -/
theorem ProfileRegistry.WellFormed.emitProfileVectors_ok (h : registry.WellFormed catalogs envelopes) :
    ∃ valid invalid, emitProfileVectors registry = .ok (valid, invalid) ∧
      (∀ vector ∈ valid, vector.Selected registry) ∧ ∀ vector ∈ invalid, vector.Refused registry := by
  have hreversed : registry.negotiation.serverPreference.reverse.mapM (fun id =>
      (registry.findProfile id).map ProfileSpec.negotiationToken) = .ok registry.supported.reverse := by
    rw [ProfileRegistry.supported, ← List.filterMap_reverse]
    refine mapM_eq_ok fun id hid => ?_
    obtain ⟨profile, hprofile, rfl⟩ := h.preferred (List.mem_reverse.mp hid)
    rw [ProfileRegistry.findProfile, h.find_profile hprofile]
    exact ⟨_, rfl, rfl⟩
  have hinvalid : ∀ vector ∈ invalidVectors, vector.Refused registry :=
    List.forall_mem_cons.mpr ⟨h.unsupported_refused, List.forall_mem_singleton.mpr empty_refused⟩
  have hcommon : ∀ vector ∈ headerlessVectors registry.negotiation.headerlessProfile ++
      registry.profiles.map explicitVector, vector.Selected registry := by
    refine List.forall_mem_append.mpr ⟨fun vector => h.headerless_selected, fun vector hvector => ?_⟩
    obtain ⟨profile, hprofile, rfl⟩ := List.mem_map.mp hvector
    exact h.explicit_selected hprofile
  obtain ⟨preferred, hpreferred, hselected⟩ := h.preferenceVectors_ok
  refine ⟨_, _, ?_, List.forall_mem_append.mpr ⟨hcommon, hselected⟩, hinvalid⟩
  rw [emitProfileVectors, hreversed]
  show (preferenceVectors registry registry.supported.reverse >>= fun preferred => _) = _
  rw [hpreferred]
  rfl

end WellFormed

/-- Catalogs of the ids that the public registry refers to. -/
def publicCatalogs : List (Catalog Json Json) :=
  [{ id := ⟨"babelforce", 1⟩, operations := [], events := [], fixtures := [], scenarios := [] },
    { id := ⟨"demo", 1⟩, operations := [], events := [], fixtures := [], scenarios := [] }]

end Rtvbp.Spec
