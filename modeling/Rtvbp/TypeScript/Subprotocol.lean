import Rtvbp.Negotiation.Rule
import Rtvbp.TypeScript.NodeServer

/-!
# The negotiation of the Node server

`handleProtocols` and the start of `#accept` in `sdk/typescript/src/node.ts`. The parser of the header and the
upgrade are those of `ws`, which accepts without a subprotocol when `handleProtocols` returns `false`.
-/

namespace Rtvbp.TypeScript.Subprotocol

open Rtvbp.Negotiation

def HEADERLESS_PROFILE : String := PROFILE_RTVBP_V1

def SERVER_PREFERENCE : List String := [PROFILE_RTVBP_V1, "rtvbp.demo.v1", "rtvbp.webrtc.v1"]

/-- What is used of `ws`. -/
structure Ws where
  /-- The set of protocols in the values of the header, or the opening handshake is aborted. -/
  parse : List String → Option (List String)
  /-- `protocol` of the socket, which is echoed if it is not empty, by what `handleProtocols` returns. -/
  protocol : Option String → String

/-- What `ws` documents: a request without the header has no protocols, a header that is taken has those of
the client, and `handleProtocols` selects the protocol. -/
structure Ws.Documented (w : Ws) : Prop where
  parse_nil : w.parse [] = some []
  parse : ∀ offered protocols, w.parse (headerValues offered) = some protocols →
    ∀ profile, profile ∈ protocols ↔ offers offered profile = true
  protocol_none : w.protocol none = ""
  protocol_some : ∀ profile, profile ≠ "" → w.protocol (some profile) = profile

/-- `handleProtocols`, where `false` is `none`. -/
def handleProtocols (supported offered : List String) : Option String :=
  supported.find? fun preferred => offered.contains preferred

/-- The start of `#accept`: the profile for `createHandler`, or the code and the reason of the close. -/
def accept (allowHeaderless : Bool) (protocol : String) : Except (Nat × String) String :=
  let profile := if protocol = "" then HEADERLESS_PROFILE else protocol
  if protocol = "" ∧ allowHeaderless = false then .error (1002, "WebSocket profile required")
  else .ok profile

variable (w : Ws)

/-- The server, from `verifyClient` to `createHandler`. -/
def listen (allowed allowHeaderless : Bool) (supportedProfiles : Option (List String)) (values : List String) :
    Decision :=
  let supported := supportedProfiles.getD SERVER_PREFERENCE
  match w.parse values with
  | none => .rejected
  | some offered =>
    if ¬ allowed then .rejected
    else
      let protocol := w.protocol (handleProtocols supported offered)
      match accept allowHeaderless protocol with
      | .error _ => .closed
      | .ok profile => .accepted (if protocol = "" then none else some protocol) profile

/-! ## The rule -/

section Accept

variable {ι κ μ : Type} [DecidableEq ι] [DecidableEq κ] {config : NodeServer.Config}
  {s t : NodeServer.State ι κ μ} {k : κ}

/-- The server goes on to `createHandler` for a socket exactly when `#accept` has a profile for it. -/
theorem connect_creating_iff {protocol : String}
    (h : NodeServer.step config s (.connect k (protocol = "")) = some t) :
    (t.connection k).accept = .creating ↔ ∃ profile, accept config.allowHeaderless protocol = .ok profile := by
  simp only [NodeServer.step, Option.ite_none_right_eq_some, Option.some.injEq] at h
  obtain ⟨-, rfl⟩ := h
  have hself : ∀ a, ((s.setAccept k a).connection k).accept = a := by
    intro a
    simp [NodeServer.State.setAccept, NodeServer.State.set]
  rw [hself, accept]
  cases config.allowHeaderless <;> by_cases hprotocol : protocol = "" <;> simp [hprotocol]

end Accept

variable {w} {supported : List String} {offered : List Token}

theorem handleProtocols_eq {protocols : List String}
    (h : ∀ profile, profile ∈ protocols ↔ offers offered profile = true) :
    handleProtocols supported protocols = supported.find? (offers offered) := by
  rw [handleProtocols]
  congr 1
  funext profile
  rw [Bool.eq_iff_iff, List.contains_iff_mem]
  exact h profile

/-- What the server does with an offer that `ws` takes: it accepts what does not meet the supported profiles,
under the profile of a headerless peer. -/
theorem listen_of_parse (hw : w.Documented) {protocols : List String}
    (hparse : w.parse (headerValues offered) = some protocols) :
    listen w true true (some supported) (headerValues offered) =
      match supported.find? (offers offered) with
      | some profile => .accepted (some profile) profile
      | none => .accepted none PROFILE_RTVBP_V1 := by
  rw [listen, hparse]
  simp only [Option.getD_some, handleProtocols_eq (hw.parse offered protocols hparse)]
  cases hfound : supported.find? (offers offered) with
  | none => simp [hw.protocol_none, accept, HEADERLESS_PROFILE]
  | some profile =>
    have hname := ne_empty_of_offers (List.find?_some hfound)
    simp [hw.protocol_some profile hname, hname, accept]

/-- The Node server follows the rule when there is no offer, and otherwise exactly when it takes the offers that
meet the supported profiles and no others. -/
theorem listen_eq_rule_iff (hw : w.Documented) :
    listen w true true (some supported) (headerValues offered) = rule supported offered ↔
      offered = [] ∨ ((w.parse (headerValues offered)).isSome = true ↔ Meets supported offered) := by
  by_cases hoffer : offered = []
  · subst hoffer
    have hnothing : supported.find? (offers []) = none := by simp [offers]
    have hparse : w.parse (headerValues []) = some [] := hw.parse_nil
    rw [listen_of_parse hw hparse, hnothing]
    simp
  cases hparse : w.parse (headerValues offered) with
  | none =>
    have hrejected : listen w true true (some supported) (headerValues offered) = .rejected := by rw [listen, hparse]
    rw [hrejected, eq_comm, rule_eq_rejected_iff]
    simp [hoffer]
  | some protocols =>
    rw [listen_of_parse hw hparse, rule_of_ne_nil hoffer, ← find?_isSome_iff]
    cases supported.find? (offers offered) with
    | none => simp [hoffer]
    | some profile => simp

end Rtvbp.TypeScript.Subprotocol
