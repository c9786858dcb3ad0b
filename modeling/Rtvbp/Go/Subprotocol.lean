import Rtvbp.Negotiation.Rule

/-!
# The negotiation of the Go server

`subprotocol.go` of `sdk/go/transport/ws`, with the authentication that comes before it and the profile that
the transport takes. The parser of the header and the upgrade itself are those of gorilla.
-/

namespace Rtvbp.Go.Subprotocol

open Rtvbp.Negotiation

/-- What is used of gorilla. -/
structure Gorilla where
  /-- `websocket.Subprotocols` of a request, by the values of its header. -/
  subprotocols : List String → List String
  /-- `Subprotocol` of the connection that an `Upgrader` with these `Subprotocols` makes of a request; the
  name that is not empty is echoed. -/
  upgrade : List String → List String → String

/-- What gorilla documents: the protocols of a request are those of its header, and the upgrade selects the
first of its protocols that the client offered. -/
structure Gorilla.Documented (g : Gorilla) : Prop where
  subprotocols : ∀ offered, g.subprotocols (headerValues offered) = offered.map Token.text
  upgrade : ∀ supported offered,
    g.upgrade supported (headerValues offered) = (supported.find? (offers offered)).getD ""

/-- An answer of `http.Error`. -/
structure HTTPError where
  text : String
  status : Nat

/-- `errUnsupportedSubprotocol`, wrapped. -/
structure UnsupportedSubprotocol where
  offered : List String
  supported : List String

def defaultSubprotocols : Option (List String) → List String
  | none => [PROFILE_RTVBP_V1]
  | some protocols => protocols

def effectiveSubprotocol (selected : String) : String :=
  if selected = "" then PROFILE_RTVBP_V1 else selected

def hasSubprotocolMatch (offered supported : List String) : Bool :=
  supported.any fun supportedProtocol => offered.any fun offeredProtocol => supportedProtocol = offeredProtocol

variable (g : Gorilla)

/-- The connection's subprotocol, or what the client is told and the error. -/
def upgradeWebSocket (values : List String) (supported : Option (List String)) :
    Except (HTTPError × UnsupportedSubprotocol) String :=
  let supported := defaultSubprotocols supported
  let offered := g.subprotocols values
  if offered.length ≠ 0 ∧ ¬ hasSubprotocolMatch offered supported then
    .error (⟨"Unsupported WebSocket subprotocol", 400⟩, ⟨offered, supported⟩)
  else .ok (g.upgrade supported values)

/-- The handler of the server, from the authentication to the transport. -/
def serve (authorized : Bool) (values : List String) (supported : Option (List String)) : Decision :=
  if ¬ authorized then .rejected
  else
    match upgradeWebSocket g values supported with
    | .error _ => .rejected
    | .ok wire => .accepted (if wire = "" then none else some wire) (effectiveSubprotocol wire)

/-! ## The rule -/

variable {g} {supported : List String} {offered : List Token}

theorem hasSubprotocolMatch_iff :
    hasSubprotocolMatch (offered.map Token.text) supported = true ↔ Meets supported offered := by
  simp only [hasSubprotocolMatch, Meets, List.any_eq_true, offers_iff, decide_eq_true_eq]
  constructor
  · rintro ⟨profile, hsupported, _, hoffered, rfl⟩
    exact ⟨_, hsupported, hoffered⟩
  · rintro ⟨profile, hsupported, hoffered⟩
    exact ⟨profile, hsupported, profile, hoffered, rfl⟩

/-- The Go server follows the rule. -/
theorem serve_eq_rule (hg : g.Documented) :
    serve g true (headerValues offered) (some supported) = rule supported offered := by
  have hupgrade := hg.upgrade supported offered
  by_cases hoffer : offered = []
  · subst hoffer
    have hnothing : supported.find? (offers []) = none := by simp [offers]
    rw [hnothing] at hupgrade
    simp [serve, upgradeWebSocket, defaultSubprotocols, hg.subprotocols, hupgrade, effectiveSubprotocol]
  rw [rule_of_ne_nil hoffer]
  by_cases hmeets : Meets supported offered
  · obtain ⟨profile, hfound⟩ := Option.isSome_iff_exists.mp (find?_isSome_iff.mpr hmeets)
    have hname : profile ≠ "" := ne_empty_of_offers (List.find?_some hfound)
    rw [hfound] at hupgrade ⊢
    simp [serve, upgradeWebSocket, defaultSubprotocols, hg.subprotocols, hasSubprotocolMatch_iff.2 hmeets,
      hupgrade, effectiveSubprotocol, hname]
  · have hfound : supported.find? (offers offered) = none := by
      rw [← Option.not_isSome_iff_eq_none, find?_isSome_iff]
      exact hmeets
    have hmatch : hasSubprotocolMatch (offered.map Token.text) supported = false := by
      rw [Bool.eq_false_iff, Ne, hasSubprotocolMatch_iff]
      exact hmeets
    simp [serve, upgradeWebSocket, defaultSubprotocols, hg.subprotocols, hoffer, hmatch, hfound]

end Rtvbp.Go.Subprotocol
