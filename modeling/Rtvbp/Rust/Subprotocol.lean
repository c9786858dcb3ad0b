import Rtvbp.Negotiation.Rule

/-!
# The negotiation of the Rust server

The callback of `accept` in `sdk/rust/src/transport/ws.rs`, with `offered_protocols` and the profile that the
transport takes. Header values are those of the `http` crate.
-/

namespace Rtvbp.Rust.Subprotocol

open Rtvbp.Lib Rtvbp.Negotiation

/-- What is used of `HeaderValue`. -/
structure HeaderValue where
  to_str : String → Option String
  from_str : String → Option String

/-- A value of visible ASCII characters. -/
def Visible (value : String) : Prop := ∀ c ∈ value.toList, 32 ≤ c.toNat ∧ c.toNat < 127

/-- What the `http` crate documents: visible ASCII characters pass. -/
structure HeaderValue.Documented (h : HeaderValue) : Prop where
  to_str : ∀ value, Visible value → h.to_str value = some value
  from_str : ∀ value, Visible value → h.from_str value = some value

inductive Message where
  | text (text : String)
  /-- `unsupported WebSocket subprotocol: offered {offered:?}, supported {supported:?}`. -/
  | unsupported (offered supported : List String)

/-- `error_response`. -/
structure ErrorResponse where
  status : Nat
  message : Message

variable (h : HeaderValue)

def offered_protocols (values : List String) : List String :=
  ((((values.filterMap h.to_str).flatMap fun value => value.toList.splitOn ',').map trim).filter
    fun value => ! value.isEmpty).map String.ofList

/-- The callback: the header of the response and what is captured, or the rejection. -/
def callback (authenticate : Except ErrorResponse Unit) (supported values : List String) :
    Except ErrorResponse (Option String × String) :=
  match authenticate with
  | .error rejection => .error rejection
  | .ok () =>
    let offered := offered_protocols h values
    if offered.isEmpty then .ok (none, "")
    else
      match supported.find? fun supported => offered.any fun offered => offered = supported with
      | none => .error ⟨400, .unsupported offered supported⟩
      | some protocol =>
        match h.from_str protocol with
        | none => .error ⟨500, .text "failed to parse header value"⟩
        | some header => .ok (some header, protocol)

/-- `accept`, up to the transport. -/
def accept (authenticate : Except ErrorResponse Unit) (supported_subprotocols : Option (List String))
    (values : List String) : Decision :=
  match callback h authenticate (supported_subprotocols.getD [PROFILE_RTVBP_V1]) values with
  | .error _ => .rejected
  | .ok (header, selected) => .accepted header (if selected = "" then PROFILE_RTVBP_V1 else selected)

/-! ## The rule -/

variable {h} {supported : List String} {offered : List Token}

/-- The parser of the header gives back the offer. -/
theorem offered_protocols_headerValues (hh : h.Documented) :
    offered_protocols h (headerValues offered) = offered.map Token.text := by
  cases offered with
  | nil => rfl
  | cons token rest =>
    have hvisible := hh.to_str (String.intercalate ", " ((token :: rest).map Token.text)) fun c => line_visible
    have hwords := words_line (token :: rest)
    rw [words] at hwords
    have hline : headerValues (token :: rest) =
        [String.intercalate ", " ((token :: rest).map Token.text)] := rfl
    rw [offered_protocols, hline, List.filterMap_cons_some hvisible, List.filterMap_nil,
      List.flatMap_singleton, hwords, List.map_map]
    simp

/-- The Rust server follows the rule. -/
theorem accept_eq_rule (hh : h.Documented) :
    accept h (.ok ()) (some supported) (headerValues offered) = rule supported offered := by
  by_cases hoffer : offered = []
  · subst hoffer
    rfl
  have hempty : (offered.map Token.text).isEmpty = false := by simpa using hoffer
  have hfind : (fun profile => (offered.map Token.text).any fun offered => offered = profile) = offers offered := by
    funext profile
    simp [offers, List.any_map, Function.comp_def]
  simp only [rule_of_ne_nil hoffer, accept, callback, offered_protocols_headerValues hh, Option.getD_some, hempty,
    hfind, Bool.false_eq_true, if_false]
  cases hfound : supported.find? (offers offered) with
  | none => rfl
  | some profile =>
    have hoffers := List.find?_some hfound
    have hname := ne_empty_of_offers hoffers
    have hvisible : Visible profile := by
      obtain ⟨token, -, rfl⟩ := List.mem_map.mp (offers_iff.1 hoffers)
      intro c hc
      exact ⟨(tokenChar_visible (token.chars c hc)).1.le, (tokenChar_visible (token.chars c hc)).2.1⟩
    simp only [hh.from_str profile hvisible, hname, if_false]

end Rtvbp.Rust.Subprotocol
