import Rtvbp.Go.Subprotocol
import Rtvbp.Rust.Subprotocol
import Rtvbp.TypeScript.Subprotocol

/-!
# The negotiation across the servers

The Go and Rust servers follow the rule for every offer. The Node server accepts an offer that it supports
nothing of, and runs its session under the profile of a headerless peer.
-/

namespace Rtvbp.Negotiation

open Rtvbp.Lib

/-- The libraries of the three servers. -/
structure Libraries where
  gorilla : Go.Subprotocol.Gorilla
  http : Rust.Subprotocol.HeaderValue
  ws : TypeScript.Subprotocol.Ws

structure Libraries.Documented (l : Libraries) : Prop where
  gorilla : l.gorilla.Documented
  http : l.http.Documented
  ws : l.ws.Documented

/-- The three servers decide by the rule on an offer; the Node server allows headerless clients. -/
structure Agree (l : Libraries) (supported : List String) (offered : List Token) : Prop where
  go : Go.Subprotocol.serve l.gorilla true (headerValues offered) (some supported) = rule supported offered
  rust : Rust.Subprotocol.accept l.http (.ok ()) (some supported) (headerValues offered) = rule supported offered
  typescript : TypeScript.Subprotocol.listen l.ws true true (some supported) (headerValues offered) =
    rule supported offered

/-- The servers agree exactly when there is no offer, or the offer meets the supported profiles and `ws` takes
its header, or it does not and the header is refused. -/
theorem servers_agree_iff (l : Libraries) (hl : l.Documented) (supported : List String) (offered : List Token) :
    Agree l supported offered ↔
      offered = [] ∨ ((l.ws.parse (headerValues offered)).isSome = true ↔ Meets supported offered) := by
  rw [← TypeScript.Subprotocol.listen_eq_rule_iff hl.ws]
  constructor
  · intro h
    exact h.typescript
  · intro h
    exact ⟨Go.Subprotocol.serve_eq_rule hl.gorilla, Rust.Subprotocol.accept_eq_rule hl.http, h⟩

/-! ## Libraries -/

/-- The words of a header of at most one line. -/
def headerWords (values : List String) : List String :=
  match values with
  | [] => []
  | line :: _ => (words line.toList).map String.ofList

/-- Libraries that parse the header by its words; `ws` refuses a protocol that is repeated. -/
def libraries : Libraries where
  gorilla :=
    { subprotocols := headerWords
      upgrade := fun supported values =>
        (supported.find? fun protocol => (headerWords values).contains protocol).getD "" }
  http := ⟨some, some⟩
  ws :=
    { parse := fun values => if (headerWords values).Nodup then some (headerWords values) else none
      protocol := fun selected => selected.getD "" }

theorem headerWords_headerValues (offered : List Token) :
    headerWords (headerValues offered) = offered.map Token.text := by
  cases offered with
  | nil => rfl
  | cons token rest =>
    show (words (String.intercalate ", " ((token :: rest).map Token.text)).toList).map String.ofList = _
    rw [words_line, List.map_map]
    simp

theorem documented_libraries : libraries.Documented where
  gorilla :=
    { subprotocols := headerWords_headerValues
      upgrade := fun supported offered => by
        show (supported.find? fun protocol => (headerWords (headerValues offered)).contains protocol).getD "" = _
        rw [headerWords_headerValues]
        congr 2
        funext profile
        rw [Bool.eq_iff_iff, List.contains_iff_mem, offers_iff] }
  http := ⟨fun _ _ => rfl, fun _ _ => rfl⟩
  ws :=
    { parse_nil := rfl
      parse := fun offered protocols h profile => by
        simp only [libraries, headerWords_headerValues, Option.ite_none_right_eq_some,
          Option.some.injEq] at h
        rw [← h.2, offers_iff]
      protocol_none := rfl
      protocol_some := fun _ _ => rfl }

/-! ## Runs -/

/-- A token that no server supports. -/
def unknownToken : Token := ⟨"rtvbp.v9", by decide, List.all_eq_true.mp (by decide)⟩

/-- The deployed profile. -/
def v1Token : Token := ⟨PROFILE_RTVBP_V1, by decide, List.all_eq_true.mp (by decide)⟩

/-- An offer of a known and an unknown token is decided alike. -/
theorem mixedOffer_agree : Agree libraries [PROFILE_RTVBP_V1] [unknownToken, v1Token] := by
  refine (servers_agree_iff libraries documented_libraries _ _).mpr (.inr ?_)
  have htexts : headerWords (headerValues [unknownToken, v1Token]) = ["rtvbp.v9", "rtvbp.v1"] :=
    headerWords_headerValues _
  have hparse : libraries.ws.parse (headerValues [unknownToken, v1Token]) = some ["rtvbp.v9", "rtvbp.v1"] := by
    simp only [libraries, htexts]
    rfl
  have hmeets : Meets [PROFILE_RTVBP_V1] [unknownToken, v1Token] :=
    ⟨PROFILE_RTVBP_V1, List.mem_cons_self, by decide⟩
  rw [hparse]
  exact iff_of_true rfl hmeets

/-- An offer of an unknown token is rejected by two servers, and the third runs a session under `rtvbp.v1`. -/
theorem unknownOffer_not_agree : ¬ Agree libraries [PROFILE_RTVBP_V1] [unknownToken] := by
  intro h
  have htypescript := h.typescript
  have htexts : headerWords (headerValues [unknownToken]) = ["rtvbp.v9"] := headerWords_headerValues _
  have haccepted : TypeScript.Subprotocol.listen libraries.ws true true (some [PROFILE_RTVBP_V1])
      (headerValues [unknownToken]) = .accepted none PROFILE_RTVBP_V1 := by
    simp only [TypeScript.Subprotocol.listen, libraries, htexts]
    rfl
  have hrejected : rule [PROFILE_RTVBP_V1] [unknownToken] = .rejected := by decide
  rw [haccepted, hrejected] at htypescript
  cases htypescript

end Rtvbp.Negotiation
