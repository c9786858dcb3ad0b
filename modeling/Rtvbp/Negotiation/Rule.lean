import Rtvbp.Lib.Text

/-!
# The negotiation of a profile

A client offers tokens in `Sec-WebSocket-Protocol`, and a server that supports some profiles decides what
becomes of the upgrade. The rule is the one of `website/docs/profiles.md`: without an offer the profile is the
default one and nothing is echoed, a mutually supported profile is selected in the order of the server, and an
explicit offer without a supported profile is rejected.
-/

namespace Rtvbp.Negotiation

open Rtvbp.Lib

/-- `rtvbp.v1`: the default profile and the one of a headerless peer. -/
def PROFILE_RTVBP_V1 : String := "rtvbp.v1"

/-! ## The offer of a client -/

/-- A character of a token of HTTP. -/
def tokenChar (c : Char) : Bool := c.isAlphanum || "!#$%&'*+-.^_`|~".toList.contains c

/-- A token, as a client offers it. -/
structure Token where
  text : String
  nonempty : text ≠ ""
  chars : ∀ c ∈ text.toList, tokenChar c = true

/-- The values of the header `Sec-WebSocket-Protocol` for an offer: an empty offer sends no header. -/
def headerValues : List Token → List String
  | [] => []
  | offered => [String.intercalate ", " (offered.map Token.text)]

/-- The client offers the profile. -/
def offers (offered : List Token) (profile : String) : Bool := offered.any fun token => token.text = profile

/-- The offer meets the supported profiles. -/
def Meets (supported : List String) (offered : List Token) : Prop :=
  ∃ profile ∈ supported, offers offered profile = true

/-! ## The rule -/

/-- What a server does with the upgrade of an authenticated client. -/
inductive Decision where
  | rejected
  /-- The upgrade is accepted, and the connection closed at once. -/
  | closed
  /-- A session runs under the profile. -/
  | accepted (echoed : Option String) (profile : String)
  deriving DecidableEq

/-- The rule of the profiles. -/
def rule (supported : List String) (offered : List Token) : Decision :=
  if offered.isEmpty then .accepted none PROFILE_RTVBP_V1
  else
    match supported.find? (offers offered) with
    | some profile => .accepted (some profile) profile
    | none => .rejected

/-! ## Tokens in a line -/

theorem tokenChar_visible {c : Char} (h : tokenChar c = true) :
    32 < c.toNat ∧ c.toNat < 127 ∧ c ≠ ',' ∧ c.isWhitespace = false := by
  have hspecial : ∀ c ∈ "!#$%&'*+-.^_`|~".toList,
      32 < c.toNat ∧ c.toNat < 127 ∧ c ≠ ',' ∧ c.isWhitespace = false := by
    simpa only [List.all_eq_true, decide_eq_true_eq] using
      (by decide : ("!#$%&'*+-.^_`|~".toList.all fun c =>
        decide (32 < c.toNat ∧ c.toNat < 127 ∧ c ≠ ',' ∧ c.isWhitespace = false)) = true)
  rw [tokenChar, Bool.or_eq_true, List.contains_iff_mem] at h
  rcases h with halnum | hmem
  · have hrange : 48 ≤ c.toNat ∧ c.toNat ≤ 122 := by
      have hranges : (decide (c.val ≥ 'A'.val ∧ c.val ≤ 'Z'.val) ||
          decide (c.val ≥ 'a'.val) && decide (c.val ≤ 'z'.val) ||
          decide (c.val ≥ '0'.val) && decide (c.val ≤ '9'.val)) = true := halnum
      simp only [Bool.or_eq_true, Bool.and_eq_true, decide_eq_true_eq, ge_iff_le,
        UInt32.le_iff_toNat_le] at hranges
      have hletters : 'A'.val.toNat = 65 ∧ 'Z'.val.toNat = 90 ∧ 'a'.val.toNat = 97 ∧ 'z'.val.toNat = 122 := by
        decide
      have hdigits : '0'.val.toNat = 48 ∧ '9'.val.toNat = 57 := by decide
      show 48 ≤ c.val.toNat ∧ c.val.toNat ≤ 122
      omega
    have houtside : ∀ d : Char, d.toNat < 48 → c ≠ d := by
      rintro d hd rfl
      omega
    refine ⟨by omega, by omega, houtside ',' (by decide), ?_⟩
    rw [Bool.eq_false_iff]
    intro hblank
    simp only [Char.isWhitespace, Bool.or_eq_true, decide_eq_true_eq] at hblank
    rcases hblank with ((hc | hc) | hc) | hc
    · exact houtside ' ' (by decide) hc
    · exact houtside '\t' (by decide) hc
    · exact houtside '\r' (by decide) hc
    · exact houtside '\n' (by decide) hc
  · exact hspecial c hmem

/-- A token can stand in a line. -/
theorem Token.isWord (t : Token) : IsWord t.text.toList where
  nonempty h := t.nonempty (String.toList_eq_nil_iff.mp h)
  noComma h := (tokenChar_visible (t.chars ',' h)).2.2.1 rfl
  noBlank c hc := (tokenChar_visible (t.chars c hc)).2.2.2

/-- The line of an offer. -/
theorem toList_line (offered : List Token) :
    (String.intercalate ", " (offered.map Token.text)).toList =
      joinWords (offered.map fun token => token.text.toList) := by
  rw [String.toList_intercalate, List.map_map]
  rfl

/-- The words of the line of an offer are its tokens. -/
theorem words_line (offered : List Token) :
    words (String.intercalate ", " (offered.map Token.text)).toList =
      offered.map fun token => token.text.toList := by
  rw [toList_line]
  refine words_joinWords fun word hword => ?_
  obtain ⟨token, -, rfl⟩ := List.mem_map.mp hword
  exact token.isWord

/-- The characters of the line of an offer. -/
theorem line_visible {offered : List Token} {c : Char}
    (hc : c ∈ (String.intercalate ", " (offered.map Token.text)).toList) : 32 ≤ c.toNat ∧ c.toNat < 127 := by
  rw [toList_line] at hc
  induction offered with
  | nil => cases hc
  | cons token offered ih =>
    have hself : ∀ c ∈ token.text.toList, 32 ≤ c.toNat ∧ c.toNat < 127 := fun c hc =>
      ⟨le_of_lt (tokenChar_visible (token.chars c hc)).1, (tokenChar_visible (token.chars c hc)).2.1⟩
    cases offered with
    | nil => exact hself c (by simpa [joinWords, List.intercalate] using hc)
    | cons next offered =>
      simp only [joinWords, List.intercalate, List.map_cons, List.intersperse_cons_cons, List.flatten_cons,
        List.mem_append, List.mem_cons, List.not_mem_nil, or_false] at hc
      rcases hc with hc | (rfl | rfl) | hc
      · exact hself c hc
      · decide
      · decide
      · exact ih (by simpa [joinWords, List.intercalate] using hc)

/-! ## What the rule selects -/

section Offers

variable {supported : List String} {offered : List Token} {profile : String}

theorem offers_iff : offers offered profile = true ↔ profile ∈ offered.map Token.text := by
  simp [offers]

/-- An offered profile has a name. -/
theorem ne_empty_of_offers (h : offers offered profile = true) : profile ≠ "" := by
  obtain ⟨token, -, rfl⟩ := List.mem_map.mp (offers_iff.1 h)
  exact token.nonempty

theorem find?_isSome_iff : (supported.find? (offers offered)).isSome = true ↔ Meets supported offered := by
  rw [List.find?_isSome]
  rfl

@[simp] theorem rule_nil : rule supported [] = .accepted none PROFILE_RTVBP_V1 := rfl

/-- The rule for an offer, by what is found. -/
theorem rule_of_ne_nil (h : offered ≠ []) :
    rule supported offered =
      match supported.find? (offers offered) with
      | some profile => .accepted (some profile) profile
      | none => .rejected := by
  have hempty : ¬ offered.isEmpty = true := by simpa using h
  rw [rule, if_neg hempty]

/-- The rule rejects exactly the offers that do not meet the supported profiles. -/
theorem rule_eq_rejected_iff : rule supported offered = .rejected ↔ offered ≠ [] ∧ ¬ Meets supported offered := by
  by_cases h : offered = []
  · simp [h]
  rw [rule_of_ne_nil h, ← find?_isSome_iff]
  cases supported.find? (offers offered) with
  | none => simp [h]
  | some profile => simp

/-- What the rule selects is supported and offered, and no profile before it is offered. -/
theorem rule_eq_selected_iff : rule supported offered = .accepted (some profile) profile ↔
    offers offered profile = true ∧ ∃ before after, supported = before ++ profile :: after ∧
      ∀ p ∈ before, offers offered p = false := by
  have hselected : rule supported offered = .accepted (some profile) profile ↔
      supported.find? (offers offered) = some profile := by
    by_cases h : offered = []
    · have hnothing : supported.find? (offers []) = none := by simp [offers]
      simp [h, hnothing]
    rw [rule_of_ne_nil h]
    cases supported.find? (offers offered) with
    | none => simp
    | some found => simp
  rw [hselected, List.find?_eq_some_iff_append]
  simp

end Offers

end Rtvbp.Negotiation
