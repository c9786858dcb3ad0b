import Mathlib.Data.Char
import Mathlib.Data.List.Lex
import Mathlib.Data.Nat.Basic
import Mathlib.Data.Prod.Lex
import Mathlib.Data.Sum.Order
import Mathlib.Order.WithBot
import Rtvbp.Lib.Regex

/-!
# Release tags

The tags of the components, their versions, and the choice of the tag before a release: `COMPONENTS`,
`SemanticVersion`, `parse_component_tag` and `previous_component_tag` of `release_tool.py`.
-/

namespace Rtvbp.Release

open Rtvbp.Lib
open Rtvbp.Lib.Regex

/-- The keys of `COMPONENTS`. -/
inductive Component where
  | go
  | rust
  | typescript
  | protocol

/-- A failed release, with what its message names. -/
inductive ReleaseError where
  | invalidVersion (value : List Char)
  | leadingZero (identifier : List Char)
  | unexpectedTag (tagPrefix tag : List Char)
  | outsideNamespaces (tag : List Char) (expected : List (List Char))
  | noSection (version : List Char)
  | emptySection (version : List Char)
deriving DecidableEq

/-- The text of an error, over Python's `repr` of a string. -/
def ReleaseError.message (repr : List Char → List Char) : ReleaseError → List Char
  | invalidVersion value => "invalid semantic version: ".toList ++ value
  | leadingZero identifier =>
    "invalid semantic version: numeric prerelease identifier ".toList ++ repr identifier ++
      " has a leading zero".toList
  | unexpectedTag tagPrefix tag =>
    "expected ".toList ++ tagPrefix ++ "<semantic-version>, got ".toList ++ tag
  | outsideNamespaces tag expected =>
    "tag ".toList ++ repr tag ++ " is outside the component namespaces: ".toList ++
      ", ".toList.intercalate expected
  | noSection version => "changelog has no exact section for version ".toList ++ version
  | emptySection version =>
    "changelog section for version ".toList ++ version ++ " is empty".toList

/-- `component_config(component)["tag_prefix"]`. -/
def Component.tagPrefix : Component → List Char
  | go => "sdk/go/v".toList
  | rust => "sdk/rust/v".toList
  | typescript => "sdk/typescript/v".toList
  | protocol => "protocol/v".toList

/-- The components in the order of `COMPONENTS`. -/
def COMPONENTS : List Component := [.go, .rust, .typescript, .protocol]

def componentForTag (tag : List Char) : Except ReleaseError Component :=
  match COMPONENTS.find? fun component => component.tagPrefix.isPrefixOf tag with
  | some component => .ok component
  | none => .error (.outsideNamespaces tag (COMPONENTS.map Component.tagPrefix))

/-! ## Versions -/

/-- `[0-9A-Za-z-]`. -/
def isIdentifierChar (c : Char) : Bool := c.isAlphanum || c == '-'

/-- `0|[1-9][0-9]*`. -/
def NUMBER : Regex := alt (one (· == '0')) (seq (one fun c => c.isDigit && c != '0') (many Char.isDigit))

/-- `[0-9A-Za-z-]+(?:\.[0-9A-Za-z-]+)*`. -/
def IDENTIFIERS : Regex := seq (plus isIdentifierChar) (star (seq (one (· == '.')) (plus isIdentifierChar)))

def SEMVER : Regex :=
  seq textStart <|
  seq (group 1 NUMBER) <| seq (one (· == '.')) <|
  seq (group 2 NUMBER) <| seq (one (· == '.')) <|
  seq (group 3 NUMBER) <|
  seq (opt (seq (one (· == '-')) (group 4 IDENTIFIERS))) <|
  seq (opt (seq (one (· == '+')) (group 5 IDENTIFIERS))) textEnd

/-- A dataclass: two versions are equal when all their fields are. -/
structure SemanticVersion where
  major : ℕ
  minor : ℕ
  patch : ℕ
  prerelease : List (List Char)
  build : List (List Char)
deriving DecidableEq

/-- `int` of a text of digits. -/
def int (digits : List Char) : ℕ := Nat.ofDigitChars 10 digits 0

/-- `str.isdigit`, on the characters of an identifier. -/
def isdigit (text : List Char) : Bool := ! text.isEmpty && text.all Char.isDigit

/-- A number with more digits than it needs. -/
def hasLeadingZero (identifier : List Char) : Bool :=
  isdigit identifier && decide (1 < identifier.length) && ['0'].isPrefixOf identifier

/-- `tuple(text.split(".")) if text else ()`. -/
def splitIdentifiers : Option (List Char) → List (List Char)
  | none => []
  | some text => if text.isEmpty then [] else text.splitOn '.'

namespace SemanticVersion

def parse (value : List Char) : Except ReleaseError SemanticVersion :=
  match SEMVER.fullmatch value with
  | none => .error (.invalidVersion value)
  | some groups =>
    let prerelease := splitIdentifiers (groups.lookup 4)
    let build := splitIdentifiers (groups.lookup 5)
    match prerelease.find? hasLeadingZero with
    | some identifier => .error (.leadingZero identifier)
    | none =>
      .ok ⟨int ((groups.lookup 1).getD []), int ((groups.lookup 2).getD []), int ((groups.lookup 3).getD []),
        prerelease, build⟩

/-- `__str__`. -/
def str (self : SemanticVersion) : List Char :=
  let value := Nat.toDigits 10 self.major ++ ['.'] ++ Nat.toDigits 10 self.minor ++ ['.'] ++
    Nat.toDigits 10 self.patch
  let value := if self.prerelease.isEmpty then value else value ++ ['-'] ++ ['.'].intercalate self.prerelease
  if self.build.isEmpty then value else value ++ ['+'] ++ ['.'].intercalate self.build

/-- The numbers of a version. -/
def core (self : SemanticVersion) : List ℕ := [self.major, self.minor, self.patch]

/-- The loop of `__lt__`, where `rest` is decided after it. -/
def ltIdentifiers (rest : Bool) : List (List Char) → List (List Char) → Bool
  | own :: owns, candidate :: candidates =>
    if own = candidate then ltIdentifiers rest owns candidates
    else if isdigit own && isdigit candidate then int own < int candidate
    else if isdigit own != isdigit candidate then isdigit own
    else own < candidate
  | _, _ => rest

/-- `__lt__`. -/
def lt (self other : SemanticVersion) : Bool :=
  if self.core ≠ other.core then self.core < other.core
  else if self.prerelease.isEmpty || other.prerelease.isEmpty then
    ! self.prerelease.isEmpty && other.prerelease.isEmpty
  else ltIdentifiers (self.prerelease.length < other.prerelease.length) self.prerelease other.prerelease

/-- `__gt__`, as `total_ordering` derives it from `__lt__` and the equality. -/
def gt (self other : SemanticVersion) : Bool := ! self.lt other && self != other

end SemanticVersion

def parseComponentTag (component : Component) (tag : List Char) : Except ReleaseError SemanticVersion :=
  if component.tagPrefix.isPrefixOf tag then SemanticVersion.parse (tag.drop component.tagPrefix.length)
  else .error (.unexpectedTag component.tagPrefix tag)

/-- `max(candidates, default=(None, None), key=lambda item: item[0])[1]`. -/
def maxTag : List (SemanticVersion × List Char) → Option (List Char)
  | [] => none
  | first :: rest =>
    some (rest.foldl (fun best item => if item.1.gt best.1 then item else best) first).2

/-- The body of the loop over the tags. -/
def candidate (component : Component) (currentTag : List Char) (current : SemanticVersion) (tag : List Char) :
    Option (SemanticVersion × List Char) :=
  if tag = currentTag || ! component.tagPrefix.isPrefixOf tag then none
  else
    match parseComponentTag component tag with
    | .error _ => none
    | .ok version => if version.lt current then some (version, tag) else none

def previousComponentTag (tags : List (List Char)) (currentTag : List Char) :
    Except ReleaseError (Option (List Char)) := do
  let component ← componentForTag currentTag
  let current ← parseComponentTag component currentTag
  return maxTag (tags.filterMap (candidate component currentTag current))

/-! ## Precedence -/

/-- What stands between the dots. -/
structure IsIdentifier (text : List Char) : Prop where
  nonempty : text ≠ []
  chars : ∀ c ∈ text, isIdentifierChar c = true

/-- A version of the grammar. -/
structure SemanticVersion.WellFormed (v : SemanticVersion) : Prop where
  prerelease : ∀ text ∈ v.prerelease, IsIdentifier text
  noLeadingZero : ∀ text ∈ v.prerelease, hasLeadingZero text = false
  build : ∀ text ∈ v.build, IsIdentifier text

/-- An identifier in its order: numbers by their value, and before the texts. -/
def identifierRank (text : List Char) : ℕ ⊕ₗ List Char :=
  if isdigit text then toLex (.inl (int text)) else toLex (.inr text)

/-- A prerelease by its identifiers, and a release after all of them. -/
def SemanticVersion.prereleaseRank (v : SemanticVersion) : WithTop (List (ℕ ⊕ₗ List Char)) :=
  if v.prerelease = [] then ⊤ else (v.prerelease.map identifierRank : List (ℕ ⊕ₗ List Char))

/-- The precedence of a version: its numbers, then its prerelease. The build has no part in it. -/
def SemanticVersion.precedence (v : SemanticVersion) : List ℕ ×ₗ WithTop (List (ℕ ⊕ₗ List Char)) :=
  toLex (v.core, v.prereleaseRank)

/-- Two versions that the build alone tells apart. -/
def SemanticVersion.DifferInBuild (a b : SemanticVersion) : Prop :=
  a.core = b.core ∧ a.prerelease = b.prerelease ∧ a.build ≠ b.build

/-- A tag of the release contract. -/
structure ReleaseTag where
  component : Component
  version : SemanticVersion
  wellFormed : version.WellFormed

def ReleaseTag.text (tag : ReleaseTag) : List Char := tag.component.tagPrefix ++ tag.version.str

/-- A tag of the list that is of the component and below the current one. -/
structure Below (tags : List (List Char)) (current tag : ReleaseTag) : Prop where
  mem : tag.text ∈ tags
  component : tag.component = current.component
  lt : tag.version.precedence < current.version.precedence

/-- A tag below the current one that no other exceeds. -/
structure Highest (tags : List (List Char)) (current tag : ReleaseTag) : Prop extends Below tags current tag where
  max : ∀ other, Below tags current other → other.version.precedence ≤ tag.version.precedence

/-- The result names the highest of the tags below the current one, for every order of the tags. -/
structure Precedes (tags : List (List Char)) (current : ReleaseTag) (result : Option (List Char)) : Prop where
  returned : ∀ tags', tags'.Perm tags → previousComponentTag tags' current.text = .ok result
  none_iff : result = none ↔ ∀ tag, ¬ Below tags current tag
  highest : ∀ text, result = some text → ∃ tag, Highest tags current tag ∧ tag.text = text

end Rtvbp.Release
