import Mathlib.Data.List.DropRight
import Rtvbp.Release.Version

/-!
# Changelog sections

The section of a version in a changelog: `extract_changelog_section` of `release_tool.py`, and the section
that the headings of the changelog mark.
-/

namespace Rtvbp.Release

open Rtvbp.Lib
open Rtvbp.Lib.Regex

/-- White space of a Python string: `str.isspace`, `\s` and `str.strip`. -/
def isspace (c : Char) : Bool :=
  let n := c.toNat
  (9 ≤ n && n ≤ 13) || (28 ≤ n && n ≤ 32) || n == 0x85 || n == 0xa0 || n == 0x1680 ||
    (0x2000 ≤ n && n ≤ 0x200a) || n == 0x2028 || n == 0x2029 || n == 0x202f || n == 0x205f || n == 0x3000

/-- `str.strip`. -/
def strip (text : List Char) : List Char := (text.dropWhile isspace).rdropWhile isspace

/-- `## [version]`. -/
def title (version : List Char) : List Char := "## [".toList ++ version ++ [']']

/-- `\s+-\s+[^\n]+`. -/
def DATE : Regex := seq (plus isspace) (seq (one (· == '-')) (seq (plus isspace) (plus (· != '\n'))))

/-- `^## \[version\](?:\s+-\s+[^\n]+)?\s*$`; a version that is escaped stands for itself. -/
def heading (version : List Char) : Regex :=
  seq lineStart (seq (literal (title version)) (seq (opt DATE) (seq (many isspace) lineEnd)))

/-- `^##\s+`. -/
def NEXT_HEADING : Regex := seq lineStart (seq (literal ['#', '#']) (plus isspace))

/-- The text before the next heading, stripped. -/
def sectionText (rest : List Char) : List Char :=
  strip (match NEXT_HEADING.search rest with
    | some (start, _) => rest.take start
    | none => rest)

def extractChangelogSection (changelog version : List Char) : Except ReleaseError (List Char) :=
  match (heading version).search changelog with
  | none => .error (.noSection version)
  | some (_, found) =>
    let text := sectionText found.rest
    if text.isEmpty then .error (.emptySection version) else .ok text

/-! ## The section of the headings -/

/-- The rest of a line. -/
def line (text : List Char) : List Char := text.takeWhile (· != '\n')

/-- What follows the rest of a line, from its line end on. -/
def afterLine (text : List Char) : List Char := text.dropWhile (· != '\n')

/-- White space only. -/
def blank (text : List Char) : Bool := text.all isspace

/-- White space, a dash, white space and something else. -/
def isDated (rest : List Char) : Bool :=
  match rest.dropWhile isspace with
  | '-' :: date => rest.head?.any isspace && date.head?.any isspace && ! blank date
  | _ => false

/-- What may follow the title of a heading in its line: nothing, or a date. -/
def endsHeading (rest : List Char) : Bool := blank (line rest) || isDated (line rest)

/-- A line that ends a section: `##` and white space. -/
def startsHeading : List Char → Bool
  | '#' :: '#' :: c :: _ => isspace c
  | _ => false

/-- What follows a word that the text starts with. -/
def afterPrefix (word text : List Char) : Option (List Char) :=
  if word.isPrefixOf text then some (text.drop word.length) else none

/-- What follows the title in the first line that starts with it and goes on as asked; `start` tells whether
the text is at the start of a line. -/
def firstTitle (version : List Char) (goesOn : List Char → Bool) : Bool → List Char → Option (List Char)
  | start, text =>
    match (if start then (afterPrefix (title version) text).filter goesOn else none), text with
    | some rest, _ => some rest
    | none, [] => none
    | none, x :: xs => firstTitle version goesOn (x == '\n') xs

/-- The text before the first line that ends a section. -/
def untilHeading : Bool → List Char → List Char
  | _, [] => []
  | start, x :: xs => if start && startsHeading (x :: xs) then [] else x :: untilHeading (x == '\n') xs

/-- A text that is not blank, stripped. -/
def sectionOf (rest : List Char) : Option (List Char) :=
  if blank (untilHeading false rest) then none else some (strip (untilHeading false rest))

/-- The section of a version: what stands between its heading and the next line that ends a section. -/
def versionSection (changelog version : List Char) : Option (List Char) :=
  (firstTitle version endsHeading true changelog).bind fun rest => sectionOf (afterLine rest)

/-! ## What the expression takes for a date -/

/-- The text after the white space and the dash that follow a title. -/
def afterDash (rest : List Char) : Option (List Char) :=
  match rest.dropWhile isspace with
  | '-' :: date => if rest.head?.any isspace && date.head?.any isspace then some date else none
  | _ => none

/-- The optional part of the expression finds a date, here or in a later line. -/
def findsDate (rest : List Char) : Bool := (afterDash rest).any fun date => date.tail.any (· != '\n')

/-- The expression finds its date, but not in the line of the title. -/
def crossesLine (rest : List Char) : Bool := findsDate rest && ! isDated (line rest)

/-- What the expression accepts after a title. -/
def endsMatch (rest : List Char) : Bool := endsHeading rest || findsDate rest

/-- The line that is taken for the date, and what follows. -/
def dateLine (rest : List Char) : List Char := (rest.dropWhile isspace).tail.dropWhile isspace

/-- A lone dash stands under the heading and ends its section, and the next section is a lone dash again. -/
structure LoneDash (rest : List Char) : Prop where
  lone : ((rest.dropWhile isspace).tail.takeWhile isspace).getLast? = some '\n'
  next : startsHeading (dateLine rest) = true
  again : sectionOf (afterLine (dateLine rest)) = some ['-']

/-- The text after the taken line is the one that the first heading marks, in another place. -/
def Repeats (changelog version rest : List Char) : Prop :=
  match firstTitle version endsHeading true changelog with
  | none => sectionOf (afterLine (dateLine rest)) = none
  | some marked => sectionOf (afterLine (dateLine rest)) = sectionOf (afterLine marked)

/-- No later line is taken for the date of the heading, or the text after it says the same by accident. -/
def KeepsLines (changelog version : List Char) : Prop :=
  ∀ rest, firstTitle version endsMatch true changelog = some rest → crossesLine rest = true →
    if blank (line rest) then LoneDash rest else Repeats changelog version rest

end Rtvbp.Release
