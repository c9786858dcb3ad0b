import Rtvbp.Lib.Text
import Rtvbp.Release.Version

/-!
# Proofs about versions

A text is parsed exactly when it is the text of a well-formed version.
-/

namespace Rtvbp.Release

open Rtvbp.Lib
open Rtvbp.Lib.Regex

/-! ## The grammar -/

theorem matches_number {prev : Option Char} {w rest : List Char} {g : Groups} :
    NUMBER.Matches prev w rest g ↔ IsDecimal w ∧ g = [] := by
  constructor
  · rintro (⟨x, hx, rfl, rfl⟩ | ⟨u, v, gu, gv, rfl, rfl, ⟨x, hx, rfl, rfl⟩, hv, rfl⟩)
    · have hzero : x = '0' := by simpa using hx
      subst hzero
      exact ⟨⟨List.cons_ne_nil _ _, List.forall_mem_singleton.mpr (by decide), fun _ => rfl⟩, rfl⟩
    · have hx : x.isDigit = true ∧ x ≠ '0' := by simpa using hx
      refine ⟨⟨List.cons_ne_nil _ _, List.forall_mem_cons.mpr ⟨hx.1, hv⟩, ?_⟩, rfl⟩
      intro hzero
      exact absurd (Option.some.inj hzero) hx.2
  · rintro ⟨hw, rfl⟩
    obtain ⟨c, digits, rfl⟩ := List.exists_cons_of_ne_nil hw.nonempty
    obtain ⟨hc, hdigits⟩ := List.forall_mem_cons.mp hw.digits
    by_cases hzero : c = '0'
    · subst hzero
      exact .inl ⟨'0', rfl, hw.leading rfl, rfl⟩
    · refine .inr ⟨[c], digits, [], [], rfl, rfl, ⟨c, ?_, rfl, rfl⟩, hdigits, rfl⟩
      simp [hc, hzero]

theorem intercalate_cons (sep : List Char) (first : List Char) (parts : List (List Char)) :
    sep.intercalate (first :: parts) = first ++ (parts.map (sep ++ ·)).flatten := by
  induction parts generalizing first with
  | nil => simp [List.intercalate]
  | cons second parts ih =>
    have hnext : sep.intercalate (first :: second :: parts) = first ++ (sep ++ sep.intercalate (second :: parts)) := by
      simp [List.intercalate]
    rw [hnext, ih, List.map_cons, List.flatten_cons, List.append_assoc]

theorem matches_dotted {prev : Option Char} {w rest : List Char} {g : Groups} :
    (star (seq (one (· == '.')) (plus isIdentifierChar))).Matches prev w rest g ↔
      ∃ parts : List (List Char), (∀ text ∈ parts, IsIdentifier text) ∧
        w = (parts.map (['.'] ++ ·)).flatten ∧ g = [] := by
  constructor
  · intro h
    have hstar : Star (seq (one (· == '.')) (plus isIdentifierChar)).Matches prev w rest g := h
    induction hstar with
    | nil => exact ⟨[], by simp, rfl, rfl⟩
    | cons _ hu _ ih =>
      obtain ⟨_, text, _, _, rfl, rfl, ⟨x, hx, rfl, rfl⟩, htext⟩ := hu
      obtain ⟨hne, hchars, rfl⟩ := matches_plus.1 htext
      have hdot : x = '.' := by simpa using hx
      subst hdot
      obtain ⟨parts, hparts, rfl, rfl⟩ := ih (by assumption)
      exact ⟨text :: parts, List.forall_mem_cons.mpr ⟨⟨hne, hchars⟩, hparts⟩, rfl, rfl⟩
  · rintro ⟨parts, hparts, rfl, rfl⟩
    show Star (seq (one (· == '.')) (plus isIdentifierChar)).Matches prev _ rest []
    induction parts generalizing prev with
    | nil => exact .nil _ _
    | cons text parts ih =>
      obtain ⟨htext, hparts⟩ := List.forall_mem_cons.mp hparts
      refine Star.cons (List.cons_ne_nil '.' text) ?_ (ih hparts)
      exact ⟨['.'], text, [], [], rfl, rfl, ⟨'.', rfl, rfl, rfl⟩,
        matches_plus.2 ⟨htext.nonempty, htext.chars, rfl⟩⟩

theorem matches_identifiers {prev : Option Char} {w rest : List Char} {g : Groups} :
    IDENTIFIERS.Matches prev w rest g ↔
      ∃ parts : List (List Char), parts ≠ [] ∧ (∀ text ∈ parts, IsIdentifier text) ∧
        w = ['.'].intercalate parts ∧ g = [] := by
  constructor
  · rintro ⟨u, v, gu, gv, rfl, rfl, hu, hv⟩
    obtain ⟨hne, hchars, rfl⟩ := matches_plus.1 hu
    obtain ⟨parts, hparts, rfl, rfl⟩ := matches_dotted.1 hv
    exact ⟨u :: parts, List.cons_ne_nil _ _, List.forall_mem_cons.mpr ⟨⟨hne, hchars⟩, hparts⟩,
      (intercalate_cons _ _ _).symm, rfl⟩
  · rintro ⟨parts, hne, hparts, rfl, rfl⟩
    obtain ⟨first, parts, rfl⟩ := List.exists_cons_of_ne_nil hne
    obtain ⟨hfirst, hparts⟩ := List.forall_mem_cons.mp hparts
    refine ⟨first, (parts.map (['.'] ++ ·)).flatten, [], [], intercalate_cons _ _ _, rfl,
      matches_plus.2 ⟨hfirst.nonempty, hfirst.chars, rfl⟩, matches_dotted.2 ⟨parts, hparts, rfl, rfl⟩⟩

theorem isIdentifierChar_ne_dot {text : List Char} (h : IsIdentifier text) : '.' ∉ text := by
  intro hmem
  exact absurd (h.chars '.' hmem) (by decide)

/-- The identifiers between the dots are the ones that were joined. -/
theorem splitIdentifiers_intercalate {parts : List (List Char)} (hne : parts ≠ [])
    (h : ∀ text ∈ parts, IsIdentifier text) : splitIdentifiers (some (['.'].intercalate parts)) = parts := by
  have hnonempty : (['.'].intercalate parts).isEmpty = false := by
    obtain ⟨first, rest, rfl⟩ := List.exists_cons_of_ne_nil hne
    rw [intercalate_cons]
    obtain ⟨c, cs, hfirst⟩ := List.exists_cons_of_ne_nil (h first List.mem_cons_self).nonempty
    rw [hfirst]
    rfl
  rw [splitIdentifiers, hnonempty]
  exact List.splitOn_intercalate _ (fun text ht => isIdentifierChar_ne_dot (h text ht)) hne

/-- A part of the version that may be missing: a mark and identifiers. -/
def marked (mark : Char) (parts : List (List Char)) : List Char :=
  if parts.isEmpty then [] else mark :: ['.'].intercalate parts

/-- What the group of such a part holds. -/
def held (n : ℕ) (parts : List (List Char)) : Groups :=
  if parts.isEmpty then [] else [(n, ['.'].intercalate parts)]

theorem matches_marked {mark : Char} {n : ℕ} {prev : Option Char} {w rest : List Char} {g : Groups} :
    (opt (seq (one (· == mark)) (group n IDENTIFIERS))).Matches prev w rest g ↔
      ∃ parts : List (List Char), (∀ text ∈ parts, IsIdentifier text) ∧ w = marked mark parts ∧
        g = held n parts := by
  rw [matches_opt]
  constructor
  · rintro (⟨u, v, gu, gv, rfl, rfl, ⟨x, hx, rfl, rfl⟩, h, rfl, hv⟩ | ⟨rfl, rfl⟩)
    · obtain ⟨parts, hne, hparts, rfl, rfl⟩ := matches_identifiers.1 hv
      have hmark : x = mark := by simpa using hx
      have hfull : parts.isEmpty = false := by simpa using hne
      subst hmark
      refine ⟨parts, hparts, ?_, ?_⟩
      · rw [marked, hfull]
        rfl
      · rw [held, hfull]
        rfl
    · exact ⟨[], by simp, rfl, rfl⟩
  · rintro ⟨parts, hparts, rfl, rfl⟩
    by_cases hne : parts = []
    · subst hne
      exact .inr ⟨rfl, rfl⟩
    · have hfull : parts.isEmpty = false := by simpa using hne
      rw [marked, held, hfull]
      refine .inl ⟨[mark], ['.'].intercalate parts, [], [(n, ['.'].intercalate parts)], rfl, rfl,
        ⟨mark, beq_self_eq_true mark, rfl, rfl⟩, [], rfl, ?_⟩
      exact matches_identifiers.2 ⟨parts, hne, hparts, rfl, rfl⟩

theorem matches_semver {text : List Char} {g : Groups} :
    SEMVER.Matches none text [] g ↔
      ∃ a b c : List Char, ∃ pre build : List (List Char), IsDecimal a ∧ IsDecimal b ∧ IsDecimal c ∧
        (∀ text ∈ pre, IsIdentifier text) ∧ (∀ text ∈ build, IsIdentifier text) ∧
        text = a ++ (['.'] ++ (b ++ (['.'] ++ (c ++ (marked '-' pre ++ marked '+' build))))) ∧
        g = held 5 build ++ held 4 pre ++ [(3, c), (2, b), (1, a)] := by
  constructor
  · rintro ⟨_, _, _, _, rfl, rfl, ⟨_, rfl, rfl⟩, a, _, _, _, rfl, rfl, ⟨_, rfl, hmajor⟩,
      _, _, _, _, rfl, rfl, ⟨x, hx, rfl, rfl⟩, b, _, _, _, rfl, rfl, ⟨_, rfl, hminor⟩,
      _, _, _, _, rfl, rfl, ⟨y, hy, rfl, rfl⟩, c, _, _, _, rfl, rfl, ⟨_, rfl, hpatch⟩,
      _, _, _, _, rfl, rfl, hminus, _, _, _, _, rfl, rfl, hplus, _, rfl, rfl⟩
    obtain ⟨ha, rfl⟩ := matches_number.1 hmajor
    obtain ⟨hb, rfl⟩ := matches_number.1 hminor
    obtain ⟨hc, rfl⟩ := matches_number.1 hpatch
    obtain ⟨pre, hpre, rfl, rfl⟩ := matches_marked.1 hminus
    obtain ⟨build, hbuild, rfl, rfl⟩ := matches_marked.1 hplus
    have hdot : x = '.' := by simpa using hx
    have hdot' : y = '.' := by simpa using hy
    subst hdot hdot'
    exact ⟨a, b, c, pre, build, ha, hb, hc, hpre, hbuild, by simp, by simp⟩
  · rintro ⟨a, b, c, pre, build, ha, hb, hc, hpre, hbuild, rfl, rfl⟩
    have hdot : ∀ prev rest, (one (· == '.')).Matches prev ['.'] rest [] := fun _ _ => ⟨'.', rfl, rfl, rfl⟩
    have hbuild' : ∀ prev, (seq (opt (seq (one (· == '+')) (group 5 IDENTIFIERS))) textEnd).Matches prev
        (marked '+' build) [] (held 5 build) := fun prev =>
      ⟨marked '+' build, [], held 5 build, [], (List.append_nil _).symm, rfl,
        matches_marked.2 ⟨build, hbuild, rfl, rfl⟩, rfl, rfl, rfl⟩
    refine ⟨[], _, [], _, rfl, (List.append_nil _).symm, ⟨rfl, rfl, rfl⟩, a, _, [(1, a)], _, rfl, ?_,
      ⟨[], rfl, matches_number.2 ⟨ha, rfl⟩⟩, ['.'], _, [], _, rfl, (List.append_nil _).symm, hdot _ _, b, _,
      [(2, b)], held 5 build ++ held 4 pre ++ [(3, c)], rfl, rfl, ⟨[], rfl, matches_number.2 ⟨hb, rfl⟩⟩,
      ['.'], _, [], _, rfl, (List.append_nil _).symm, hdot _ _, c, _, [(3, c)], _, rfl, rfl,
      ⟨[], rfl, matches_number.2 ⟨hc, rfl⟩⟩, marked '-' pre, _, held 4 pre, held 5 build, rfl, rfl,
      matches_marked.2 ⟨pre, hpre, rfl, rfl⟩, hbuild' _⟩
    simp

/-! ## Parsing -/

/-- The version that the groups of a match hold. -/
def ofGroups (g : Groups) : SemanticVersion :=
  ⟨int ((g.lookup 1).getD []), int ((g.lookup 2).getD []), int ((g.lookup 3).getD []),
    splitIdentifiers (g.lookup 4), splitIdentifiers (g.lookup 5)⟩

theorem parse_of_fullmatch {value : List Char} {g : Groups} (h : SEMVER.fullmatch value = some g) :
    SemanticVersion.parse value =
      match (ofGroups g).prerelease.find? hasLeadingZero with
      | some identifier => .error (.leadingZero identifier)
      | none => .ok (ofGroups g) := by
  rw [SemanticVersion.parse, h]
  rfl

theorem splitIdentifiers_held {n : ℕ} {parts : List (List Char)} (h : ∀ text ∈ parts, IsIdentifier text) :
    splitIdentifiers ((held n parts).lookup n) = parts := by
  by_cases hne : parts = []
  · subst hne
    rfl
  · have hfull : parts.isEmpty = false := by simpa using hne
    rw [held, hfull]
    simp only [Bool.false_eq_true, if_false, List.lookup_cons, beq_self_eq_true]
    exact splitIdentifiers_intercalate hne h

theorem lookup_held_ne {n k : ℕ} {parts : List (List Char)} {g : Groups} (hne : k ≠ n) :
    (held n parts ++ g).lookup k = g.lookup k := by
  unfold held
  split_ifs
  · rfl
  · have hbeq : (k == n) = false := by simpa using hne
    simp [List.lookup_cons, hbeq]

theorem ofGroups_held {a b c : List Char} {pre build : List (List Char)}
    (hpre : ∀ text ∈ pre, IsIdentifier text) (hbuild : ∀ text ∈ build, IsIdentifier text) :
    ofGroups (held 5 build ++ held 4 pre ++ [(3, c), (2, b), (1, a)]) = ⟨int a, int b, int c, pre, build⟩ := by
  have hcore : ∀ k < 4, (held 5 build ++ held 4 pre ++ [(3, c), (2, b), (1, a)]).lookup k =
      List.lookup k [(3, c), (2, b), (1, a)] := by
    intro k hk
    rw [List.append_assoc, lookup_held_ne (by omega), lookup_held_ne (by omega)]
  have hfour : (held 5 build ++ held 4 pre ++ [(3, c), (2, b), (1, a)]).lookup 4 = (held 4 pre).lookup 4 := by
    rw [List.append_assoc, lookup_held_ne (by decide), List.lookup_append]
    exact Option.or_none
  have hfive : (held 5 build ++ held 4 pre ++ [(3, c), (2, b), (1, a)]).lookup 5 = (held 5 build).lookup 5 := by
    rw [List.append_assoc, List.lookup_append, lookup_held_ne (by decide)]
    exact Option.or_none
  rw [ofGroups, hcore 1 (by decide), hcore 2 (by decide), hcore 3 (by decide), hfour, hfive,
    splitIdentifiers_held hpre, splitIdentifiers_held hbuild]
  rfl

/-- The versions that the expression accepts, also those with a leading zero in the prerelease. -/
structure Grammatical (v : SemanticVersion) : Prop where
  prerelease : ∀ text ∈ v.prerelease, IsIdentifier text
  build : ∀ text ∈ v.build, IsIdentifier text

theorem SemanticVersion.WellFormed.grammatical {v : SemanticVersion} (h : v.WellFormed) : Grammatical v :=
  ⟨h.prerelease, h.build⟩

theorem str_eq (v : SemanticVersion) :
    v.str = Nat.toDigits 10 v.major ++ (['.'] ++ (Nat.toDigits 10 v.minor ++ (['.'] ++
      (Nat.toDigits 10 v.patch ++ (marked '-' v.prerelease ++ marked '+' v.build))))) := by
  simp only [SemanticVersion.str, marked]
  split_ifs <;> simp

/-- What the expression accepts is the text of the version in its groups. -/
theorem grammatical_of_fullmatch {value : List Char} {g : Groups} (h : SEMVER.fullmatch value = some g) :
    Grammatical (ofGroups g) ∧ (ofGroups g).str = value := by
  obtain ⟨a, b, c, pre, build, ha, hb, hc, hpre, hbuild, rfl, rfl⟩ :=
    matches_semver.1 (matches_of_fullmatch h)
  rw [ofGroups_held hpre hbuild]
  refine ⟨⟨hpre, hbuild⟩, ?_⟩
  rw [str_eq, int, int, int, toDigits_ofDigitChars ha, toDigits_ofDigitChars hb, toDigits_ofDigitChars hc]

theorem fullmatch_str {v : SemanticVersion} (h : Grammatical v) : ∃ g, SEMVER.fullmatch v.str = some g := by
  refine fullmatch_isSome (g := held 5 v.build ++ held 4 v.prerelease ++
    [(3, Nat.toDigits 10 v.patch), (2, Nat.toDigits 10 v.minor), (1, Nat.toDigits 10 v.major)]) ?_
  refine matches_semver.2 ⟨_, _, _, v.prerelease, v.build, isDecimal_toDigits _, isDecimal_toDigits _,
    isDecimal_toDigits _, h.prerelease, h.build, str_eq v, rfl⟩

/-- Two texts that start with characters of a class, and go on without one. -/
theorem append_inj_of_class {p : Char → Bool} {a b x y : List Char} (ha : ∀ c ∈ a, p c = true)
    (hb : ∀ c ∈ b, p c = true) (hx : ∀ c ∈ x.head?, p c = false) (hy : ∀ c ∈ y.head?, p c = false)
    (h : a ++ x = b ++ y) : a = b ∧ x = y := by
  have htake : ∀ {u t : List Char}, (∀ c ∈ u, p c = true) → (∀ c ∈ t.head?, p c = false) →
      (u ++ t).takeWhile p = u := by
    intro u t hu ht
    rw [List.takeWhile_append_of_pos hu]
    cases t with
    | nil => simp
    | cons c t => simp [ht c rfl]
  have hab : a = b := by
    rw [← htake ha hx, ← htake hb hy, h]
  subst hab
  exact ⟨rfl, List.append_cancel_left h⟩

theorem marked_head {mark : Char} {parts : List (List Char)} {c : Char} (h : c ∈ (marked mark parts).head?) :
    c = mark := by
  unfold marked at h
  split_ifs at h
  · simp at h
  · simpa using h.symm

theorem marked_injective {mark : Char} {parts parts' : List (List Char)}
    (h : ∀ text ∈ parts, IsIdentifier text) (h' : ∀ text ∈ parts', IsIdentifier text)
    (heq : marked mark parts = marked mark parts') : parts = parts' := by
  by_cases hne : parts = []
  · by_cases hne' : parts' = []
    · rw [hne, hne']
    · simp [marked, hne, hne'] at heq
  · by_cases hne' : parts' = []
    · simp [marked, hne, hne'] at heq
    · have hjoined : ['.'].intercalate parts = ['.'].intercalate parts' := by
        simpa [marked, hne, hne'] using heq
      rw [← splitIdentifiers_intercalate hne h, hjoined, splitIdentifiers_intercalate hne' h']

theorem plus_notMem_marked {parts : List (List Char)} (h : ∀ text ∈ parts, IsIdentifier text) :
    ∀ c ∈ marked '-' parts, (c != '+') = true := by
  intro c hc
  unfold marked at hc
  split_ifs at hc with hempty
  · simp at hc
  · have hne : parts ≠ [] := by simpa using hempty
    obtain ⟨first, parts, rfl⟩ := List.exists_cons_of_ne_nil hne
    have hplus : isIdentifierChar '+' = false := by decide
    have hof : ∀ text ∈ first :: parts, '+' ∉ text := by
      intro text ht hmem
      rw [(h text ht).chars '+' hmem] at hplus
      exact absurd hplus (by decide)
    rw [intercalate_cons] at hc
    rw [bne_iff_ne]
    rintro rfl
    rcases List.mem_cons.mp hc with hmark | hc
    · exact absurd hmark (by decide)
    · rcases List.mem_append.mp hc with hc | hc
      · exact hof first List.mem_cons_self hc
      · obtain ⟨_, hparts, hc⟩ := List.mem_flatten.mp hc
        obtain ⟨text, ht, rfl⟩ := List.mem_map.mp hparts
        rcases List.mem_append.mp hc with hdot | hc
        · exact absurd hdot (by decide)
        · exact hof text (List.mem_cons_of_mem _ ht) hc

/-- The text of a version determines it. -/
theorem str_injective {v w : SemanticVersion} (hv : Grammatical v) (hw : Grammatical w) (h : v.str = w.str) :
    v = w := by
  have hdigits : ∀ n : ℕ, ∀ c ∈ Nat.toDigits 10 n, c.isDigit = true := fun n => (isDecimal_toDigits n).digits
  have hdot : ∀ t : List Char, ∀ c ∈ (['.'] ++ t).head?, c.isDigit = false := by
    intro t c hc
    have hc : c = '.' := by simpa using hc.symm
    rw [hc]
    rfl
  have htail : ∀ u : SemanticVersion, ∀ c ∈ (marked '-' u.prerelease ++ marked '+' u.build).head?,
      c.isDigit = false := by
    intro u c hc
    rw [List.head?_append] at hc
    rcases Option.or_eq_some_iff.mp hc with hc | ⟨-, hc⟩
    · rw [marked_head hc]
      rfl
    · rw [marked_head hc]
      rfl
  have hbuild : ∀ u : SemanticVersion, ∀ c ∈ (marked '+' u.build).head?, (c != '+') = false := by
    intro u c hc
    rw [marked_head hc]
    rfl
  have hnat : ∀ m n : ℕ, Nat.toDigits 10 m = Nat.toDigits 10 n → m = n := by
    intro m n hmn
    rw [← Nat.ofDigitChars_ten_toDigits (n := m), hmn, Nat.ofDigitChars_ten_toDigits]
  rw [str_eq, str_eq] at h
  obtain ⟨hmajor, h⟩ := append_inj_of_class (hdigits _) (hdigits _) (hdot _) (hdot _) h
  obtain ⟨hminor, h⟩ :=
    append_inj_of_class (hdigits _) (hdigits _) (hdot _) (hdot _) (List.append_cancel_left h)
  obtain ⟨hpatch, h⟩ :=
    append_inj_of_class (hdigits _) (hdigits _) (htail _) (htail _) (List.append_cancel_left h)
  obtain ⟨hpre, h⟩ := append_inj_of_class (plus_notMem_marked hv.prerelease)
    (plus_notMem_marked hw.prerelease) (hbuild v) (hbuild w) h
  cases v
  cases w
  simp only [SemanticVersion.mk.injEq]
  exact ⟨hnat _ _ hmajor, hnat _ _ hminor, hnat _ _ hpatch, marked_injective hv.prerelease hw.prerelease hpre,
    marked_injective hv.build hw.build h⟩

/-- The parser accepts the texts of the well-formed versions, each for its version. -/
theorem parse_eq_ok_iff {value : List Char} {v : SemanticVersion} :
    SemanticVersion.parse value = .ok v ↔ v.WellFormed ∧ v.str = value := by
  constructor
  · intro h
    cases hmatch : SEMVER.fullmatch value with
    | none =>
      rw [SemanticVersion.parse, hmatch] at h
      exact absurd h (by simp)
    | some g =>
      obtain ⟨hgrammar, hstr⟩ := grammatical_of_fullmatch hmatch
      rw [parse_of_fullmatch hmatch] at h
      split at h
      · exact absurd h (by simp)
      next hfind =>
        have hv : ofGroups g = v := Except.ok.inj h
        rw [hv] at hgrammar hstr hfind
        refine ⟨⟨hgrammar.prerelease, ?_, hgrammar.build⟩, hstr⟩
        intro text ht
        simpa using List.find?_eq_none.mp hfind text ht
  · rintro ⟨hv, rfl⟩
    obtain ⟨g, hmatch⟩ := fullmatch_str hv.grammatical
    obtain ⟨hgrammar, hstr⟩ := grammatical_of_fullmatch hmatch
    have hsame : ofGroups g = v := str_injective hgrammar hv.grammatical hstr
    have hfind : v.prerelease.find? hasLeadingZero = none := by
      rw [List.find?_eq_none]
      intro text ht
      simp [hv.noLeadingZero text ht]
    rw [parse_of_fullmatch hmatch, hsame, hfind]

end Rtvbp.Release

/-!
## Proofs about the order of release tags

The comparison of the source is the order of the precedences. The maximum of a list is its last highest
version, so a tag that differs from another one in its build alone is found or not by its place in the list.
-/

namespace Rtvbp.Release

open Rtvbp.Lib

/-! ## The comparison -/

theorem isDecimal_of_isdigit {text : List Char} (hdigit : isdigit text = true)
    (hzero : hasLeadingZero text = false) : IsDecimal text := by
  obtain ⟨hne, hall⟩ : text ≠ [] ∧ ∀ c ∈ text, c.isDigit = true := by
    simpa [isdigit] using hdigit
  refine ⟨hne, hall, ?_⟩
  intro hhead
  obtain ⟨c, rest, rfl⟩ := List.exists_cons_of_ne_nil hne
  have hc : c = '0' := Option.some.inj hhead
  subst hc
  have hshort : ¬ 1 < ('0' :: rest).length := by
    intro hlong
    simp [hasLeadingZero, hdigit] at hzero
    simp [hzero] at hlong
  have hrest : rest = [] := List.length_eq_zero_iff.mp (by simpa using hshort)
  rw [hrest]

theorem identifierRank_injective {a b : List Char} (ha : hasLeadingZero a = false)
    (hb : hasLeadingZero b = false) (h : identifierRank a = identifierRank b) : a = b := by
  unfold identifierRank at h
  split_ifs at h with hda hdb hdb
  · have hint : int a = int b := Sum.inl.inj (toLex.injective h)
    rw [← toDigits_ofDigitChars (isDecimal_of_isdigit hda ha),
      ← toDigits_ofDigitChars (isDecimal_of_isdigit hdb hb)]
    exact congrArg _ hint
  · exact absurd (toLex.injective h) (by simp)
  · exact absurd (toLex.injective h) (by simp)
  · exact Sum.inr.inj (toLex.injective h)

/-- The branches of the loop of `__lt__` on two different identifiers. -/
theorem identifierRank_lt_iff {a b : List Char} :
    identifierRank a < identifierRank b ↔
      (if isdigit a && isdigit b then decide (int a < int b)
        else if isdigit a != isdigit b then isdigit a else decide (a < b)) = true := by
  unfold identifierRank
  cases isdigit a with
  | true =>
    cases isdigit b with
    | true => simp
    | false => simp
  | false =>
    cases isdigit b with
    | true => simp
    | false => simp

theorem ltIdentifiers_iff {own other : List (List Char)} {rest : Bool}
    (hown : ∀ text ∈ own, hasLeadingZero text = false)
    (hother : ∀ text ∈ other, hasLeadingZero text = false)
    (hrest : rest = decide (own.length < other.length)) :
    SemanticVersion.ltIdentifiers rest own other = true ↔
      own.map identifierRank < other.map identifierRank := by
  induction own generalizing other with
  | nil =>
    cases other with
    | nil => simp [SemanticVersion.ltIdentifiers, hrest]
    | cons candidate other => simp [SemanticVersion.ltIdentifiers, hrest]
  | cons text own ih =>
    cases other with
    | nil => simp [SemanticVersion.ltIdentifiers, hrest]
    | cons candidate other =>
      obtain ⟨htext, howns⟩ := List.forall_mem_cons.mp hown
      obtain ⟨hcandidate, hothers⟩ := List.forall_mem_cons.mp hother
      have hlength : rest = decide (own.length < other.length) := by simpa using hrest
      rw [SemanticVersion.ltIdentifiers, List.map_cons, List.map_cons, List.cons_lt_cons_iff]
      by_cases heq : text = candidate
      · subst heq
        rw [if_pos rfl, ih howns hothers hlength]
        constructor
        · intro h
          exact .inr ⟨rfl, h⟩
        · rintro (h | ⟨-, h⟩)
          · exact absurd h (lt_irrefl (identifierRank text))
          · exact h
      · rw [if_neg heq, ← identifierRank_lt_iff]
        constructor
        · intro h
          exact .inl h
        · rintro (h | ⟨h, -⟩)
          · exact h
          · exact absurd (identifierRank_injective htext hcandidate h) heq

theorem map_identifierRank_injective {own other : List (List Char)}
    (hown : ∀ text ∈ own, hasLeadingZero text = false)
    (hother : ∀ text ∈ other, hasLeadingZero text = false)
    (h : own.map identifierRank = other.map identifierRank) : own = other := by
  induction own generalizing other with
  | nil => exact (List.map_eq_nil_iff.mp h.symm).symm
  | cons text own ih =>
    cases other with
    | nil => exact absurd h (by simp)
    | cons candidate other =>
      obtain ⟨htext, howns⟩ := List.forall_mem_cons.mp hown
      obtain ⟨hcandidate, hothers⟩ := List.forall_mem_cons.mp hother
      obtain ⟨hhead, htail⟩ := List.cons.inj h
      rw [identifierRank_injective htext hcandidate hhead, ih howns hothers htail]

namespace SemanticVersion

theorem precedence_lt_iff {a b : SemanticVersion} :
    a.precedence < b.precedence ↔
      a.core < b.core ∨ a.core = b.core ∧ a.prereleaseRank < b.prereleaseRank :=
  Prod.Lex.toLex_lt_toLex

/-- The branches of `__lt__` on versions of the same numbers. -/
theorem prereleaseRank_lt_iff {a b : SemanticVersion} (ha : a.WellFormed) (hb : b.WellFormed) :
    a.prereleaseRank < b.prereleaseRank ↔
      (if a.prerelease.isEmpty || b.prerelease.isEmpty then ! a.prerelease.isEmpty && b.prerelease.isEmpty
        else ltIdentifiers (a.prerelease.length < b.prerelease.length) a.prerelease b.prerelease) = true := by
  unfold prereleaseRank
  by_cases hpa : a.prerelease = []
  · simp [hpa]
  · by_cases hpb : b.prerelease = []
    · simp [hpa, hpb]
    · have hempty : (a.prerelease.isEmpty || b.prerelease.isEmpty) = false := by simp [hpa, hpb]
      rw [hempty, if_neg hpa, if_neg hpb, WithTop.coe_lt_coe]
      exact (ltIdentifiers_iff ha.noLeadingZero hb.noLeadingZero rfl).symm

/-- The comparison of well-formed versions is the one of their precedences. -/
theorem lt_iff {a b : SemanticVersion} (ha : a.WellFormed) (hb : b.WellFormed) :
    a.lt b = true ↔ a.precedence < b.precedence := by
  rw [precedence_lt_iff, prereleaseRank_lt_iff ha hb, lt]
  by_cases hcore : a.core = b.core
  · rw [if_neg (not_not.mpr hcore), hcore]
    constructor
    · intro h
      exact .inr ⟨rfl, h⟩
    · rintro (h | ⟨-, h⟩)
      · exact absurd h (lt_irrefl _)
      · exact h
  · rw [if_pos hcore]
    simp [hcore]

/-- Versions of one precedence have the same numbers and the same prerelease. -/
theorem precedence_eq_iff {a b : SemanticVersion} (ha : a.WellFormed) (hb : b.WellFormed) :
    a.precedence = b.precedence ↔ a.core = b.core ∧ a.prerelease = b.prerelease := by
  constructor
  · intro h
    obtain ⟨hcore, hpre⟩ := Prod.mk.inj (toLex.injective h)
    refine ⟨hcore, ?_⟩
    unfold prereleaseRank at hpre
    by_cases hpa : a.prerelease = []
    · by_cases hpb : b.prerelease = []
      · rw [hpa, hpb]
      · simp [hpa, hpb] at hpre
    · by_cases hpb : b.prerelease = []
      · simp [hpa, hpb] at hpre
      · rw [if_neg hpa, if_neg hpb, WithTop.coe_inj] at hpre
        exact map_identifierRank_injective ha.noLeadingZero hb.noLeadingZero hpre
  · rintro ⟨hcore, hpre⟩
    rw [precedence, precedence, prereleaseRank, prereleaseRank, hcore, hpre]

theorem gt_iff {a b : SemanticVersion} : a.gt b = true ↔ ¬ a.lt b = true ∧ a ≠ b := by
  simp [gt]

/-- Two versions are above each other exactly when the build alone tells them apart. -/
theorem gt_and_gt_iff {a b : SemanticVersion} (ha : a.WellFormed) (hb : b.WellFormed) :
    a.gt b = true ∧ b.gt a = true ↔ a.DifferInBuild b := by
  rw [gt_iff, gt_iff, lt_iff ha hb, lt_iff hb ha]
  constructor
  · rintro ⟨⟨hab, hne⟩, hba, -⟩
    have hsame := le_antisymm (not_lt.mp hba) (not_lt.mp hab)
    obtain ⟨hcore, hpre⟩ := (precedence_eq_iff ha hb).mp hsame
    refine ⟨hcore, hpre, fun hbuild => hne ?_⟩
    cases a
    cases b
    simp_all [core]
  · rintro ⟨hcore, hpre, hbuild⟩
    have hsame := (precedence_eq_iff ha hb).mpr ⟨hcore, hpre⟩
    have hne : a ≠ b := fun heq => hbuild (by rw [heq])
    rw [hsame]
    exact ⟨⟨lt_irrefl _, hne⟩, lt_irrefl _, hne.symm⟩

end SemanticVersion

/-! ## The maximum -/

/-- The items of the tags of one component. -/
structure IsItem (component : Component) (item : SemanticVersion × List Char) : Prop where
  wellFormed : item.1.WellFormed
  text : item.2 = component.tagPrefix ++ item.1.str

/-- The step of `max`. -/
def better (best item : SemanticVersion × List Char) : SemanticVersion × List Char :=
  if item.1.gt best.1 then item else best

theorem better_eq (best item : SemanticVersion × List Char) : better best item = item ∨ better best item = best := by
  unfold better
  split_ifs
  · exact .inl rfl
  · exact .inr rfl

theorem le_better {component : Component} {best item : SemanticVersion × List Char} (hbest : IsItem component best)
    (hitem : IsItem component item) :
    best.1.precedence ≤ (better best item).1.precedence ∧ item.1.precedence ≤ (better best item).1.precedence := by
  unfold better
  split_ifs with hgt
  · obtain ⟨hlt, -⟩ := SemanticVersion.gt_iff.1 hgt
    rw [SemanticVersion.lt_iff hitem.wellFormed hbest.wellFormed] at hlt
    exact ⟨not_lt.mp hlt, le_refl _⟩
  · rw [SemanticVersion.gt_iff, not_and_or, not_not, not_not] at hgt
    refine ⟨le_refl _, ?_⟩
    rcases hgt with hlt | heq
    · exact le_of_lt ((SemanticVersion.lt_iff hitem.wellFormed hbest.wellFormed).mp hlt)
    · rw [heq]

theorem foldl_better {component : Component} {items : List (SemanticVersion × List Char)}
    {first : SemanticVersion × List Char} (hfirst : IsItem component first)
    (hitems : ∀ item ∈ items, IsItem component item) :
    items.foldl better first ∈ first :: items ∧
      ∀ item ∈ first :: items, item.1.precedence ≤ (items.foldl better first).1.precedence := by
  induction items generalizing first with
  | nil => exact ⟨List.mem_cons_self, by simp⟩
  | cons second items ih =>
    obtain ⟨hsecond, hrest⟩ := List.forall_mem_cons.mp hitems
    obtain ⟨hleft, hright⟩ := le_better hfirst hsecond
    have hstep : IsItem component (better first second) := by
      rcases better_eq first second with h | h <;> rw [h] <;> assumption
    obtain ⟨hmem, hmax⟩ := ih hstep hrest
    have htop := hmax _ List.mem_cons_self
    rw [List.foldl_cons]
    constructor
    · rcases List.mem_cons.mp hmem with h | h
      · rw [h]
        rcases better_eq first second with h | h <;> rw [h] <;> simp
      · exact List.mem_cons_of_mem _ (List.mem_cons_of_mem _ h)
    · intro item hitem
      rcases List.mem_cons.mp hitem with rfl | hitem
      · exact le_trans hleft htop
      · rcases List.mem_cons.mp hitem with rfl | hitem
        · exact le_trans hright htop
        · exact hmax item (List.mem_cons_of_mem _ hitem)

theorem maxTag_cons (first : SemanticVersion × List Char) (rest : List (SemanticVersion × List Char)) :
    maxTag (first :: rest) = some (rest.foldl better first).2 := rfl

/-- The maximum is the tag of an item that no other exceeds. -/
theorem maxTag_spec {component : Component} {items : List (SemanticVersion × List Char)} {text : List Char}
    (hitems : ∀ item ∈ items, IsItem component item) (h : maxTag items = some text) :
    ∃ item ∈ items, item.2 = text ∧ ∀ other ∈ items, other.1.precedence ≤ item.1.precedence := by
  cases items with
  | nil => exact absurd h (by simp [maxTag])
  | cons first rest =>
    obtain ⟨hfirst, hrest⟩ := List.forall_mem_cons.mp hitems
    obtain ⟨hmem, hmax⟩ := foldl_better hfirst hrest
    rw [maxTag_cons, Option.some.injEq] at h
    exact ⟨_, hmem, h, hmax⟩

/-- An item that no other exceeds is the maximum when it stands last. -/
theorem maxTag_append {component : Component} {items : List (SemanticVersion × List Char)}
    {last : SemanticVersion × List Char} (hitems : ∀ item ∈ items, IsItem component item)
    (hlast : IsItem component last) (hmax : ∀ item ∈ items, item.1.precedence ≤ last.1.precedence) :
    maxTag (items ++ [last]) = some last.2 := by
  cases items with
  | nil => rfl
  | cons first rest =>
    obtain ⟨hfirst, hrest⟩ := List.forall_mem_cons.mp hitems
    obtain ⟨hmem, -⟩ := foldl_better hfirst hrest
    rw [List.cons_append, maxTag_cons, List.foldl_append, List.foldl_cons, List.foldl_nil]
    generalize rest.foldl better first = best at hmem
    have hbest := hitems best hmem
    congr 1
    unfold better
    split_ifs with hgt
    · rfl
    · rw [SemanticVersion.gt_iff, not_and_or, not_not, not_not] at hgt
      rcases hgt with hlt | heq
      · rw [SemanticVersion.lt_iff hlast.wellFormed hbest.wellFormed] at hlt
        exact absurd (hmax best hmem) (not_le.mpr hlt)
      · rw [hbest.text, hlast.text, heq]

/-! ## The tags of a list -/

theorem tagPrefix_isPrefixOf (tag : ReleaseTag) : tag.component.tagPrefix.isPrefixOf tag.text = true := by
  rw [List.isPrefixOf_iff_prefix]
  exact List.prefix_append _ _

theorem componentForTag_text (tag : ReleaseTag) : componentForTag tag.text = .ok tag.component := by
  have hfind : COMPONENTS.find? (fun component => component.tagPrefix.isPrefixOf tag.text) = some tag.component := by
    unfold ReleaseTag.text
    cases tag.component <;> rfl
  rw [componentForTag, hfind]

theorem parseComponentTag_eq_ok_iff {component : Component} {text : List Char} {v : SemanticVersion} :
    parseComponentTag component text = .ok v ↔
      ∃ tag : ReleaseTag, tag.component = component ∧ tag.text = text ∧ tag.version = v := by
  unfold parseComponentTag
  constructor
  · intro h
    split_ifs at h with hprefix
    obtain ⟨hv, hstr⟩ := parse_eq_ok_iff.1 h
    refine ⟨⟨component, v, hv⟩, rfl, ?_, rfl⟩
    obtain ⟨rest, rfl⟩ := List.isPrefixOf_iff_prefix.mp hprefix
    rw [List.drop_left] at hstr
    rw [ReleaseTag.text, hstr]
  · rintro ⟨tag, rfl, rfl, rfl⟩
    rw [if_pos (tagPrefix_isPrefixOf tag), parse_eq_ok_iff, ReleaseTag.text, List.drop_left]
    exact ⟨tag.wellFormed, rfl⟩

theorem ReleaseTag.text_injective {a b : ReleaseTag} (hcomponent : a.component = b.component)
    (h : a.text = b.text) : a.version = b.version := by
  unfold ReleaseTag.text at h
  rw [hcomponent] at h
  exact str_injective a.wellFormed.grammatical b.wellFormed.grammatical (List.append_cancel_left h)

theorem candidate_eq_some_iff {current : ReleaseTag} {text : List Char} {item : SemanticVersion × List Char} :
    candidate current.component current.text current.version text = some item ↔
      ∃ tag : ReleaseTag, tag.text = text ∧ tag.component = current.component ∧
        tag.version.precedence < current.version.precedence ∧ item = (tag.version, tag.text) := by
  unfold candidate
  constructor
  · intro h
    split_ifs at h with hskip
    cases hparse : parseComponentTag current.component text with
    | error e =>
      rw [hparse] at h
      exact absurd h (by simp)
    | ok version =>
      rw [hparse] at h
      obtain ⟨tag, hcomponent, rfl, rfl⟩ := parseComponentTag_eq_ok_iff.1 hparse
      obtain ⟨hlt, hitem⟩ := Option.ite_none_right_eq_some.mp h
      rw [SemanticVersion.lt_iff tag.wellFormed current.wellFormed] at hlt
      exact ⟨tag, rfl, hcomponent, hlt, (Option.some.inj hitem).symm⟩
  · rintro ⟨tag, rfl, hcomponent, hlt, rfl⟩
    have hne : tag.text ≠ current.text := by
      intro heq
      rw [ReleaseTag.text_injective hcomponent heq] at hlt
      exact absurd hlt (lt_irrefl _)
    have hprefix : current.component.tagPrefix.isPrefixOf tag.text = true := by
      rw [← hcomponent]
      exact tagPrefix_isPrefixOf tag
    have hparse := parseComponentTag_eq_ok_iff.2 ⟨tag, hcomponent, rfl, rfl⟩
    have hbelow := (SemanticVersion.lt_iff tag.wellFormed current.wellFormed).mpr hlt
    rw [hparse]
    simp [hne, hprefix, hbelow]

/-- The candidates of a list. -/
def candidates (tags : List (List Char)) (current : ReleaseTag) : List (SemanticVersion × List Char) :=
  tags.filterMap (candidate current.component current.text current.version)

theorem mem_candidates {tags : List (List Char)} {current : ReleaseTag} {item : SemanticVersion × List Char} :
    item ∈ candidates tags current ↔ ∃ tag, Below tags current tag ∧ item = (tag.version, tag.text) := by
  rw [candidates, List.mem_filterMap]
  constructor
  · rintro ⟨text, htext, h⟩
    obtain ⟨tag, rfl, hcomponent, hlt, rfl⟩ := candidate_eq_some_iff.1 h
    exact ⟨tag, ⟨htext, hcomponent, hlt⟩, rfl⟩
  · rintro ⟨tag, hbelow, rfl⟩
    exact ⟨tag.text, hbelow.mem, candidate_eq_some_iff.2 ⟨tag, rfl, hbelow.component, hbelow.lt, rfl⟩⟩

theorem isItem_of_mem {tags : List (List Char)} {current : ReleaseTag} :
    ∀ item ∈ candidates tags current, IsItem current.component item := by
  intro item hitem
  obtain ⟨tag, hbelow, rfl⟩ := mem_candidates.1 hitem
  refine ⟨tag.wellFormed, ?_⟩
  rw [← hbelow.component]
  rfl

theorem previousComponentTag_text (tags : List (List Char)) (current : ReleaseTag) :
    previousComponentTag tags current.text = .ok (maxTag (candidates tags current)) := by
  have hparse := parseComponentTag_eq_ok_iff.2 ⟨current, rfl, rfl, rfl⟩
  rw [previousComponentTag, componentForTag_text]
  simp only [bind, Except.bind, hparse]
  rfl

/-- What is found for a list is a highest tag, and nothing is found exactly when there is no tag below. -/
theorem maxTag_candidates {tags : List (List Char)} {current : ReleaseTag} :
    (maxTag (candidates tags current) = none ↔ ∀ tag, ¬ Below tags current tag) ∧
      ∀ text, maxTag (candidates tags current) = some text → ∃ tag, Highest tags current tag ∧ tag.text = text := by
  constructor
  · have hnone : maxTag (candidates tags current) = none ↔ candidates tags current = [] := by
      cases candidates tags current with
      | nil => simp [maxTag]
      | cons first rest => simp [maxTag]
    rw [hnone, List.eq_nil_iff_forall_not_mem]
    constructor
    · intro h tag hbelow
      exact h _ (mem_candidates.2 ⟨tag, hbelow, rfl⟩)
    · intro h item hitem
      obtain ⟨tag, hbelow, -⟩ := mem_candidates.1 hitem
      exact h tag hbelow
  · intro text h
    obtain ⟨item, hitem, rfl, hmax⟩ := maxTag_spec isItem_of_mem h
    obtain ⟨tag, hbelow, rfl⟩ := mem_candidates.1 hitem
    refine ⟨tag, ⟨hbelow, fun other hother => ?_⟩, rfl⟩
    exact hmax _ (mem_candidates.2 ⟨other, hother, rfl⟩)

theorem Below.perm {tags tags' : List (List Char)} {current tag : ReleaseTag} (hperm : tags'.Perm tags)
    (h : Below tags' current tag) : Below tags current tag :=
  ⟨hperm.mem_iff.mp h.mem, h.component, h.lt⟩

theorem Highest.perm {tags tags' : List (List Char)} {current tag : ReleaseTag} (hperm : tags'.Perm tags)
    (h : Highest tags' current tag) : Highest tags current tag :=
  ⟨h.toBelow.perm hperm, fun other hother => h.max other (hother.perm hperm.symm)⟩

/-- A highest tag is found when it stands last. -/
theorem exists_perm_of_highest {tags : List (List Char)} {current tag : ReleaseTag} (h : Highest tags current tag) :
    ∃ tags', tags'.Perm tags ∧ maxTag (candidates tags' current) = some tag.text := by
  have hperm : (tags.erase tag.text ++ [tag.text]).Perm tags :=
    (List.perm_append_singleton _ _).trans (List.perm_cons_erase h.mem).symm
  have hlast := candidate_eq_some_iff.2 ⟨tag, rfl, h.component, h.lt, rfl⟩
  have happend : candidates (tags.erase tag.text ++ [tag.text]) current =
      candidates (tags.erase tag.text) current ++ [(tag.version, tag.text)] := by
    rw [candidates, List.filterMap_append]
    congr 1
    rw [List.filterMap_cons_some hlast, List.filterMap_nil]
  have hmem : (tag.version, tag.text) ∈ candidates tags current := mem_candidates.2 ⟨tag, h.toBelow, rfl⟩
  refine ⟨_, hperm, ?_⟩
  rw [happend]
  refine maxTag_append isItem_of_mem (isItem_of_mem _ hmem) ?_
  intro item hitem
  obtain ⟨other, hother, rfl⟩ := mem_candidates.1 hitem
  exact h.max other ⟨List.mem_of_mem_erase hother.mem, hother.component, hother.lt⟩

/-- The tag before a release is well defined exactly when the build alone does not tell highest tags apart. -/
theorem exists_precedes_iff (tags : List (List Char)) (current : ReleaseTag) :
    (∃ result, Precedes tags current result) ↔
      ¬ ∃ a b, Highest tags current a ∧ Highest tags current b ∧ a.version.DifferInBuild b.version := by
  constructor
  · rintro ⟨result, h⟩ ⟨a, b, ha, hb, hdiffer⟩
    have hfound : ∀ tag, Highest tags current tag → result = some tag.text := by
      intro tag htag
      obtain ⟨tags', hperm, hmax⟩ := exists_perm_of_highest htag
      have hreturned := h.returned tags' hperm
      rw [previousComponentTag_text, hmax] at hreturned
      exact (Except.ok.inj hreturned).symm
    have htext : a.text = b.text := Option.some.inj ((hfound a ha).symm.trans (hfound b hb))
    have hversion := ReleaseTag.text_injective (ha.component.trans hb.component.symm) htext
    exact hdiffer.2.2 (by rw [hversion])
  · intro hno
    obtain ⟨hnone, hsome⟩ := @maxTag_candidates tags current
    refine ⟨maxTag (candidates tags current), ?_, hnone, hsome⟩
    intro tags' hperm
    obtain ⟨hnone', hsome'⟩ := @maxTag_candidates tags' current
    rw [previousComponentTag_text]
    congr 1
    cases hfound : maxTag (candidates tags current) with
    | none =>
      have hbelow := hnone.mp hfound
      exact hnone'.mpr fun tag htag => hbelow tag (htag.perm hperm)
    | some text =>
      obtain ⟨a, ha, rfl⟩ := hsome text hfound
      cases hfound' : maxTag (candidates tags' current) with
      | none => exact absurd (ha.toBelow.perm hperm.symm) (hnone'.mp hfound' a)
      | some text' =>
        obtain ⟨b, hb, rfl⟩ := hsome' text' hfound'
        have hb := hb.perm hperm
        have hsame := le_antisymm (ha.max b hb.toBelow) (hb.max a ha.toBelow)
        obtain ⟨hcore, hpre⟩ := (SemanticVersion.precedence_eq_iff b.wellFormed a.wellFormed).mp hsame
        have hbuild : b.version.build = a.version.build := by
          by_contra hne
          exact hno ⟨b, a, hb, ha, hcore, hpre, hne⟩
        have hversion : b.version = a.version := by
          cases hv : b.version
          cases hw : a.version
          simp_all [SemanticVersion.core]
        rw [ReleaseTag.text, ReleaseTag.text, hversion, hb.component, ha.component]

/-- A result is returned for the tags of the release contract. -/
theorem previousComponentTag_returns_iff (tags : List (List Char)) (text : List Char) :
    (∃ result, previousComponentTag tags text = .ok result) ↔ ∃ current : ReleaseTag, current.text = text := by
  constructor
  · rintro ⟨result, h⟩
    unfold previousComponentTag at h
    cases hcomponent : componentForTag text with
    | error e => simp [bind, Except.bind, hcomponent] at h
    | ok component =>
      cases hparse : parseComponentTag component text with
      | error e => simp [bind, Except.bind, hcomponent, hparse] at h
      | ok version =>
        obtain ⟨current, -, htext, -⟩ := parseComponentTag_eq_ok_iff.1 hparse
        exact ⟨current, htext⟩
  · rintro ⟨current, rfl⟩
    exact ⟨_, previousComponentTag_text tags current⟩

/-- For the tags of a release, the tag before it is well defined unless the build alone tells highest tags
apart, and two versions are above each other exactly when the build alone tells them apart. -/
theorem release_tag_order (tags : List (List Char)) (text : List Char) (current : ReleaseTag) :
    ((∃ result, previousComponentTag tags text = .ok result) ↔ ∃ current : ReleaseTag, current.text = text) ∧
    ((∃ result, Precedes tags current result) ↔
      ¬ ∃ a b, Highest tags current a ∧ Highest tags current b ∧ a.version.DifferInBuild b.version) ∧
    ∀ a b : SemanticVersion, a.WellFormed → b.WellFormed →
      (¬ (a.gt b = true ∧ b.gt a = true) ↔ ¬ a.DifferInBuild b) := by
  refine ⟨previousComponentTag_returns_iff tags text, exists_precedes_iff tags current, ?_⟩
  intro a b ha hb
  rw [SemanticVersion.gt_and_gt_iff ha hb]

/-! ## Builds -/

/-- The version `major.minor.patch+build`. -/
def builtVersion (major minor patch : ℕ) (build : List (List Char)) : SemanticVersion :=
  ⟨major, minor, patch, [], build⟩

def v1_0_0 : ReleaseTag := ⟨.go, builtVersion 1 0 0 [], by simp [builtVersion], by simp [builtVersion],
  by simp [builtVersion]⟩

def v1_1_0 : ReleaseTag := ⟨.go, builtVersion 1 1 0 [], by simp [builtVersion], by simp [builtVersion],
  by simp [builtVersion]⟩

/-- A release with one tag below it. -/
theorem singleTag_precedes :
    (∃ result, Precedes [v1_0_0.text] v1_1_0 result) ∧
      ¬ (v1_0_0.version.gt v1_1_0.version = true ∧ v1_1_0.version.gt v1_0_0.version = true) := by
  obtain ⟨-, hprecedes, hgt⟩ := release_tag_order [v1_0_0.text] v1_1_0.text v1_1_0
  constructor
  · refine hprecedes.mpr ?_
    rintro ⟨a, b, ha, hb, hdiffer⟩
    have htext : a.text = b.text := (List.mem_singleton.mp ha.mem).trans (List.mem_singleton.mp hb.mem).symm
    have hversion := ReleaseTag.text_injective (ha.component.trans hb.component.symm) htext
    exact hdiffer.2.2 (by rw [hversion])
  · refine (hgt _ _ v1_0_0.wellFormed v1_1_0.wellFormed).mpr ?_
    rintro ⟨hcore, -⟩
    exact absurd hcore (by decide)

/-- Two builds of one version are found by their places in the list, and each is above the other. -/
theorem twoBuilds_not_precedes :
    (¬ ∃ result, Precedes ["sdk/go/v1.0.0+a".toList, "sdk/go/v1.0.0+b".toList] v1_1_0 result) ∧
      (builtVersion 1 0 0 [['a']]).gt (builtVersion 1 0 0 [['b']]) = true ∧
      (builtVersion 1 0 0 [['b']]).gt (builtVersion 1 0 0 [['a']]) = true := by
  refine ⟨?_, by decide, by decide⟩
  rintro ⟨result, h⟩
  have hfirst := h.returned ["sdk/go/v1.0.0+a".toList, "sdk/go/v1.0.0+b".toList] (.refl _)
  have hsecond := h.returned ["sdk/go/v1.0.0+b".toList, "sdk/go/v1.0.0+a".toList] (.swap _ _ _)
  have hb : previousComponentTag ["sdk/go/v1.0.0+a".toList, "sdk/go/v1.0.0+b".toList] v1_1_0.text =
      .ok (some "sdk/go/v1.0.0+b".toList) := by
    decide +kernel
  have ha : previousComponentTag ["sdk/go/v1.0.0+b".toList, "sdk/go/v1.0.0+a".toList] v1_1_0.text =
      .ok (some "sdk/go/v1.0.0+a".toList) := by
    decide +kernel
  have hsame := (ha.symm.trans hsecond).trans (hfirst.symm.trans hb)
  exact absurd (Option.some.inj (Except.ok.inj hsame)) (by decide)

end Rtvbp.Release
