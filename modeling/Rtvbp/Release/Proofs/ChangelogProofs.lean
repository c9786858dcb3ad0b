import Rtvbp.Release.Changelog

/-!
# Proofs about changelog sections

The expression finds the first title that it accepts, and its match ends in front of white space that the
strip takes away, either in the line of the title or in the line that it takes for a date.
-/

namespace Rtvbp.Release

open Rtvbp.Lib
open Rtvbp.Lib.Regex

/-! ## White space and lines -/

/-- The text is at the end of a line, or of the file. -/
def AtLineEnd (text : List Char) : Prop := ∀ c ∈ text.head?, c = '\n'

theorem isspace_newline : isspace '\n' = true := by decide

theorem isspace_dash : isspace '-' = false := by decide

theorem isspace_hash : isspace '#' = false := by decide

theorem blank_iff {text : List Char} : blank text = true ↔ ∀ c ∈ text, isspace c = true := List.all_eq_true

theorem blank_append {a b : List Char} : blank (a ++ b) = (blank a && blank b) := List.all_append

theorem line_append_afterLine (text : List Char) : line text ++ afterLine text = text :=
  List.takeWhile_append_dropWhile

theorem newline_notMem_line {text : List Char} : '\n' ∉ line text := by
  intro h
  have := List.mem_takeWhile_imp h
  simp at this

theorem atLineEnd_afterLine (text : List Char) : AtLineEnd (afterLine text) := by
  intro c hc
  have hhead := List.head?_dropWhile_not (· != '\n') text
  rw [show (text.dropWhile (· != '\n')).head? = some c from hc] at hhead
  simpa using hhead

/-- A piece without a line end is part of the line. -/
theorem afterLine_append {a b : List Char} (h : '\n' ∉ a) : afterLine (a ++ b) = afterLine b := by
  refine List.dropWhile_append_of_pos ?_
  intro c hc
  rw [bne_iff_ne]
  rintro rfl
  exact h hc

theorem line_append {a b : List Char} (h : '\n' ∉ a) : line (a ++ b) = a ++ line b := by
  refine List.takeWhile_append_of_pos ?_
  intro c hc
  rw [bne_iff_ne]
  rintro rfl
  exact h hc
theorem afterLine_of_atLineEnd {text : List Char} (h : AtLineEnd text) : afterLine text = text := by
  cases text with
  | nil => rfl
  | cons c text =>
    rw [h c rfl]
    rfl

/-- The line of a text that comes to a line end is in front of it. -/
theorem afterLine_append_of_atLineEnd {a b : List Char} (h : AtLineEnd b) :
    afterLine (a ++ b) = afterLine a ++ b := by
  by_cases hnewline : '\n' ∈ a
  · have hsplit := line_append_afterLine a
    have hne : afterLine a ≠ [] := by
      intro hnil
      rw [hnil, List.append_nil] at hsplit
      rw [← hsplit] at hnewline
      exact newline_notMem_line hnewline
    conv_lhs => rw [← hsplit, List.append_assoc, afterLine_append newline_notMem_line]
    obtain ⟨c, rest, hrest⟩ := List.exists_cons_of_ne_nil hne
    have hc : c = '\n' := atLineEnd_afterLine a c (by rw [hrest]; rfl)
    rw [hrest, hc]
    rfl
  · rw [afterLine_append hnewline, afterLine_of_atLineEnd h]
    have hnil : afterLine a = [] := by
      have := afterLine_append (b := []) hnewline
      rw [List.append_nil] at this
      rw [this]
      rfl
    rw [hnil, List.nil_append]

theorem blank_afterLine {text : List Char} (h : blank text = true) : blank (afterLine text) = true := by
  rw [← line_append_afterLine text, blank_append, Bool.and_eq_true] at h
  exact h.2

theorem dropWhile_white {a b : List Char} (h : blank a = true) :
    (a ++ b).dropWhile isspace = b.dropWhile isspace :=
  List.dropWhile_append_of_pos (blank_iff.1 h)

theorem takeWhile_blank (text : List Char) : blank (text.takeWhile isspace) = true :=
  blank_iff.2 fun _ hc => List.mem_takeWhile_imp hc

theorem strip_white_append {a b : List Char} (h : blank a = true) : strip (a ++ b) = strip b := by
  rw [strip, strip, dropWhile_white h]

theorem strip_eq_nil_iff {text : List Char} : strip text = [] ↔ blank text = true := by
  rw [blank_iff, strip, List.rdropWhile_eq_nil_iff]
  constructor
  · intro h c hc
    rw [← List.takeWhile_append_dropWhile (p := isspace) (l := text), List.mem_append] at hc
    rcases hc with hc | hc
    · exact List.mem_takeWhile_imp hc
    · exact h c hc
  · intro h c hc
    exact h c (List.dropWhile_subset _ hc)

/-! ## The text of a section -/

theorem startsHeading_eq_true_iff {text : List Char} :
    startsHeading text = true ↔ ∃ c rest, text = '#' :: '#' :: c :: rest ∧ isspace c = true := by
  constructor
  · intro h
    unfold startsHeading at h
    split at h
    next c rest => exact ⟨c, rest, rfl, h⟩
    · exact absurd h (by simp)
  · rintro ⟨c, rest, rfl, hc⟩
    exact hc

theorem startsHeading_cons {c : Char} {text : List Char} (h : c ≠ '#') : startsHeading (c :: text) = false := by
  rw [Bool.eq_false_iff]
  intro hstart
  obtain ⟨_, _, heq, _⟩ := startsHeading_eq_true_iff.1 hstart
  exact h (List.cons.inj heq).1

theorem untilHeading_cons {start : Bool} {c : Char} {text : List Char} (h : c ≠ '#' ∨ start = false) :
    untilHeading start (c :: text) = c :: untilHeading (c == '\n') text := by
  rw [untilHeading]
  rcases h with h | h
  · rw [startsHeading_cons h, Bool.and_false]
    rfl
  · rw [h]
    rfl

theorem untilHeading_of_atLineEnd {text : List Char} (h : AtLineEnd text) (start : Bool) :
    untilHeading start text = untilHeading false text := by
  cases text with
  | nil => rfl
  | cons c text =>
    have hc := h c rfl
    rw [hc, untilHeading_cons (.inl (by decide)), untilHeading_cons (.inl (by decide))]

/-- White space is part of the section, and sets the start of a line. -/
theorem untilHeading_white {w rest : List Char} {start : Bool} (h : blank w = true) :
    untilHeading start (w ++ rest) =
      w ++ untilHeading (w.getLast?.elim start (· == '\n')) rest := by
  induction w generalizing start with
  | nil => rfl
  | cons c w ih =>
    obtain ⟨hc, hw⟩ := List.forall_mem_cons.mp (blank_iff.1 h)
    have hne : c ≠ '#' := by
      rintro rfl
      rw [isspace_hash] at hc
      exact absurd hc (by decide)
    rw [List.cons_append, untilHeading_cons (.inl hne), ih (blank_iff.2 hw), List.cons_append]
    cases w with
    | nil => rfl
    | cons d w => rw [List.getLast?_cons_cons, List.getLast?_eq_some_getLast (List.cons_ne_nil d w)]; rfl

/-- No heading starts inside a line. -/
theorem untilHeading_line (text : List Char) :
    untilHeading false text = line text ++ untilHeading false (afterLine text) := by
  induction text with
  | nil => rfl
  | cons c text ih =>
    by_cases hc : c = '\n'
    · subst hc
      rfl
    · have hline : line (c :: text) = c :: line text := by simp [line, hc]
      have hafter : afterLine (c :: text) = afterLine text := by simp [afterLine, hc]
      have hfalse : (c == '\n') = false := by simpa using hc
      rw [untilHeading_cons (.inr rfl), hfalse, ih, hline, hafter, List.cons_append]

theorem strip_untilHeading {w rest : List Char} (hw : blank w = true) (hrest : AtLineEnd rest) :
    strip (untilHeading false (w ++ rest)) = strip (untilHeading false rest) := by
  rw [untilHeading_white hw, strip_white_append hw, untilHeading_of_atLineEnd hrest]

theorem sectionOf_eq (rest : List Char) :
    sectionOf rest =
      if (strip (untilHeading false rest)).isEmpty then none else some (strip (untilHeading false rest)) := by
  rw [sectionOf]
  by_cases h : blank (untilHeading false rest) = true
  · rw [if_pos h, strip_eq_nil_iff.2 h]
    rfl
  · have hne : strip (untilHeading false rest) ≠ [] := fun hnil => h (strip_eq_nil_iff.1 hnil)
    have hfull : (strip (untilHeading false rest)).isEmpty = false := by simpa using hne
    rw [if_neg h, hfull]
    rfl
theorem untilHeading_of_blank {rest : List Char} (h : blank rest = true) : untilHeading false rest = rest := by
  have hwhite := @untilHeading_white rest [] false h
  rwa [List.append_nil, untilHeading, List.append_nil] at hwhite
/-! ## The search for the next heading -/

theorem first_lineStart (r : Regex) (c : Cursor) :
    (seq lineStart r).first c = if c.prev.all (· == '\n') then r.first c else none := by
  by_cases h : c.prev.all (· == '\n') = true
  · rw [if_pos h]
    exact first_seq_of_run (by rw [lineStart, run, if_pos h])
  · rw [if_neg h]
    exact first_seq_of_nil (by rw [lineStart, run, if_neg h])

theorem first_nextHeading (prev : Option Char) (text : List Char) :
    (NEXT_HEADING.first ⟨prev, text, []⟩).isSome = (prev.all (· == '\n') && startsHeading text) := by
  rw [NEXT_HEADING, first_lineStart]
  cases hprev : prev.all (· == '\n') with
  | false => rfl
  | true =>
    simp only [if_true, Bool.true_and]
    rw [Bool.eq_iff_iff, startsHeading_eq_true_iff]
    constructor
    · intro h
      obtain ⟨d, hd⟩ := Option.isSome_iff_exists.mp h
      obtain ⟨w, g, ⟨u, v, gu, gv, rfl, rfl, hu, hv⟩, hrest, -, -⟩ := reaches_of_first hd
      obtain ⟨rfl, rfl⟩ := matches_literal.1 hu
      obtain ⟨hne, hwhite, rfl⟩ := matches_plus.1 hv
      obtain ⟨c, v, rfl⟩ := List.exists_cons_of_ne_nil hne
      exact ⟨c, v ++ d.rest, hrest, hwhite c List.mem_cons_self⟩
    · rintro ⟨c, rest, rfl, hc⟩
      rw [Option.isSome_iff_exists]
      refine first_of_reaches (d := ⟨some c, rest, []⟩) ⟨['#', '#', c], [], ⟨['#', '#'], [c], [], [], rfl, rfl,
        matches_literal.2 ⟨rfl, rfl⟩, matches_plus.2 ⟨List.cons_ne_nil _ _, ?_, rfl⟩⟩, rfl, rfl, rfl⟩
      simpa using hc

theorem search_nextHeading {n : ℕ} {prev : Option Char} {text : List Char} :
    match NEXT_HEADING.searchFrom n prev text with
    | some (start, _) => n ≤ start ∧ text.take (start - n) = untilHeading (prev.all (· == '\n')) text
    | none => text = untilHeading (prev.all (· == '\n')) text := by
  induction text generalizing n prev with
  | nil =>
    have hfirst : NEXT_HEADING.first ⟨prev, [], []⟩ = none := by
      have hhere := first_nextHeading prev []
      rw [show startsHeading [] = false from rfl, Bool.and_false] at hhere
      exact Option.not_isSome_iff_eq_none.mp (by rw [hhere]; decide)
    rw [searchFrom_nil hfirst]
    rfl
  | cons x xs ih =>
    have hhere := first_nextHeading prev (x :: xs)
    rw [untilHeading]
    cases hfirst : NEXT_HEADING.first ⟨prev, x :: xs, []⟩ with
    | some stop =>
      rw [hfirst] at hhere
      rw [searchFrom_of_first hfirst, ← hhere]
      simp
    | none =>
      rw [hfirst] at hhere
      have hnext := @ih (n + 1) (some x)
      rw [searchFrom_cons hfirst, ← hhere]
      simp only [Option.isSome_none, Bool.false_eq_true, if_false]
      cases hsearch : NEXT_HEADING.searchFrom (n + 1) (some x) xs with
      | none =>
        rw [hsearch] at hnext
        simp only [Option.all_some] at hnext
        exact congrArg (x :: ·) hnext
      | some found =>
        obtain ⟨start, stop⟩ := found
        rw [hsearch] at hnext
        simp only [Option.all_some] at hnext
        obtain ⟨hle, htake⟩ := hnext
        have hstep : start - n = (start - (n + 1)) + 1 := by omega
        refine ⟨by omega, ?_⟩
        rw [hstep, List.take_succ_cons, htake]

/-- The section that the program cuts out in front of a line end. -/
theorem sectionText_eq {rest : List Char} (h : AtLineEnd rest) :
    sectionText rest = strip (untilHeading false rest) := by
  have hsearch := @search_nextHeading 0 none rest
  rw [Option.all_none, untilHeading_of_atLineEnd h] at hsearch
  rw [sectionText, search]
  cases hfound : NEXT_HEADING.searchFrom 0 none rest with
  | none =>
    rw [hfound] at hsearch
    exact congrArg strip hsearch
  | some found =>
    obtain ⟨start, stop⟩ := found
    rw [hfound] at hsearch
    exact congrArg strip hsearch.2

/-! ## What follows a title -/

/-- The end of the expression for a heading. -/
def TAIL : Regex := seq (many isspace) lineEnd

theorem matches_lineEnd {prev : Option Char} {w rest : List Char} {g : Groups} :
    lineEnd.Matches prev w rest g ↔ AtLineEnd rest ∧ w = [] ∧ g = [] := by
  have hend : rest.head?.all (· == '\n') = true ↔ AtLineEnd rest := by
    unfold AtLineEnd
    cases rest.head? <;> simp
  rw [lineEnd, Matches, hend]

theorem matches_tail {prev : Option Char} {w rest : List Char} {g : Groups} :
    TAIL.Matches prev w rest g ↔ blank w = true ∧ AtLineEnd rest ∧ g = [] := by
  constructor
  · rintro ⟨u, v, gu, gv, rfl, rfl, ⟨hu, rfl⟩, hv⟩
    obtain ⟨hrest, rfl, rfl⟩ := matches_lineEnd.1 hv
    rw [List.append_nil]
    exact ⟨blank_iff.2 hu, hrest, rfl⟩
  · rintro ⟨hw, hrest, rfl⟩
    exact ⟨w, [], [], [], (List.append_nil w).symm, rfl, ⟨blank_iff.1 hw, rfl⟩, matches_lineEnd.2 ⟨hrest, rfl, rfl⟩⟩

/-- The words that the expression reads as a date: white space, a dash, white space and a piece of a line. -/
theorem matches_date {prev : Option Char} {w rest : List Char} {g : Groups} :
    DATE.Matches prev w rest g ↔
      ∃ a b c : List Char, w = a ++ ('-' :: (b ++ c)) ∧ (a ≠ [] ∧ blank a = true) ∧ (b ≠ [] ∧ blank b = true) ∧
        (c ≠ [] ∧ '\n' ∉ c) ∧ g = [] := by
  constructor
  · rintro ⟨a, _, _, _, rfl, rfl, ha, _, _, _, _, rfl, rfl, ⟨x, hx, rfl, rfl⟩, b, c, _, _, rfl, rfl, hb, hc⟩
    obtain ⟨hne, hwhite, rfl⟩ := matches_plus.1 ha
    obtain ⟨hne', hwhite', rfl⟩ := matches_plus.1 hb
    obtain ⟨hne'', hline, rfl⟩ := matches_plus.1 hc
    have hdash : x = '-' := by simpa using hx
    subst hdash
    refine ⟨a, b, c, rfl, ⟨hne, blank_iff.2 hwhite⟩, ⟨hne', blank_iff.2 hwhite'⟩, ⟨hne'', ?_⟩, rfl⟩
    intro hmem
    simpa using hline '\n' hmem
  · rintro ⟨a, b, c, rfl, ⟨hne, ha⟩, ⟨hne', hb⟩, ⟨hne'', hc⟩, rfl⟩
    refine ⟨a, '-' :: (b ++ c), [], [], rfl, rfl, matches_plus.2 ⟨hne, blank_iff.1 ha, rfl⟩, ['-'], b ++ c, [], [],
      rfl, rfl, ⟨'-', rfl, rfl, rfl⟩, b, c, [], [], rfl, rfl, matches_plus.2 ⟨hne', blank_iff.1 hb, rfl⟩,
      matches_plus.2 ⟨hne'', ?_, rfl⟩⟩
    intro x hx
    rw [bne_iff_ne]
    rintro rfl
    exact hc hx

/-- White space, a dash and white space after a title. -/
theorem afterDash_eq_some_iff {rest date : List Char} :
    afterDash rest = some date ↔
      ∃ a : List Char, rest = a ++ '-' :: date ∧ (a ≠ [] ∧ blank a = true) ∧ ∃ c ∈ date.head?, isspace c = true := by
  unfold afterDash
  constructor
  · intro h
    split at h
    next found hdrop =>
      obtain ⟨hif, hdate⟩ := Option.ite_none_right_eq_some.mp h
      have hdate := Option.some.inj hdate
      subst hdate
      obtain ⟨hhead, hnext⟩ := Bool.and_eq_true_iff.mp hif
      have hsplit := List.takeWhile_append_dropWhile (p := isspace) (l := rest)
      rw [hdrop] at hsplit
      refine ⟨rest.takeWhile isspace, hsplit.symm, ⟨?_, takeWhile_blank rest⟩, ?_⟩
      · intro hnil
        rw [hnil, List.nil_append] at hsplit
        rw [← hsplit] at hhead
        simp [isspace_dash] at hhead
      · cases hhead' : found.head? with
        | none =>
          rw [hhead'] at hnext
          exact absurd hnext (by decide)
        | some c =>
          rw [hhead'] at hnext
          exact ⟨c, rfl, hnext⟩
    · exact absurd h (by simp)
  · rintro ⟨a, rfl, ⟨hne, ha⟩, c, hc, hwhite⟩
    rw [dropWhile_white ha, List.dropWhile_cons_of_neg (by simp [isspace_dash])]
    obtain ⟨x, a, rfl⟩ := List.exists_cons_of_ne_nil hne
    have hx := blank_iff.1 ha x List.mem_cons_self
    have hc : date.head? = some c := hc
    simp [hx, hc, hwhite]

theorem dateLine_append {a date : List Char} (ha : blank a = true) :
    dateLine (a ++ '-' :: date) = date.dropWhile isspace := by
  rw [dateLine, dropWhile_white ha, List.dropWhile_cons_of_neg (by simp [isspace_dash])]
  rfl

/-- A match of the optional part with the end of the expression shows a date. -/
theorem findsDate_of_reaches {c d : Cursor} (h : Reaches (seq DATE TAIL).Matches c d) :
    findsDate c.rest = true ∧ ∃ a w, blank a = true ∧ c.rest = a ++ '-' :: (w ++ d.rest) ∧ AtLineEnd d.rest := by
  obtain ⟨w, g, ⟨u, v, gu, gv, rfl, rfl, hu, hv⟩, hrest, -, -⟩ := h
  obtain ⟨a, b, x, rfl, ha, ⟨hne, hb⟩, ⟨hne', hx⟩, rfl⟩ := matches_date.1 hu
  obtain ⟨-, hend, -⟩ := matches_tail.1 hv
  refine ⟨?_, a, b ++ x ++ v, ha.2, by rw [hrest]; simp, hend⟩
  obtain ⟨y, b, rfl⟩ := List.exists_cons_of_ne_nil hne
  obtain ⟨z, x, rfl⟩ := List.exists_cons_of_ne_nil hne'
  have hz : z ≠ '\n' := fun heq => hx (by rw [heq]; exact List.mem_cons_self)
  have hdash : afterDash c.rest = some (y :: (b ++ (z :: x ++ (v ++ d.rest)))) := by
    rw [afterDash_eq_some_iff]
    exact ⟨a, by rw [hrest]; simp, ha, y, rfl, blank_iff.1 hb y List.mem_cons_self⟩
  rw [findsDate, hdash]
  simp [hz]

/-- A date that is there is matched by the optional part with the end of the expression. -/
theorem reaches_of_findsDate {rest : List Char} (h : findsDate rest = true) (prev : Option Char) (g : Groups) :
    ∃ d, Reaches (seq DATE TAIL).Matches ⟨prev, rest, g⟩ d := by
  unfold findsDate at h
  cases hdash : afterDash rest with
  | none =>
    rw [hdash] at h
    exact absurd h (by simp)
  | some date =>
    obtain ⟨a, rfl, ha, y, hy, hwhite⟩ := afterDash_eq_some_iff.1 hdash
    rw [hdash, Option.any_some] at h
    obtain ⟨y', date, rfl⟩ : ∃ y' date', date = y' :: date' := by
      cases date with
      | nil => exact absurd hy (by simp)
      | cons y' date' => exact ⟨y', date', rfl⟩
    have hy : y' = y := Option.some.inj hy
    subst hy
    -- The line ends in front of the date stay with the white space.
    have hsplit := List.takeWhile_append_dropWhile (p := (· == '\n')) (l := date)
    have hnewlines : blank (date.takeWhile (· == '\n')) = true := by
      rw [blank_iff]
      intro c hc
      have heq := List.mem_takeWhile_imp hc
      rw [beq_iff_eq.mp heq]
      exact isspace_newline
    generalize date.takeWhile (· == '\n') = n at hsplit hnewlines
    have hne : date.dropWhile (· == '\n') ≠ [] := by
      intro hnil
      rw [List.dropWhile_eq_nil_iff] at hnil
      obtain ⟨c, hc, hcne⟩ := List.any_eq_true.mp h
      have heq := hnil c hc
      rw [bne, heq] at hcne
      exact absurd hcne (by decide)
    have hhead := List.head?_dropWhile_not (· == '\n') date
    generalize date.dropWhile (· == '\n') = piece at hsplit hne hhead
    obtain ⟨z, piece, rfl⟩ := List.exists_cons_of_ne_nil hne
    have hz : z ≠ '\n' := by simpa using hhead
    have hline : line (z :: piece) ≠ [] := by simp [line, hz]
    refine ⟨⟨_, afterLine (z :: piece), g⟩, a ++ ('-' :: ((y' :: n) ++ line (z :: piece))) ++ [], [],
      ⟨_, [], [], [], rfl, rfl, matches_date.2 ⟨a, y' :: n, line (z :: piece), rfl, ha,
        ⟨List.cons_ne_nil _ _, ?_⟩, ⟨hline, newline_notMem_line⟩, rfl⟩,
        matches_tail.2 ⟨rfl, atLineEnd_afterLine _, rfl⟩⟩, ?_, rfl, rfl⟩
    · exact blank_iff.2 (List.forall_mem_cons.mpr ⟨hwhite, blank_iff.1 hnewlines⟩)
    · have hpiece := line_append_afterLine (z :: piece)
      simp only [List.append_nil, List.append_assoc, List.cons_append]
      rw [hpiece, hsplit]

/-! ## The match of a heading -/

/-- A date in the line of the title is found there, and nothing behind the line is taken. -/
theorem findsDate_of_isDated {rest : List Char} (h : isDated (line rest) = true) :
    findsDate rest = true ∧ afterLine (dateLine rest) = afterLine rest := by
  have hsplit := line_append_afterLine rest
  have hnewline : '\n' ∉ line rest := newline_notMem_line
  have hend := atLineEnd_afterLine rest
  generalize line rest = l at h hsplit hnewline
  generalize afterLine rest = e at hsplit hend
  subst hsplit
  unfold isDated at h
  split at h
  next date hdrop =>
    obtain ⟨h, hfull⟩ := Bool.and_eq_true_iff.mp h
    obtain ⟨hhead, hnext⟩ := Bool.and_eq_true_iff.mp h
    have hdash : afterDash l = some date := by
      rw [afterDash, hdrop]
      simp [hhead, hnext]
    obtain ⟨a, rfl, ha, y, hy, hwhite⟩ := afterDash_eq_some_iff.1 hdash
    obtain ⟨y', date, rfl⟩ : ∃ y' date', date = y' :: date' := by
      cases date with
      | nil => exact absurd hy (by simp)
      | cons y' date' => exact ⟨y', date', rfl⟩
    have hy : y' = y := Option.some.inj hy
    subst hy
    have hdash' : afterDash ((a ++ '-' :: (y' :: date)) ++ e) = some ((y' :: date) ++ e) := by
      rw [afterDash_eq_some_iff]
      exact ⟨a, by simp, ha, y', rfl, hwhite⟩
    have hdate : '\n' ∉ y' :: date := fun hmem => hnewline (by simp [List.mem_cons.mp hmem])
    have hsome : ¬ blank date = true := by
      intro hblank
      have : blank (y' :: date) = true := blank_iff.2 (List.forall_mem_cons.mpr ⟨hwhite, blank_iff.1 hblank⟩)
      rw [this] at hfull
      exact absurd hfull (by decide)
    have hrest : (y' :: date).dropWhile isspace ≠ [] := by
      intro hnil
      rw [List.dropWhile_cons_of_pos hwhite, List.dropWhile_eq_nil_iff] at hnil
      exact hsome (blank_iff.2 hnil)
    constructor
    · rw [findsDate, hdash', Option.any_some, List.cons_append, List.tail_cons, List.any_append, Bool.or_eq_true]
      left
      obtain ⟨c, date, rfl⟩ := List.exists_cons_of_ne_nil (fun hnil : date = [] => hsome (by rw [hnil]; rfl))
      have hc : c ≠ '\n' := by
        rintro rfl
        exact hdate (by simp)
      simp [hc]
    · have hsame : dateLine ((a ++ '-' :: (y' :: date)) ++ e) = (y' :: date).dropWhile isspace ++ e := by
        rw [List.append_assoc, List.cons_append, dateLine_append ha.2, List.dropWhile_append]
        simp [hrest]
      have hnone : '\n' ∉ (y' :: date).dropWhile isspace := fun hmem =>
        hdate (List.dropWhile_subset _ hmem)
      rw [hsame, afterLine_append hnone, afterLine_of_atLineEnd hend]
  · exact absurd h (by decide)

theorem endsMatch_iff {rest : List Char} :
    endsMatch rest = true ↔ blank (line rest) = true ∨ findsDate rest = true := by
  rw [endsMatch, endsHeading, Bool.or_eq_true, Bool.or_eq_true]
  constructor
  · rintro ((h | h) | h)
    · exact .inl h
    · exact .inr (findsDate_of_isDated h).1
    · exact .inr h
  · rintro (h | h)
    · exact .inl (.inl h)
    · exact .inr h

/-- The text after the match of a heading: the rest of its line, or the line that is taken for a date. -/
def matchEnd (rest : List Char) : List Char :=
  if crossesLine rest then afterLine (dateLine rest) else afterLine rest

theorem matchEnd_of_findsDate {rest : List Char} (h : findsDate rest = true) :
    matchEnd rest = afterLine (dateLine rest) := by
  unfold matchEnd
  split_ifs with hcross
  · rfl
  · have hdated : isDated (line rest) = true := by
      rw [crossesLine, h, Bool.true_and, Bool.not_eq_true, Bool.not_eq_false'] at hcross
      exact hcross
    exact (findsDate_of_isDated hdated).2.symm

theorem matchEnd_of_not_findsDate {rest : List Char} (h : findsDate rest = false) :
    matchEnd rest = afterLine rest := by
  rw [matchEnd, crossesLine, h]
  rfl

/-- The place of the match is right up to the white space in front of the section. -/
structure EndsAt (rest : List Char) (stop : Cursor) : Prop where
  atLineEnd : AtLineEnd stop.rest
  same : strip (untilHeading false stop.rest) = strip (untilHeading false (matchEnd rest))

/-- The white space after the dash is passed as a whole when something follows it. -/
theorem first_date_of_dateLine {a w q : List Char} {prev : Option Char} {g : Groups} {stop : Cursor}
    (ha : a ≠ [] ∧ blank a = true) (hw : w ≠ [] ∧ blank w = true) (hq : ∀ c ∈ q.head?, isspace c = false)
    (hstop : (seq (plus (· != '\n')) TAIL).first ⟨lastOf (some '-') w, q, g⟩ = some stop) :
    (seq DATE TAIL).first ⟨prev, a ++ '-' :: (w ++ q), g⟩ = some stop := by
  have hwhite : (seq (plus isspace) (seq (plus (· != '\n')) TAIL)).first ⟨some '-', w ++ q, g⟩ = some stop :=
    first_seq (first_plus hw.1 (blank_iff.1 hw.2) hq) hstop
  have hdash : (seq (one (· == '-')) (seq (seq (plus isspace) (plus (· != '\n'))) TAIL)).first
      ⟨lastOf prev a, '-' :: (w ++ q), g⟩ = some stop := by
    have hone : (one (· == '-')).run ⟨lastOf prev a, '-' :: (w ++ q), g⟩ = [⟨some '-', w ++ q, g⟩] := rfl
    rw [first_seq_of_run hone, first_seq_assoc]
    exact hwhite
  have hhead : ∀ c ∈ ('-' :: (w ++ q)).head?, isspace c = false := by
    intro c hc
    rw [← Option.some.inj hc]
    exact isspace_dash
  rw [DATE, first_seq_assoc]
  refine first_seq (first_plus ha.1 (blank_iff.1 ha.2) hhead) ?_
  rw [first_seq_assoc]
  exact hdash

/-- A piece of a line and white space up to a line end. -/
theorem first_lineTail {q : List Char} (hne : line q ≠ []) (prev : Option Char) (g : Groups) :
    ∃ stop, (seq (plus (· != '\n')) TAIL).first ⟨prev, q, g⟩ = some stop ∧
      ∃ v, blank v = true ∧ afterLine q = v ++ stop.rest ∧ AtLineEnd stop.rest := by
  have hnonewline : ∀ {x : List Char}, (∀ c ∈ x, (c != '\n') = true) → '\n' ∉ x := by
    intro x hx hmem
    exact absurd (hx '\n' hmem) (by decide)
  have hreach : Reaches (seq (plus (· != '\n')) TAIL).Matches ⟨prev, q, g⟩ ⟨lastOf prev (line q), afterLine q, g⟩ := by
    refine ⟨line q ++ [], [], ⟨line q, [], [], [], rfl, rfl, matches_plus.2 ⟨hne, ?_, rfl⟩,
      matches_tail.2 ⟨rfl, atLineEnd_afterLine q, rfl⟩⟩, ?_, by simp, rfl⟩
    · intro c hc
      have hmem : c ∈ q.takeWhile (· != '\n') := hc
      exact List.mem_takeWhile_imp (p := (· != '\n')) hmem
    · rw [List.append_nil]
      exact (line_append_afterLine q).symm
  obtain ⟨stop, hfirst⟩ := first_of_reaches hreach
  obtain ⟨w, gw, ⟨x, v, gx, gv, rfl, rfl, hx, hv⟩, hrest, -, -⟩ := reaches_of_first hfirst
  obtain ⟨-, hline, rfl⟩ := matches_plus.1 hx
  obtain ⟨hwhite, hend, rfl⟩ := matches_tail.1 hv
  refine ⟨stop, hfirst, afterLine v, blank_afterLine hwhite, ?_, hend⟩
  rw [show q = x ++ v ++ stop.rest from hrest, List.append_assoc, afterLine_append (hnonewline hline),
    afterLine_append_of_atLineEnd hend]

/-- A date that is found is taken with the whole line. -/
theorem first_date {rest : List Char} (h : findsDate rest = true) (prev : Option Char) (g : Groups) :
    ∃ stop, (seq DATE TAIL).first ⟨prev, rest, g⟩ = some stop ∧ EndsAt rest stop := by
  have hmatchEnd := matchEnd_of_findsDate h
  by_cases hnil : dateLine rest = []
  · -- Only white space follows the dash, so nothing is left after the match.
    obtain ⟨d, hd⟩ := reaches_of_findsDate h prev g
    obtain ⟨stop, hfirst⟩ := first_of_reaches hd
    obtain ⟨-, a, w, ha, hrest, hend⟩ := findsDate_of_reaches (reaches_of_first hfirst)
    have hrest : rest = a ++ '-' :: (w ++ stop.rest) := hrest
    rw [hrest, dateLine_append ha, List.dropWhile_eq_nil_iff] at hnil
    have hblank : blank stop.rest = true := blank_iff.2 fun c hc => hnil c (List.mem_append_right w hc)
    have hdateLine : dateLine rest = [] := by
      rw [hrest, dateLine_append ha, List.dropWhile_eq_nil_iff]
      exact hnil
    refine ⟨stop, hfirst, hend, ?_⟩
    rw [untilHeading_of_blank hblank, strip_eq_nil_iff.2 hblank, hmatchEnd, hdateLine]
    rfl
  · unfold findsDate at h
    cases hdash : afterDash rest with
    | none =>
      rw [hdash] at h
      exact absurd h (by simp)
    | some date =>
      obtain ⟨a, rfl, ha, y, hy, hwhite⟩ := afterDash_eq_some_iff.1 hdash
      rw [dateLine_append ha.2] at hnil hmatchEnd
      have hsplit := List.takeWhile_append_dropWhile (p := isspace) (l := date)
      have hw : date.takeWhile isspace ≠ [] := by
        cases date with
        | nil => exact absurd hy (by simp)
        | cons y' date =>
          have hy : y' = y := Option.some.inj hy
          rw [List.takeWhile_cons_of_pos (by rw [hy]; exact hwhite)]
          exact List.cons_ne_nil _ _
      have hhead : ∀ c ∈ (date.dropWhile isspace).head?, isspace c = false := by
        intro c hc
        have hnot := List.head?_dropWhile_not isspace date
        rw [show (date.dropWhile isspace).head? = some c from hc] at hnot
        simpa using hnot
      have hline : line (date.dropWhile isspace) ≠ [] := by
        obtain ⟨c, q, hq⟩ := List.exists_cons_of_ne_nil hnil
        have hc : isspace c = false := hhead c (by rw [hq]; rfl)
        have hne : c ≠ '\n' := by
          rintro rfl
          rw [isspace_newline] at hc
          exact absurd hc (by decide)
        rw [hq]
        simp [line, hne]
      obtain ⟨stop, hfirst, v, hv, hafter, hend⟩ :=
        first_lineTail hline (lastOf (some '-') (date.takeWhile isspace)) g
      have hmatch := @first_date_of_dateLine _ _ _ prev _ _ ha ⟨hw, takeWhile_blank date⟩ hhead hfirst
      rw [hsplit] at hmatch
      refine ⟨stop, hmatch, hend, ?_⟩
      rw [hmatchEnd, hafter, strip_untilHeading hv hend]

/-- The end of the expression reaches a line end behind white space. -/
theorem first_tail_iff {rest : List Char} {prev : Option Char} {g : Groups} :
    (TAIL.first ⟨prev, rest, g⟩).isSome = blank (line rest) := by
  rw [Bool.eq_iff_iff]
  constructor
  · intro h
    obtain ⟨d, hd⟩ := Option.isSome_iff_exists.mp h
    obtain ⟨w, _, hw, hrest, -, -⟩ := reaches_of_first hd
    obtain ⟨hwhite, hend, rfl⟩ := matches_tail.1 hw
    have hrest : rest = w ++ d.rest := hrest
    have hline : blank (line w) = true := by
      rw [← line_append_afterLine w, blank_append, Bool.and_eq_true] at hwhite
      exact hwhite.1
    have hsame : line rest ++ afterLine rest = line w ++ (afterLine w ++ d.rest) := by
      rw [line_append_afterLine, ← List.append_assoc, line_append_afterLine]
      exact hrest
    have hafter : afterLine rest = afterLine w ++ d.rest := by
      rw [hrest, afterLine_append_of_atLineEnd hend]
    rw [hafter] at hsame
    rw [List.append_cancel_right hsame]
    exact hline
  · intro h
    rw [Option.isSome_iff_exists]
    refine first_of_reaches (d := ⟨lastOf prev (line rest), afterLine rest, g⟩) ⟨line rest, [],
      matches_tail.2 ⟨h, atLineEnd_afterLine rest, rfl⟩, (line_append_afterLine rest).symm, rfl, rfl⟩

theorem endsAt_of_tail {rest : List Char} {prev : Option Char} {g : Groups} {stop : Cursor}
    (hdate : findsDate rest = false) (h : TAIL.first ⟨prev, rest, g⟩ = some stop) : EndsAt rest stop := by
  obtain ⟨w, _, hw, hrest, -, -⟩ := reaches_of_first h
  obtain ⟨hwhite, hend, rfl⟩ := matches_tail.1 hw
  refine ⟨hend, ?_⟩
  rw [matchEnd_of_not_findsDate hdate, show rest = w ++ stop.rest from hrest,
    afterLine_append_of_atLineEnd hend, strip_untilHeading (blank_afterLine hwhite) hend]

theorem first_afterTitle (rest : List Char) (prev : Option Char) (g : Groups) :
    (seq (opt DATE) TAIL).first ⟨prev, rest, g⟩ =
      ((seq DATE TAIL).first ⟨prev, rest, g⟩).or (TAIL.first ⟨prev, rest, g⟩) := by
  rw [opt, first_seq_alt, first_seq_of_run (run_empty _)]

/-- What follows a title is matched as the program looks at it. -/
theorem first_endsMatch (rest : List Char) (prev : Option Char) (g : Groups) :
    match (seq (opt DATE) TAIL).first ⟨prev, rest, g⟩ with
    | some stop => endsMatch rest = true ∧ EndsAt rest stop
    | none => endsMatch rest = false := by
  rw [first_afterTitle]
  cases hdate : findsDate rest with
  | true =>
    obtain ⟨stop, hfirst, hends⟩ := first_date hdate prev g
    rw [hfirst]
    exact ⟨endsMatch_iff.2 (.inr hdate), hends⟩
  | false =>
    have hnone : (seq DATE TAIL).first ⟨prev, rest, g⟩ = none := by
      rw [first_eq_none]
      intro d hd
      have hfinds := (findsDate_of_reaches hd).1
      rw [show findsDate rest = false from hdate] at hfinds
      exact absurd hfinds (by decide)
    have hiff := @first_tail_iff rest prev g
    rw [hnone, Option.none_or]
    cases htail : TAIL.first ⟨prev, rest, g⟩ with
    | some stop =>
      rw [htail] at hiff
      exact ⟨endsMatch_iff.2 (.inl hiff.symm), endsAt_of_tail hdate htail⟩
    | none =>
      rw [htail] at hiff
      rw [Bool.eq_false_iff]
      intro hends
      rcases endsMatch_iff.1 hends with hblank | hfinds
      · rw [hblank] at hiff
        exact absurd hiff (by decide)
      · rw [hdate] at hfinds
        exact absurd hfinds (by decide)

/-! ## The search for the heading -/

theorem afterPrefix_eq_some_iff {word text rest : List Char} :
    afterPrefix word text = some rest ↔ text = word ++ rest := by
  unfold afterPrefix
  constructor
  · intro h
    obtain ⟨hstarts, hrest⟩ := Option.ite_none_right_eq_some.mp h
    obtain ⟨t, rfl⟩ := List.isPrefixOf_iff_prefix.mp hstarts
    rw [List.drop_left] at hrest
    rw [Option.some.inj hrest]
  · rintro rfl
    rw [if_pos (List.isPrefixOf_iff_prefix.mpr (List.prefix_append _ _)), List.drop_left]

theorem firstTitle_here {version text rest : List Char} {goesOn : List Char → Bool} {start : Bool}
    (hstart : start = true) (htext : text = title version ++ rest) (h : goesOn rest = true) :
    firstTitle version goesOn start text = some rest := by
  have hprefix := afterPrefix_eq_some_iff.2 htext
  unfold firstTitle
  rw [if_pos hstart, hprefix, Option.filter_some, if_pos h]

/-- The text is not a title that goes on as asked. -/
def NoTitle (version text : List Char) (goesOn : List Char → Bool) (start : Bool) : Prop :=
  start = true → ∀ rest, text = title version ++ rest → goesOn rest = false

theorem NoTitle.eq_none {version text : List Char} {goesOn : List Char → Bool} {start : Bool}
    (h : NoTitle version text goesOn start) :
    (if start then (afterPrefix (title version) text).filter goesOn else none) = none := by
  split_ifs with hstart
  · cases hprefix : afterPrefix (title version) text with
    | none => rfl
    | some rest =>
      rw [Option.filter_some, h hstart rest (afterPrefix_eq_some_iff.1 hprefix)]
      rfl
  · rfl

theorem firstTitle_nil {version : List Char} {goesOn : List Char → Bool} {start : Bool}
    (h : NoTitle version [] goesOn start) : firstTitle version goesOn start [] = none := by
  unfold firstTitle
  rw [h.eq_none]

theorem firstTitle_cons {version : List Char} {goesOn : List Char → Bool} {start : Bool} {x : Char}
    {xs : List Char} (h : NoTitle version (x :: xs) goesOn start) :
    firstTitle version goesOn start (x :: xs) = firstTitle version goesOn (x == '\n') xs := by
  conv_lhs => unfold firstTitle
  rw [h.eq_none]

/-- The heading is matched where its title starts a line and goes on as the program looks at it. -/
theorem first_heading {version text : List Char} {prev : Option Char} :
    match (heading version).first ⟨prev, text, []⟩ with
    | some stop => ∃ rest, prev.all (· == '\n') = true ∧ text = title version ++ rest ∧
        endsMatch rest = true ∧ EndsAt rest stop
    | none => NoTitle version text endsMatch (prev.all (· == '\n')) := by
  rw [heading, first_lineStart]
  by_cases hstart : prev.all (· == '\n') = true
  · rw [if_pos hstart]
    by_cases hprefix : title version <+: text
    · obtain ⟨rest, rfl⟩ := hprefix
      have hrest := first_endsMatch rest (lastOf prev (title version)) []
      rw [first_seq_of_run run_literal]
      cases hfirst : (seq (opt DATE) TAIL).first ⟨lastOf prev (title version), rest, []⟩ with
      | some stop =>
        rw [hfirst] at hrest
        rw [show seq (many isspace) lineEnd = TAIL from rfl, hfirst]
        exact ⟨rest, hstart, rfl, hrest⟩
      | none =>
        rw [hfirst] at hrest
        rw [show seq (many isspace) lineEnd = TAIL from rfl, hfirst]
        intro _ rest' htext
        rw [← List.append_cancel_left htext]
        exact hrest
    · rw [first_seq_of_nil (run_literal_eq_nil hprefix)]
      intro _ rest htext
      exact absurd ⟨rest, htext.symm⟩ hprefix
  · rw [if_neg hstart]
    intro h
    exact absurd h hstart

theorem firstTitle_of_first {version text : List Char} {prev : Option Char} {stop : Cursor}
    (hfirst : (heading version).first ⟨prev, text, []⟩ = some stop) :
    ∃ rest, firstTitle version endsMatch (prev.all (· == '\n')) text = some rest ∧ EndsAt rest stop := by
  have hhere := @first_heading version text prev
  rw [hfirst] at hhere
  obtain ⟨rest, hstart, htext, hgoes, hends⟩ := hhere
  exact ⟨rest, firstTitle_here hstart htext hgoes, hends⟩

theorem search_heading {version text : List Char} {n : ℕ} {prev : Option Char} :
    match (heading version).searchFrom n prev text with
    | some (_, stop) => ∃ rest, firstTitle version endsMatch (prev.all (· == '\n')) text = some rest ∧
        EndsAt rest stop
    | none => firstTitle version endsMatch (prev.all (· == '\n')) text = none := by
  induction text generalizing n prev with
  | nil =>
    have hhere := @first_heading version [] prev
    cases hfirst : (heading version).first ⟨prev, [], []⟩ with
    | some stop =>
      rw [searchFrom_of_first hfirst]
      exact firstTitle_of_first hfirst
    | none =>
      rw [hfirst] at hhere
      rw [searchFrom_nil hfirst]
      exact firstTitle_nil hhere
  | cons x xs ih =>
    have hhere := @first_heading version (x :: xs) prev
    cases hfirst : (heading version).first ⟨prev, x :: xs, []⟩ with
    | some stop =>
      rw [searchFrom_of_first hfirst]
      exact firstTitle_of_first hfirst
    | none =>
      rw [hfirst] at hhere
      rw [searchFrom_cons hfirst, firstTitle_cons hhere]
      exact ih

/-- What the program returns for a changelog. -/
theorem toOption_extract (changelog version : List Char) :
    (extractChangelogSection changelog version).toOption =
      (firstTitle version endsMatch true changelog).bind fun rest => sectionOf (matchEnd rest) := by
  have hsearch := @search_heading version changelog 0 none
  rw [Option.all_none] at hsearch
  unfold extractChangelogSection search
  cases hfound : (heading version).searchFrom 0 none changelog with
  | none =>
    rw [hfound] at hsearch
    rw [hsearch]
    rfl
  | some found =>
    obtain ⟨start, stop⟩ := found
    rw [hfound] at hsearch
    obtain ⟨rest, hfirst, hends⟩ := hsearch
    rw [hfirst, Option.bind_some, sectionOf_eq, ← hends.same, ← sectionText_eq hends.atLineEnd]
    cases hempty : (sectionText stop.rest).isEmpty <;> simp [hempty, Except.toOption]

end Rtvbp.Release

/-!
## Proofs about the section of a version

The program returns the section of the heading, unless its expression takes a later line for the date.
-/

namespace Rtvbp.Release

open Rtvbp.Lib

/-! ## Titles -/

/-- What follows the title, if the text starts with it at the start of a line. -/
def titleHere (version : List Char) (start : Bool) (text : List Char) : List (List Char) :=
  if start then (afterPrefix (title version) text).toList else []

/-- What follows the title in each of the lines that start with it. -/
def titleRests (version : List Char) : Bool → List Char → List (List Char)
  | start, [] => titleHere version start []
  | start, x :: xs => titleHere version start (x :: xs) ++ titleRests version (x == '\n') xs

theorem find?_titleHere {version text : List Char} {p : List Char → Bool} {start : Bool} :
    (titleHere version start text).find? p = if start then (afterPrefix (title version) text).filter p else none := by
  unfold titleHere
  split_ifs with hstart
  · cases afterPrefix (title version) text with
    | none => rfl
    | some rest => rw [Option.toList_some, List.find?_singleton, Option.filter_some]
  · rfl

/-- The first title that goes on as asked is the first of all titles that does. -/
theorem firstTitle_eq_find? {version text : List Char} {p : List Char → Bool} {start : Bool} :
    firstTitle version p start text = (titleRests version start text).find? p := by
  induction text generalizing start with
  | nil =>
    rw [titleRests, find?_titleHere]
    unfold firstTitle
    cases (if start = true then (afterPrefix (title version) []).filter p else none) with
    | none => rfl
    | some rest => rfl
  | cons x xs ih =>
    rw [titleRests, List.find?_append, find?_titleHere, ← ih]
    conv_lhs => unfold firstTitle
    cases (if start = true then (afterPrefix (title version) (x :: xs)).filter p else none) with
    | none => rfl
    | some rest => rfl

/-- A title that goes on as asked is the first of the ones that go on with less. -/
theorem firstTitle_mono {version text rest : List Char} {p q : List Char → Bool} {start : Bool}
    (hpq : ∀ rest, p rest = true → q rest = true) (h : firstTitle version q start text = some rest)
    (hp : p rest = true) : firstTitle version p start text = some rest := by
  rw [firstTitle_eq_find?, List.find?_eq_some_iff_append] at h ⊢
  obtain ⟨-, before, after, hrests, hbefore⟩ := h
  refine ⟨hp, before, after, hrests, fun other hother => ?_⟩
  have hq : q other = false := by simpa using hbefore other hother
  have hnot : ¬ p other = true := fun hother => absurd (hpq other hother) (by rw [hq]; decide)
  simpa using hnot

theorem firstTitle_none_mono {version text : List Char} {p q : List Char → Bool} {start : Bool}
    (hpq : ∀ rest, p rest = true → q rest = true) (h : firstTitle version q start text = none) :
    firstTitle version p start text = none := by
  rw [firstTitle_eq_find?, List.find?_eq_none] at h ⊢
  exact fun other hother hp => h other hother (hpq other hp)

theorem firstTitle_goesOn {version text rest : List Char} {p : List Char → Bool} {start : Bool}
    (h : firstTitle version p start text = some rest) : p rest = true := by
  rw [firstTitle_eq_find?] at h
  exact List.find?_some h

theorem endsMatch_of_endsHeading (rest : List Char) (h : endsHeading rest = true) : endsMatch rest = true := by
  rw [endsMatch, h, Bool.true_or]

/-! ## A dash under the heading -/

theorem rdropWhile_append {a b : List Char} (h : ¬ blank b = true) :
    (a ++ b).rdropWhile isspace = a ++ b.rdropWhile isspace := by
  have hne : (b.reverse.dropWhile isspace).isEmpty = false := by
    rw [Bool.eq_false_iff]
    intro hempty
    rw [List.isEmpty_iff, List.dropWhile_eq_nil_iff] at hempty
    exact h (blank_iff.2 fun c hc => hempty c (List.mem_reverse.mpr hc))
  rw [List.rdropWhile, List.rdropWhile, List.reverse_append, List.dropWhile_append, hne]
  simp

theorem length_strip_le {text : List Char} (h : ¬ blank text = true) :
    (strip text).length ≤ (text.rdropWhile isspace).length := by
  have hsplit := List.takeWhile_append_dropWhile (p := isspace) (l := text)
  have hrest : ¬ blank (text.dropWhile isspace) = true := by
    intro hblank
    rw [← hsplit, blank_append, takeWhile_blank, hblank] at h
    exact h rfl
  rw [strip]
  conv_rhs => rw [← hsplit, rdropWhile_append hrest, List.length_append]
  omega

theorem strip_dash (text : List Char) : strip ('-' :: text) = ('-' :: text).rdropWhile isspace := by
  rw [strip, List.dropWhile_cons_of_neg (by simp [isspace_dash])]

theorem rdropWhile_dash_of_blank {text : List Char} (h : blank text = true) :
    ('-' :: text).rdropWhile isspace = ['-'] := by
  have hdrop : (text.reverse ++ ['-']).dropWhile isspace = ['-'].dropWhile isspace :=
    dropWhile_white (blank_iff.2 fun c hc => blank_iff.1 h c (List.mem_reverse.mp hc))
  rw [List.rdropWhile, List.reverse_cons, hdrop]
  rfl

/-- The section of a heading without a date that starts with a dash. -/
theorem sectionOf_dash {w date : List Char} (hw : blank w = true) :
    sectionOf (w ++ '-' :: date) = some (('-' :: untilHeading false date).rdropWhile isspace) := by
  have huntil : untilHeading false (w ++ '-' :: date) = w ++ '-' :: untilHeading false date := by
    rw [untilHeading_white hw, untilHeading_cons (.inl (by decide))]
    rfl
  have hfull : ¬ blank (w ++ '-' :: untilHeading false date) = true := by
    intro hblank
    have hdash := blank_iff.1 hblank '-' (by simp)
    rw [isspace_dash] at hdash
    exact absurd hdash (by decide)
  rw [sectionOf, huntil, if_neg hfull, strip_white_append hw, strip_dash]

/-- The lines of a section do not fit in what follows its first line. -/
theorem sectionOf_ne_of_line {q w : List Char} {a : Char} :
    sectionOf (afterLine q) ≠
      some (('-' :: (a :: w ++ (line q ++ untilHeading false (afterLine q)))).rdropWhile isspace) := by
  intro h
  unfold sectionOf at h
  split_ifs at h with hblank
  have hlen := congrArg List.length (Option.some.inj h)
  have hshort := length_strip_le hblank
  rw [show '-' :: (a :: w ++ (line q ++ untilHeading false (afterLine q))) =
    ('-' :: a :: w ++ line q) ++ untilHeading false (afterLine q) by simp, rdropWhile_append hblank,
    List.length_append, List.cons_append, List.length_cons] at hlen
  omega

/-- Under a heading without a date, the program returns the section exactly when it is a lone dash twice. -/
theorem loneDash_iff {rest : List Char} (hcross : crossesLine rest = true) (hblank : blank (line rest) = true) :
    sectionOf (afterLine (dateLine rest)) = sectionOf (afterLine rest) ↔ LoneDash rest := by
  have hfinds : findsDate rest = true := (Bool.and_eq_true_iff.mp hcross).1
  unfold findsDate at hfinds
  cases hdash : afterDash rest with
  | none =>
    rw [hdash] at hfinds
    exact absurd hfinds (by decide)
  | some date =>
    obtain ⟨a, rfl, ⟨-, ha⟩, y, hy, hwhite⟩ := afterDash_eq_some_iff.1 hdash
    have hnewline : '\n' ∈ a := by
      by_contra hno
      have hline : line (a ++ '-' :: date) = a ++ '-' :: line date := line_append hno
      rw [hline] at hblank
      have hdash := blank_iff.1 hblank '-' (by simp)
      rw [isspace_dash] at hdash
      exact absurd hdash (by decide)
    have hafter : afterLine (a ++ '-' :: date) = afterLine a ++ '-' :: date := by
      have hsplit := line_append_afterLine a
      have hne : afterLine a ≠ [] := by
        intro hnil
        rw [hnil, List.append_nil] at hsplit
        rw [← hsplit] at hnewline
        exact newline_notMem_line hnewline
      obtain ⟨c, b, hb⟩ := List.exists_cons_of_ne_nil hne
      have hc : c = '\n' := atLineEnd_afterLine a c (by rw [hb]; rfl)
      have hend : AtLineEnd (afterLine a ++ '-' :: date) := by
        intro d hd
        rw [hb, List.cons_append] at hd
        rw [← Option.some.inj hd]
        exact hc
      conv_lhs => rw [← hsplit, List.append_assoc, afterLine_append newline_notMem_line]
      exact afterLine_of_atLineEnd hend
    have hdateLine := @dateLine_append a date ha
    have hsplit := List.takeWhile_append_dropWhile (p := isspace) (l := date)
    have hw := takeWhile_blank date
    have hpiece : (((a ++ '-' :: date).dropWhile isspace).tail.takeWhile isspace) = date.takeWhile isspace := by
      rw [dropWhile_white ha, List.dropWhile_cons_of_neg (by simp [isspace_dash])]
      rfl
    obtain ⟨b, w, hbw⟩ : ∃ b w, date.takeWhile isspace = b :: w := by
      cases date with
      | nil => exact absurd hy (by simp)
      | cons y' date =>
        have hy : y' = y := Option.some.inj hy
        exact ⟨y', _, List.takeWhile_cons_of_pos (by rw [hy]; exact hwhite)⟩
    have hsection := @sectionOf_dash _ date (blank_afterLine ha)
    rw [hafter, hsection, hdateLine]
    have huntil := @untilHeading_white _ (date.dropWhile isspace) false hw
    rw [hsplit] at huntil
    generalize date.dropWhile isspace = q at hdateLine huntil
    by_cases hlone : (date.takeWhile isspace).getLast? = some '\n' ∧ startsHeading q = true
    · -- The next heading ends the section right after the dash.
      obtain ⟨hlast, hnext⟩ := hlone
      have hnil : untilHeading true q = [] := by
        obtain ⟨c, tail, rfl, hc⟩ := startsHeading_eq_true_iff.1 hnext
        rw [untilHeading, hnext]
        rfl
      rw [hlast] at huntil
      simp only [Option.elim_some, beq_self_eq_true, hnil, List.append_nil] at huntil
      rw [huntil, rdropWhile_dash_of_blank hw]
      constructor
      · intro h
        exact ⟨by rw [hpiece]; exact hlast, by rw [hdateLine]; exact hnext, by rw [hdateLine]; exact h⟩
      · intro h
        have hagain := h.again
        rwa [hdateLine] at hagain
    · have hnot : ¬ LoneDash (a ++ '-' :: date) := by
        intro h
        refine hlone ⟨?_, ?_⟩
        · have hlast := h.lone
          rwa [hpiece] at hlast
        · have hnext := h.next
          rwa [hdateLine] at hnext
      refine iff_of_false ?_ hnot
      have hline : ∀ start, (start = true → startsHeading q = false) →
          untilHeading start q = line q ++ untilHeading false (afterLine q) := by
        intro start hstart
        rw [← untilHeading_line]
        cases q with
        | nil => rfl
        | cons c q =>
          cases start with
          | false => rfl
          | true =>
            rw [untilHeading, hstart rfl, untilHeading_cons (.inr rfl)]
            rfl
      rw [hline _ ?_] at huntil
      · rw [huntil, hbw]
        exact sectionOf_ne_of_line
      · intro hstart
        rw [Bool.eq_false_iff]
        intro hnext
        refine hlone ⟨?_, hnext⟩
        rw [hbw] at hstart ⊢
        rw [List.getLast?_eq_some_getLast (List.cons_ne_nil b w)] at hstart ⊢
        rw [beq_iff_eq.mp hstart]

/-! ## The section of a version -/

/-- The program returns the section of the version exactly when no later line is taken for the date of the
heading, but for a repetition of the same text. -/
theorem changelog_section_iff (changelog version : List Char) :
    (extractChangelogSection changelog version).toOption = versionSection changelog version ↔
      KeepsLines changelog version := by
  rw [toOption_extract, versionSection]
  cases hfound : firstTitle version endsMatch true changelog with
  | none =>
    rw [firstTitle_none_mono endsMatch_of_endsHeading hfound]
    refine iff_of_true rfl ?_
    intro rest hrest
    rw [hfound] at hrest
    exact absurd hrest (by simp)
  | some rest =>
    have hmatch : endsMatch rest = true := firstTitle_goesOn hfound
    rw [Option.bind_some]
    cases hcross : crossesLine rest with
    | false =>
      -- The date is in the line of the title, or there is none.
      have hheading : endsHeading rest = true := by
        rw [endsHeading, Bool.or_eq_true]
        rcases endsMatch_iff.1 hmatch with hblank | hfinds
        · exact .inl hblank
        · rw [crossesLine, hfinds, Bool.true_and, Bool.not_eq_false'] at hcross
          exact .inr hcross
      have hends : matchEnd rest = afterLine rest := by
        rw [matchEnd, hcross]
        rfl
      rw [firstTitle_mono endsMatch_of_endsHeading hfound hheading, Option.bind_some, hends]
      refine iff_of_true rfl ?_
      intro rest' hrest hcross'
      rw [hfound] at hrest
      rw [← Option.some.inj hrest, hcross] at hcross'
      exact absurd hcross' (by decide)
    | true =>
      have hends : matchEnd rest = afterLine (dateLine rest) := by rw [matchEnd, if_pos hcross]
      have hkeeps : KeepsLines changelog version ↔
          if blank (line rest) then LoneDash rest else Repeats changelog version rest := by
        constructor
        · intro h
          exact h rest hfound hcross
        · intro h rest' hrest _
          rw [hfound] at hrest
          rw [← Option.some.inj hrest]
          exact h
      rw [hkeeps, hends]
      by_cases hblank : blank (line rest) = true
      · have hheading : endsHeading rest = true := by rw [endsHeading, hblank, Bool.true_or]
        rw [if_pos hblank, firstTitle_mono endsMatch_of_endsHeading hfound hheading, Option.bind_some]
        exact loneDash_iff hcross hblank
      · rw [if_neg hblank, Repeats]
        cases firstTitle version endsHeading true changelog with
        | none => rfl
        | some marked => rfl

/-- The first bullet under a heading without a date is lost. -/
theorem undatedHeading_not_kept :
    (extractChangelogSection "## [1.0.0]\n\n- Added x\n- Added y\n".toList "1.0.0".toList).toOption ≠
      versionSection "## [1.0.0]\n\n- Added x\n- Added y\n".toList "1.0.0".toList := by
  decide

end Rtvbp.Release
