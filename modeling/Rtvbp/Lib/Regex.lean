import Mathlib.Data.List.Basic
import Mathlib.Order.Basic

/-!
# Regular expressions with backtracking

A matcher that goes through the ways to match in the order of a backtracking engine: greedy repetitions
try the longest way first, and an option tries its expression before it gives up. An expression has a
language of its own, which says what it matches and what its groups hold, and the matcher finds exactly the
words of the language.
-/

namespace Rtvbp.Lib

/-- What the groups hold, the last match first. -/
abbrev Groups := List (ℕ × List Char)

/-- A regular expression. -/
inductive Regex where
  /-- A condition on the character before the position and on the text after it. -/
  | check (holds : Option Char → List Char → Bool)
  /-- One character of a class. -/
  | one (p : Char → Bool)
  /-- Characters of a class, as many as possible. -/
  | many (p : Char → Bool)
  | seq (r s : Regex)
  | alt (r s : Regex)
  | star (r : Regex)
  | group (n : ℕ) (r : Regex)

/-- A position in a text. -/
@[ext] structure Cursor where
  prev : Option Char
  rest : List Char
  groups : Groups

/-- The character before the position after a word. -/
def lastOf (prev : Option Char) (w : List Char) : Option Char := w.foldl (fun _ x => some x) prev

@[simp] theorem lastOf_nil (prev : Option Char) : lastOf prev [] = prev := rfl

@[simp] theorem lastOf_cons (prev : Option Char) (x : Char) (w : List Char) :
    lastOf prev (x :: w) = lastOf (some x) w := rfl

@[simp] theorem lastOf_append (prev : Option Char) (u v : List Char) :
    lastOf prev (u ++ v) = lastOf (lastOf prev u) v := List.foldl_append

namespace Regex

/-- The positions after characters of a class. -/
def runMany (p : Char → Bool) (groups : Groups) : Option Char → List Char → List Cursor
  | prev, [] => [⟨prev, [], groups⟩]
  | prev, x :: xs =>
    (if p x then runMany p groups (some x) xs else []) ++ [⟨prev, x :: xs, groups⟩]

/-- The positions after repetitions that all move on. -/
def runStar (f : Cursor → List Cursor) : ℕ → Cursor → List Cursor
  | 0, c => [c]
  | n + 1, c => ((f c).filter fun d => d.rest.length < c.rest.length).flatMap (runStar f n) ++ [c]

/-- The positions after a match, in the order they are tried. -/
def run : Regex → Cursor → List Cursor
  | check holds, c => if holds c.prev c.rest then [c] else []
  | one p, c =>
    match c.rest with
    | [] => []
    | x :: xs => if p x then [⟨some x, xs, c.groups⟩] else []
  | many p, c => runMany p c.groups c.prev c.rest
  | seq r s, c => (r.run c).flatMap s.run
  | alt r s, c => r.run c ++ s.run c
  | star r, c => runStar r.run c.rest.length c
  | group n r, c =>
    (r.run c).map fun d =>
      { d with groups := (n, c.rest.take (c.rest.length - d.rest.length)) :: d.groups }

/-- The groups of the first match of the whole text. -/
def fullmatch (r : Regex) (text : List Char) : Option Groups :=
  ((r.run ⟨none, text, []⟩).find? fun d => d.rest.isEmpty).map Cursor.groups

/-- The first match at a position. -/
def first (r : Regex) (c : Cursor) : Option Cursor := (r.run c).head?

/-- The first place with a match, from the place `start` on, and the position after the match. -/
def searchFrom (r : Regex) (start : ℕ) (prev : Option Char) (text : List Char) : Option (ℕ × Cursor) :=
  match r.first ⟨prev, text, []⟩, text with
  | some stop, _ => some (start, stop)
  | none, [] => none
  | none, x :: xs => searchFrom r (start + 1) (some x) xs

/-- The first match in a text. -/
def search (r : Regex) (text : List Char) : Option (ℕ × Cursor) := r.searchFrom 0 none text

/-! ## Languages -/

/-- A relation between a word, the text around it and the groups. -/
abbrev Language := Option Char → List Char → List Char → Groups → Prop

/-- Words of a language one after the other. -/
inductive Star (l : Language) : Language
  | nil (prev rest) : Star l prev [] rest []
  | cons {prev u v rest g h} : u ≠ [] → l prev u (v ++ rest) g → Star l (lastOf prev u) v rest h →
      Star l prev (u ++ v) rest (h ++ g)

/-- The words of an expression, after a character and before a text, with their groups. -/
def Matches : Regex → Language
  | check holds, prev, w, rest, g => holds prev rest = true ∧ w = [] ∧ g = []
  | one p, _, w, _, g => ∃ x, p x = true ∧ w = [x] ∧ g = []
  | many p, _, w, _, g => (∀ x ∈ w, p x = true) ∧ g = []
  | seq r s, prev, w, rest, g =>
    ∃ u v gu gv, w = u ++ v ∧ g = gv ++ gu ∧ r.Matches prev u (v ++ rest) gu ∧
      s.Matches (lastOf prev u) v rest gv
  | alt r s, prev, w, rest, g => r.Matches prev w rest g ∨ s.Matches prev w rest g
  | star r, prev, w, rest, g => Star r.Matches prev w rest g
  | group n r, prev, w, rest, g => ∃ h, g = (n, w) :: h ∧ r.Matches prev w rest h

/-- The position is reached by a word of the language. -/
def Reaches (l : Language) (c d : Cursor) : Prop :=
  ∃ w g, l c.prev w d.rest g ∧ c.rest = w ++ d.rest ∧ d.prev = lastOf c.prev w ∧ d.groups = g ++ c.groups

theorem mem_runMany {p : Char → Bool} {groups : Groups} {prev : Option Char} {rest : List Char} {d : Cursor} :
    d ∈ runMany p groups prev rest ↔
      ∃ w, (∀ x ∈ w, p x = true) ∧ rest = w ++ d.rest ∧ d.prev = lastOf prev w ∧ d.groups = groups := by
  induction rest generalizing prev with
  | nil =>
    rw [runMany, List.mem_singleton]
    constructor
    · rintro rfl
      exact ⟨[], by simp, rfl, rfl, rfl⟩
    · rintro ⟨w, _, hrest, hprev, hgroups⟩
      obtain ⟨rfl, hd⟩ := List.append_eq_nil_iff.mp hrest.symm
      exact Cursor.ext hprev hd hgroups
  | cons x xs ih =>
    have hstay : d = ⟨prev, x :: xs, groups⟩ ↔ x :: xs = d.rest ∧ d.prev = prev ∧ d.groups = groups := by
      constructor
      · rintro rfl
        exact ⟨rfl, rfl, rfl⟩
      · rintro ⟨hrest, hprev, hgroups⟩
        exact Cursor.ext hprev hrest.symm hgroups
    rw [runMany, List.mem_append, List.mem_singleton, hstay]
    constructor
    · rintro (hd | ⟨hrest, hprev, hgroups⟩)
      · split_ifs at hd with hx
        · obtain ⟨w, hw, hrest, hprev, hgroups⟩ := ih.mp hd
          refine ⟨x :: w, List.forall_mem_cons.mpr ⟨hx, hw⟩, ?_, hprev, hgroups⟩
          rw [hrest, List.cons_append]
        · exact absurd hd List.not_mem_nil
      · exact ⟨[], by simp, hrest, hprev, hgroups⟩
    · rintro ⟨w, hw, hrest, hprev, hgroups⟩
      cases w with
      | nil => exact .inr ⟨hrest, hprev, hgroups⟩
      | cons y w =>
        obtain ⟨rfl, htail⟩ := List.cons.inj hrest
        obtain ⟨hx, hw⟩ := List.forall_mem_cons.mp hw
        rw [if_pos hx]
        exact .inl (ih.mpr ⟨w, hw, htail, hprev, hgroups⟩)

/-- Enough fuel finds the repetitions of a language. -/
theorem mem_runStar {f : Cursor → List Cursor} {l : Language} (hf : ∀ c d, d ∈ f c ↔ Reaches l c d)
    {n : ℕ} {c d : Cursor} (hn : c.rest.length ≤ n) : d ∈ runStar f n c ↔ Reaches (Star l) c d := by
  have hstay : ∀ c : Cursor, Reaches (Star l) c c := fun c => ⟨[], [], .nil _ _, rfl, rfl, rfl⟩
  induction n generalizing c with
  | zero =>
    have hrest : c.rest = [] := List.length_eq_zero_iff.mp (by omega)
    rw [runStar, List.mem_singleton]
    constructor
    · rintro rfl
      exact hstay d
    · rintro ⟨w, g, hstar, hc, hprev, hgroups⟩
      rw [hrest] at hc
      obtain ⟨rfl, hd⟩ := List.append_eq_nil_iff.mp hc.symm
      have hg : g = [] := by
        generalize hw : ([] : List Char) = w at hstar
        cases hstar with
        | nil => rfl
        | cons hne _ _ => exact absurd (List.append_eq_nil_iff.mp hw.symm).1 hne
      subst hg
      exact Cursor.ext hprev (hd.trans hrest.symm) hgroups
  | succ n ih =>
    rw [runStar, List.mem_append, List.mem_singleton, List.mem_flatMap]
    constructor
    · rintro (⟨e, he, hd⟩ | rfl)
      · obtain ⟨he, hlt⟩ := List.mem_filter.mp he
        have hlt : e.rest.length < c.rest.length := of_decide_eq_true hlt
        obtain ⟨u, g, hu, hc, hprev, hgroups⟩ := (hf c e).mp he
        obtain ⟨v, h, hv, hrest, hprev', hgroups'⟩ := (ih (by omega)).mp hd
        have hne : u ≠ [] := by
          rintro rfl
          rw [hc] at hlt
          exact absurd hlt (Nat.lt_irrefl _)
        rw [hrest] at hu
        rw [hprev] at hv
        refine ⟨u ++ v, h ++ g, .cons hne hu hv, ?_, ?_, ?_⟩
        · rw [hc, hrest, List.append_assoc]
        · rw [hprev', hprev, lastOf_append]
        · rw [hgroups', hgroups, List.append_assoc]
      · exact hstay d
    · rintro ⟨w, g, hstar, hc, hprev, hgroups⟩
      cases hstar with
      | nil =>
        exact .inr (Cursor.ext hprev hc.symm hgroups)
      | @cons _ u v _ gu gv hne hu hv =>
        let e : Cursor := ⟨lastOf c.prev u, v ++ d.rest, gu ++ c.groups⟩
        have hrest : c.rest = u ++ e.rest := by rw [hc, List.append_assoc]
        have hlt : e.rest.length < c.rest.length := by
          have hpos := List.length_pos_of_ne_nil hne
          have hlen := congrArg List.length hrest
          rw [List.length_append] at hlen
          omega
        have he : e ∈ f c := (hf c e).mpr ⟨u, gu, hu, hrest, rfl, rfl⟩
        refine .inl ⟨e, List.mem_filter.mpr ⟨he, decide_eq_true hlt⟩, (ih (by omega)).mpr ?_⟩
        refine ⟨v, gv, hv, rfl, ?_, ?_⟩
        · rw [hprev, lastOf_append]
        · rw [hgroups, List.append_assoc]

/-- The matcher reaches what the words of the language reach. -/
theorem mem_run {r : Regex} {c d : Cursor} : d ∈ r.run c ↔ Reaches r.Matches c d := by
  induction r generalizing c d with
  | check holds =>
    rw [run]
    constructor
    · intro hd
      split_ifs at hd with hholds
      · rw [List.mem_singleton] at hd
        subst hd
        exact ⟨[], [], ⟨hholds, rfl, rfl⟩, rfl, rfl, rfl⟩
      · exact absurd hd List.not_mem_nil
    · rintro ⟨w, g, ⟨hholds, rfl, rfl⟩, hc, hprev, hgroups⟩
      rw [← (show c.rest = d.rest from hc)] at hholds
      rw [if_pos hholds, List.mem_singleton]
      exact Cursor.ext hprev hc.symm hgroups
  | one p =>
    rw [run]
    constructor
    · intro hd
      split at hd
      · exact absurd hd List.not_mem_nil
      next x xs hc =>
        split_ifs at hd with hx
        · rw [List.mem_singleton] at hd
          subst hd
          exact ⟨[x], [], ⟨x, hx, rfl, rfl⟩, hc, rfl, rfl⟩
        · exact absurd hd List.not_mem_nil
    · rintro ⟨w, g, ⟨x, hx, rfl, rfl⟩, hc, hprev, hgroups⟩
      rw [hc]
      simp only [List.cons_append, List.nil_append, if_pos hx, List.mem_singleton]
      exact Cursor.ext hprev rfl hgroups
  | many p =>
    rw [run, mem_runMany]
    constructor
    · rintro ⟨w, hw, hrest, hprev, hgroups⟩
      exact ⟨w, [], ⟨hw, rfl⟩, hrest, hprev, hgroups⟩
    · rintro ⟨w, g, ⟨hw, rfl⟩, hrest, hprev, hgroups⟩
      exact ⟨w, hw, hrest, hprev, hgroups⟩
  | seq r s ihr ihs =>
    rw [run, List.mem_flatMap]
    constructor
    · rintro ⟨e, he, hd⟩
      obtain ⟨u, g, hu, hc, hprev, hgroups⟩ := ihr.mp he
      obtain ⟨v, h, hv, hrest, hprev', hgroups'⟩ := ihs.mp hd
      rw [hrest] at hu
      rw [hprev] at hv
      refine ⟨u ++ v, h ++ g, ⟨u, v, g, h, rfl, rfl, hu, hv⟩, ?_, ?_, ?_⟩
      · rw [hc, hrest, List.append_assoc]
      · rw [hprev', hprev, lastOf_append]
      · rw [hgroups', hgroups, List.append_assoc]
    · rintro ⟨w, g, ⟨u, v, gu, gv, rfl, rfl, hu, hv⟩, hc, hprev, hgroups⟩
      refine ⟨⟨lastOf c.prev u, v ++ d.rest, gu ++ c.groups⟩, ihr.mpr ⟨u, gu, hu, ?_, rfl, rfl⟩,
        ihs.mpr ⟨v, gv, hv, rfl, ?_, ?_⟩⟩
      · rw [hc, List.append_assoc]
      · rw [hprev, lastOf_append]
      · rw [hgroups, List.append_assoc]
  | alt r s ihr ihs =>
    rw [run, List.mem_append, ihr, ihs]
    constructor
    · rintro (⟨w, g, hw, h⟩ | ⟨w, g, hw, h⟩)
      · exact ⟨w, g, .inl hw, h⟩
      · exact ⟨w, g, .inr hw, h⟩
    · rintro ⟨w, g, hw | hw, h⟩
      · exact .inl ⟨w, g, hw, h⟩
      · exact .inr ⟨w, g, hw, h⟩
  | star r ih => exact mem_runStar (fun _ _ => ih) (Nat.le_refl _)
  | group n r ih =>
    have htaken : ∀ w t : List Char, (w ++ t).take ((w ++ t).length - t.length) = w := by
      intro w t
      rw [List.length_append, Nat.add_sub_cancel, List.take_left]
    rw [run, List.mem_map]
    constructor
    · rintro ⟨e, he, rfl⟩
      obtain ⟨w, g, hw, hc, hprev, hgroups⟩ := ih.mp he
      refine ⟨w, (n, w) :: g, ⟨g, rfl, hw⟩, hc, hprev, ?_⟩
      simp only [hc, htaken, hgroups, List.cons_append]
    · rintro ⟨w, g, ⟨h, rfl, hw⟩, hc, hprev, hgroups⟩
      refine ⟨⟨d.prev, d.rest, h ++ c.groups⟩, ih.mpr ⟨w, h, hw, hc, hprev, rfl⟩, ?_⟩
      refine Cursor.ext rfl rfl ?_
      simp only [hc, htaken, hgroups, List.cons_append]

/-- A match of the whole text holds the groups of a word of the language. -/
theorem matches_of_fullmatch {r : Regex} {text : List Char} {g : Groups} (h : r.fullmatch text = some g) :
    r.Matches none text [] g := by
  obtain ⟨d, hfind, rfl⟩ := Option.map_eq_some_iff.mp h
  obtain ⟨w, g, hw, hrest, _, hgroups⟩ := mem_run.1 (List.mem_of_find?_eq_some hfind)
  have hisEmpty := List.find?_some hfind
  have hend : d.rest = [] := List.isEmpty_iff.mp hisEmpty
  rw [hend] at hw hrest
  have hword : text = w := hrest.trans (List.append_nil w)
  have hheld : d.groups = g := hgroups.trans (List.append_nil g)
  rw [hheld, hword]
  exact hw

/-- Every word of the language is matched. -/
theorem fullmatch_isSome {r : Regex} {text : List Char} {g : Groups} (h : r.Matches none text [] g) :
    ∃ g', r.fullmatch text = some g' := by
  have hd : (⟨lastOf none text, [], g⟩ : Cursor) ∈ r.run ⟨none, text, []⟩ :=
    mem_run.2 ⟨text, g, h, (List.append_nil _).symm, rfl, (List.append_nil _).symm⟩
  cases hfind : (r.run ⟨none, text, []⟩).find? fun d => d.rest.isEmpty with
  | none => exact absurd rfl (List.find?_eq_none.mp hfind _ hd)
  | some d => exact ⟨d.groups, by rw [fullmatch, hfind, Option.map_some]⟩

/-! ## Derived expressions -/

/-- No character. -/
def empty : Regex := check fun _ _ => true

/-- At least one character of a class. -/
def plus (p : Char → Bool) : Regex := seq (one p) (many p)

/-- The start of the text. -/
def textStart : Regex := check fun prev _ => prev.isNone

/-- The end of the text, or a line end there. -/
def textEnd : Regex := check fun _ rest => rest.isEmpty || rest == ['\n']

/-- The start of the text or of a line. -/
def lineStart : Regex := check fun prev _ => prev.all (· == '\n')

/-- The end of the text or of a line. -/
def lineEnd : Regex := check fun _ rest => rest.head?.all (· == '\n')

/-- The expression, or nothing. -/
def opt (r : Regex) : Regex := alt r empty

/-- The characters of a text. -/
def literal : List Char → Regex
  | [] => empty
  | x :: xs => seq (one (· == x)) (literal xs)

@[simp] theorem matches_empty {prev : Option Char} {w rest : List Char} {g : Groups} :
    empty.Matches prev w rest g ↔ w = [] ∧ g = [] := by
  simp [empty, Matches]

@[simp] theorem matches_plus {p : Char → Bool} {prev : Option Char} {w rest : List Char} {g : Groups} :
    (plus p).Matches prev w rest g ↔ w ≠ [] ∧ (∀ x ∈ w, p x = true) ∧ g = [] := by
  constructor
  · rintro ⟨u, v, gu, gv, rfl, rfl, ⟨x, hx, rfl, rfl⟩, hv, rfl⟩
    exact ⟨List.cons_ne_nil _ _, List.forall_mem_cons.mpr ⟨hx, hv⟩, rfl⟩
  · rintro ⟨hne, hw, rfl⟩
    obtain ⟨x, v, rfl⟩ := List.exists_cons_of_ne_nil hne
    obtain ⟨hx, hv⟩ := List.forall_mem_cons.mp hw
    exact ⟨[x], v, [], [], rfl, rfl, ⟨x, hx, rfl, rfl⟩, hv, rfl⟩

@[simp] theorem matches_opt {r : Regex} {prev : Option Char} {w rest : List Char} {g : Groups} :
    (opt r).Matches prev w rest g ↔ r.Matches prev w rest g ∨ w = [] ∧ g = [] := by
  rw [opt, Matches, matches_empty]

theorem matches_literal {text : List Char} {prev : Option Char} {w rest : List Char} {g : Groups} :
    (literal text).Matches prev w rest g ↔ w = text ∧ g = [] := by
  induction text generalizing prev w g with
  | nil => exact matches_empty
  | cons x xs ih =>
    constructor
    · rintro ⟨u, v, gu, gv, rfl, rfl, ⟨y, hy, rfl, rfl⟩, hv⟩
      obtain ⟨rfl, rfl⟩ := ih.mp hv
      exact ⟨by rw [beq_iff_eq.mp hy]; rfl, rfl⟩
    · rintro ⟨rfl, rfl⟩
      exact ⟨[x], xs, [], [], rfl, rfl, ⟨x, beq_self_eq_true x, rfl, rfl⟩, ih.mpr ⟨rfl, rfl⟩⟩

/-! ## The first match -/

theorem searchFrom_of_first {r : Regex} {n : ℕ} {prev : Option Char} {text : List Char} {stop : Cursor}
    (h : r.first ⟨prev, text, []⟩ = some stop) : r.searchFrom n prev text = some (n, stop) := by
  unfold searchFrom
  rw [h]

theorem searchFrom_nil {r : Regex} {n : ℕ} {prev : Option Char} (h : r.first ⟨prev, [], []⟩ = none) :
    r.searchFrom n prev [] = none := by
  unfold searchFrom
  rw [h]

theorem searchFrom_cons {r : Regex} {n : ℕ} {prev : Option Char} {x : Char} {xs : List Char}
    (h : r.first ⟨prev, x :: xs, []⟩ = none) :
    r.searchFrom n prev (x :: xs) = r.searchFrom (n + 1) (some x) xs := by
  conv_lhs => unfold searchFrom
  rw [h]

theorem first_eq_none {r : Regex} {c : Cursor} : r.first c = none ↔ ∀ d, ¬ Reaches r.Matches c d := by
  rw [first, List.head?_eq_none_iff, List.eq_nil_iff_forall_not_mem]
  exact forall_congr' fun d => not_congr mem_run

theorem reaches_of_first {r : Regex} {c d : Cursor} (h : r.first c = some d) : Reaches r.Matches c d :=
  mem_run.1 (List.mem_of_head? h)

theorem first_of_reaches {r : Regex} {c d : Cursor} (h : Reaches r.Matches c d) : ∃ e, r.first c = some e := by
  cases hfirst : r.first c with
  | none => exact absurd h (first_eq_none.1 hfirst d)
  | some e => exact ⟨e, rfl⟩

/-- The second expression matches from where the first one would go. -/
theorem first_seq {r s : Regex} {c d e : Cursor} (hr : r.first c = some d) (hs : s.first d = some e) :
    (seq r s).first c = some e := by
  obtain ⟨others, hrun⟩ := List.head?_eq_some_iff.mp hr
  obtain ⟨others', hrun'⟩ := List.head?_eq_some_iff.mp hs
  rw [first, run, hrun, List.flatMap_cons, hrun']
  rfl

/-- The only way of the first expression leaves the match to the second. -/
theorem first_seq_of_run {r s : Regex} {c d : Cursor} (hr : r.run c = [d]) : (seq r s).first c = s.first d := by
  rw [first, run, hr, List.flatMap_singleton, first]

theorem first_seq_of_nil {r s : Regex} {c : Cursor} (hr : r.run c = []) : (seq r s).first c = none := by
  rw [first, run, hr]
  rfl
/-- A choice before an expression is a choice between two of them. -/
theorem first_seq_alt (r s t : Regex) (c : Cursor) :
    (seq (alt r s) t).first c = ((seq r t).first c).or ((seq s t).first c) := by
  simp only [first, run, List.flatMap_append, List.head?_append]

theorem first_seq_assoc (r s t : Regex) (c : Cursor) : (seq (seq r s) t).first c = (seq r (seq s t)).first c := by
  simp only [first, run, List.flatMap_assoc]

theorem run_empty (c : Cursor) : empty.run c = [c] := by
  simp [empty, run]

theorem run_literal {text t : List Char} {prev : Option Char} {g : Groups} :
    (literal text).run ⟨prev, text ++ t, g⟩ = [⟨lastOf prev text, t, g⟩] := by
  induction text generalizing prev with
  | nil => exact run_empty _
  | cons x xs ih =>
    rw [literal, run, run]
    simp only [List.cons_append, beq_self_eq_true, if_true, List.flatMap_singleton]
    exact ih

theorem run_literal_eq_nil {text : List Char} {c : Cursor} (h : ¬ text <+: c.rest) : (literal text).run c = [] := by
  rw [List.eq_nil_iff_forall_not_mem]
  intro d hd
  obtain ⟨w, g, hw, hrest, -, -⟩ := mem_run.1 hd
  obtain ⟨rfl, -⟩ := matches_literal.1 hw
  exact h ⟨d.rest, hrest.symm⟩

/-- As many characters of the class as there are. -/
theorem first_many {p : Char → Bool} {prev : Option Char} {w t : List Char} {g : Groups}
    (hw : ∀ x ∈ w, p x = true) (ht : ∀ x ∈ t.head?, p x = false) :
    (many p).first ⟨prev, w ++ t, g⟩ = some ⟨lastOf prev w, t, g⟩ := by
  induction w generalizing prev with
  | nil =>
    cases t with
    | nil => rfl
    | cons x t =>
      have hx : p x = false := ht x rfl
      simp [first, run, runMany, hx]
  | cons x w ih =>
    obtain ⟨hx, hw⟩ := List.forall_mem_cons.mp hw
    have hrest := @ih (some x) hw
    simp only [first, run] at hrest
    simp only [first, run, List.cons_append, runMany, hx, if_true, List.head?_append, hrest, lastOf_cons,
      Option.some_or]

theorem first_plus {p : Char → Bool} {prev : Option Char} {w t : List Char} {g : Groups} (hne : w ≠ [])
    (hw : ∀ x ∈ w, p x = true) (ht : ∀ x ∈ t.head?, p x = false) :
    (plus p).first ⟨prev, w ++ t, g⟩ = some ⟨lastOf prev w, t, g⟩ := by
  obtain ⟨x, w, rfl⟩ := List.exists_cons_of_ne_nil hne
  obtain ⟨hx, hw⟩ := List.forall_mem_cons.mp hw
  have hone : (one p).run ⟨prev, x :: (w ++ t), g⟩ = [⟨some x, w ++ t, g⟩] := by simp [run, hx]
  exact (first_seq_of_run hone).trans (first_many hw ht)

end Regex

end Rtvbp.Lib
