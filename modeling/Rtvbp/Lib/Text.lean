import Mathlib.Data.List.Basic
import Mathlib.Data.List.DropRight
import Mathlib.Tactic.IntervalCases
import Mathlib.Data.Char
import Mathlib.Data.List.Lex
import Mathlib.Data.List.Sort

/-! # Texts of numbers and lists -/

/-!
## Decimal texts

A number without needless zeros is written by exactly one text.
-/

namespace Rtvbp.Lib

/-- A decimal text: digits, where the first is zero in the text of zero only. -/
structure IsDecimal (text : List Char) : Prop where
  nonempty : text ≠ []
  digits : ∀ c ∈ text, c.isDigit = true
  leading : text.head? = some '0' → text = ['0']

theorem digit_eq {c : Char} (h : c.isDigit = true) : ∃ k < 10, c = Nat.digitChar k := by
  simp only [Char.isDigit, Bool.and_eq_true, decide_eq_true_eq, ge_iff_le, UInt32.le_iff_toNat_le] at h
  have hlow : 48 ≤ c.toNat := h.1
  have hhigh : c.toNat ≤ 57 := h.2
  refine ⟨c.toNat - 48, by omega, ?_⟩
  have hchar : Char.ofNat c.toNat = c := Char.ofNat_toNat c
  rw [← hchar]
  generalize c.toNat = n at hlow hhigh ⊢
  interval_cases n <;> decide

/-- The digits after a number extend its text. -/
theorem toDigits_ofDigitChars_append {n : ℕ} {rest : List Char} (hn : 0 < n)
    (h : ∀ c ∈ rest, c.isDigit = true) :
    Nat.toDigits 10 (Nat.ofDigitChars 10 rest n) = Nat.toDigits 10 n ++ rest := by
  induction rest generalizing n with
  | nil => rw [Nat.ofDigitChars_nil, List.append_nil]
  | cons c rest ih =>
    obtain ⟨hc, hrest⟩ := List.forall_mem_cons.mp h
    obtain ⟨k, hk, rfl⟩ := digit_eq hc
    have hpos : 0 < 10 * n + k := by omega
    rw [Nat.ofDigitChars_cons_digitChar_of_lt_ten hk, ih hpos hrest,
      ← Nat.toDigits_append_toDigits (by decide) hn hk, Nat.toDigits_of_lt_base hk, List.append_assoc]
    rfl

/-- A decimal text is the text of its value. -/
theorem toDigits_ofDigitChars {text : List Char} (h : IsDecimal text) :
    Nat.toDigits 10 (Nat.ofDigitChars 10 text 0) = text := by
  obtain ⟨c, rest, rfl⟩ := List.exists_cons_of_ne_nil h.nonempty
  obtain ⟨hc, hrest⟩ := List.forall_mem_cons.mp h.digits
  obtain ⟨k, hk, rfl⟩ := digit_eq hc
  rcases Nat.eq_zero_or_pos k with rfl | hpos
  · rw [h.leading rfl]
    rfl
  · have hstart : 0 < 10 * 0 + k := by omega
    rw [Nat.ofDigitChars_cons_digitChar_of_lt_ten hk, toDigits_ofDigitChars_append hstart hrest,
      Nat.mul_zero, Nat.zero_add, Nat.toDigits_of_lt_base hk]
    rfl

theorem isDecimal_toDigits (n : ℕ) : IsDecimal (Nat.toDigits 10 n) where
  nonempty := Nat.toDigits_ne_nil
  digits := fun _ hc => Nat.isDigit_of_mem_toDigits (by decide) (by decide) hc
  leading := by
    induction n using Nat.strongRecOn with
    | _ n ih =>
      intro hzero
      by_cases hn : n < 10
      · rw [Nat.toDigits_of_lt_base hn] at hzero ⊢
        rw [List.head?_singleton, Option.some.injEq] at hzero
        rw [hzero]
      · have hle : 10 ≤ n := by omega
        have htext := Nat.toDigits_of_base_le (by decide) hle
        have hprefix : (Nat.toDigits 10 (n / 10)).head? = some '0' := by
          rw [htext, List.head?_append_of_ne_nil _ Nat.toDigits_ne_nil] at hzero
          exact hzero
        have hquot := congrArg (Nat.ofDigitChars 10 · 0) (ih (n / 10) (by omega) hprefix)
        simp only [Nat.ofDigitChars_ten_toDigits] at hquot
        have hval : n / 10 = 0 := hquot
        omega

end Rtvbp.Lib

/-!
## Comma-separated lists

A list of words in one line, with a comma and a blank between two of them, and the way back: split at the
commas, trim, and drop what is empty.
-/

namespace Rtvbp.Lib

/-- The line without the blanks at its ends. -/
def trim (line : List Char) : List Char :=
  (line.dropWhile Char.isWhitespace).rdropWhile Char.isWhitespace

/-- The words of a line. -/
def words (line : List Char) : List (List Char) :=
  ((line.splitOn ',').map trim).filter fun word => ! word.isEmpty

/-- The words in one line. -/
def joinWords (ws : List (List Char)) : List Char := [',', ' '].intercalate ws

/-- The word can stand in a line: it has no blank and no comma, and it is not empty. -/
structure IsWord (word : List Char) : Prop where
  nonempty : word ≠ []
  noComma : ',' ∉ word
  noBlank : ∀ c ∈ word, c.isWhitespace = false

theorem trim_of_noBlank {word : List Char} (h : ∀ c ∈ word, c.isWhitespace = false) : trim word = word := by
  have hleft : word.dropWhile Char.isWhitespace = word := by
    rw [List.dropWhile_eq_self_iff]
    intro hpos
    simp [h _ (List.getElem_mem hpos)]
  have hright : word.rdropWhile Char.isWhitespace = word := by
    rw [List.rdropWhile_eq_self_iff]
    intro hne
    simp [h _ (List.getLast_mem hne)]
  rw [trim, hleft, hright]

theorem trim_cons_blank (line : List Char) : trim (' ' :: line) = trim line := by
  have hblank : Char.isWhitespace ' ' = true := rfl
  simp only [trim, List.dropWhile_cons, hblank, if_true]

/-- A line with blanks after its commas is a line with the blanks before the words. -/
theorem joinWords_cons (word : List Char) (ws : List (List Char)) :
    joinWords (word :: ws) = [','].intercalate (word :: ws.map (' ' :: ·)) := by
  induction ws generalizing word with
  | nil => rfl
  | cons next ws ih =>
    have hnext : joinWords (next :: ws) = [','].intercalate (next :: ws.map (' ' :: ·)) := ih next
    cases ws with
    | nil => simp [joinWords, List.intercalate]
    | cons last ws =>
      simp only [joinWords, List.intercalate, List.map_cons, List.intersperse_cons_cons,
        List.flatten_cons] at hnext ⊢
      rw [hnext]
      simp

/-- The words of a joined line are the words that were joined. -/
theorem words_joinWords {ws : List (List Char)} (h : ∀ word ∈ ws, IsWord word) :
    words (joinWords ws) = ws := by
  cases ws with
  | nil => rfl
  | cons word ws =>
    have hcommas : ∀ l ∈ word :: ws.map (' ' :: ·), ',' ∉ l := by
      intro l hl
      rcases List.mem_cons.mp hl with rfl | hl
      · exact (h l List.mem_cons_self).noComma
      · obtain ⟨w, hw, rfl⟩ := List.mem_map.mp hl
        have hcomma := (h w (List.mem_cons_of_mem _ hw)).noComma
        simp [hcomma]
    have htrim : (word :: ws.map (' ' :: ·)).map trim = word :: ws := by
      have hself : ∀ w ∈ word :: ws, trim w = w := fun w hw => trim_of_noBlank (h w hw).noBlank
      rw [List.map_cons, hself word List.mem_cons_self, List.map_map]
      congr 1
      rw [List.map_congr_left (g := id), List.map_id]
      intro w hw
      exact (trim_cons_blank w).trans (hself w (List.mem_cons_of_mem _ hw))
    rw [words, joinWords_cons, List.splitOn_intercalate _ hcommas (List.cons_ne_nil _ _), htrim,
      List.filter_eq_self]
    intro w hw
    simpa using (h w hw).nonempty

end Rtvbp.Lib

/-!
## The order of UTF-16 code units

The texts in the order of their code units. It is the order of the code points, except for two texts that first
differ in a character beyond the basic plane on one side, and in one at its end on the other.
-/

namespace Rtvbp.Lib

/-- The code units of a character. -/
def units (c : Char) : List ℕ :=
  if c.toNat < 0x10000 then [c.toNat]
  else [0xd800 + (c.toNat - 0x10000) / 0x400, 0xdc00 + (c.toNat - 0x10000) % 0x400]

/-- The first character is beyond the basic plane, the second behind the surrogates. -/
def Crosses (c d : Char) : Prop := 0x10000 ≤ c.toNat ∧ 0xe000 ≤ d.toNat ∧ d.toNat < 0x10000

/-- The first difference of the texts is between such characters. -/
def Clash (s t : List Char) : Prop :=
  ∃ p c d u v, s = p ++ c :: u ∧ t = p ++ d :: v ∧ Crosses c d

theorem toNat_valid (c : Char) : c.toNat < 0xd800 ∨ 0xdfff < c.toNat ∧ c.toNat < 0x110000 := c.valid

/-- The code units of different characters differ where they can be compared. -/
theorem units_lt_iff {c d : Char} (hne : c ≠ d) (s t : List ℕ) :
    units c ++ s < units d ++ t ↔ c < d ∧ ¬ Crosses d c ∨ Crosses c d := by
  have hval : c.toNat ≠ d.toNat := fun h => hne (Char.toNat_inj.mp h)
  have hlt : c < d ↔ c.toNat < d.toNat := Iff.rfl
  have hc := toNat_valid c
  have hd := toNat_valid d
  rw [hlt]
  unfold units Crosses
  by_cases hbasic : c.toNat < 0x10000
  · rw [if_pos hbasic]
    by_cases hbasic' : d.toNat < 0x10000
    · rw [if_pos hbasic', List.cons_append, List.cons_append, List.cons_lt_cons_iff]
      constructor <;> intro h <;> omega
    · rw [if_neg hbasic', List.cons_append, List.cons_append, List.cons_lt_cons_iff]
      constructor <;> intro h <;> omega
  · rw [if_neg hbasic]
    by_cases hbasic' : d.toNat < 0x10000
    · rw [if_pos hbasic']
      simp only [List.cons_append, List.nil_append]
      rw [List.cons_lt_cons_iff]
      constructor <;> intro h <;> omega
    · rw [if_neg hbasic']
      simp only [List.cons_append, List.nil_append]
      rw [List.cons_lt_cons_iff, List.cons_lt_cons_iff]
      constructor <;> intro h <;> omega

/-- The order of the code units of two texts. -/
theorem flatMap_units_lt_iff {s t : List Char} :
    s.flatMap units < t.flatMap units ↔ s < t ∧ ¬ Clash t s ∨ Clash s t := by
  induction s generalizing t with
  | nil =>
    have hleft : ¬ Clash [] t := by
      rintro ⟨p, c, d, u, v, h, -⟩
      exact absurd h (by simp)
    have hright : ¬ Clash t [] := by
      rintro ⟨p, c, d, u, v, -, h, -⟩
      exact absurd h (by simp)
    cases t with
    | nil => simp [hleft]
    | cons d t =>
      have hne : units d ++ t.flatMap units ≠ [] := by
        unfold units
        split_ifs <;> simp
      obtain ⟨n, ns, hunits⟩ := List.exists_cons_of_ne_nil hne
      rw [List.flatMap_nil, List.flatMap_cons, hunits]
      simp [hleft, hright]
  | cons c s ih =>
    cases t with
    | nil =>
      have hright : ¬ Clash (c :: s) [] := by
        rintro ⟨p, c, d, u, v, -, h, -⟩
        exact absurd h (by simp)
      simp [hright]
    | cons d t =>
      rw [List.flatMap_cons, List.flatMap_cons, List.cons_lt_cons_iff]
      by_cases heq : c = d
      · subst heq
        have hclash : ∀ a b : List Char, Clash (c :: a) (c :: b) ↔ Clash a b := by
          intro a b
          constructor
          · rintro ⟨p, x, y, u, v, ha, hb, hxy⟩
            cases p with
            | nil =>
              obtain ⟨rfl, -⟩ := List.cons.inj ha
              obtain ⟨rfl, -⟩ := List.cons.inj hb
              unfold Crosses at hxy
              omega
            | cons z p => exact ⟨p, x, y, u, v, (List.cons.inj ha).2, (List.cons.inj hb).2, hxy⟩
          · rintro ⟨p, x, y, u, v, rfl, rfl, hxy⟩
            exact ⟨c :: p, x, y, u, v, rfl, rfl, hxy⟩
        have hcancel : units c ++ s.flatMap units < units c ++ t.flatMap units ↔
            s.flatMap units < t.flatMap units := by
          induction units c with
          | nil => rfl
          | cons n ns ihn =>
            rw [List.cons_append, List.cons_append, List.cons_lt_cons_iff]
            constructor
            · rintro (h | ⟨-, h⟩)
              · exact absurd h (lt_irrefl n)
              · exact ihn.mp h
            · intro h
              exact .inr ⟨rfl, ihn.mpr h⟩
        rw [hcancel, ih, hclash, hclash]
        constructor
        · rintro (⟨h, hno⟩ | h)
          · exact .inl ⟨.inr ⟨rfl, h⟩, hno⟩
          · exact .inr h
        · rintro (⟨h | ⟨-, h⟩, hno⟩ | h)
          · exact absurd h (lt_irrefl c)
          · exact .inl ⟨h, hno⟩
          · exact .inr h
      · have hclash : ∀ {a b : Char} {x y : List Char}, a ≠ b → (Clash (a :: x) (b :: y) ↔ Crosses a b) := by
          intro a b x y hab
          constructor
          · rintro ⟨p, x, y, u, v, ha, hb, hxy⟩
            cases p with
            | nil =>
              rw [(List.cons.inj ha).1, (List.cons.inj hb).1]
              exact hxy
            | cons z p => exact absurd ((List.cons.inj ha).1.trans (List.cons.inj hb).1.symm) hab
          · intro h
            exact ⟨[], a, b, x, y, rfl, rfl, h⟩
        rw [units_lt_iff heq, hclash heq, hclash (Ne.symm heq)]
        simp [heq]

theorem flatMap_units_injective {s t : List Char} (h : s.flatMap units = t.flatMap units) : s = t := by
  have hforward : ∀ {a b : List Char}, a < b →
      a.flatMap units < b.flatMap units ∨ b.flatMap units < a.flatMap units := by
    intro a b hlt
    by_cases hclash : Clash b a
    · exact .inr (flatMap_units_lt_iff.2 (.inr hclash))
    · exact .inl (flatMap_units_lt_iff.2 (.inl ⟨hlt, hclash⟩))
  have hsame : ∀ {a b : List Char}, a < b → a.flatMap units ≠ b.flatMap units := by
    intro a b hlt heq
    rcases hforward hlt with hless | hless
    · exact absurd (heq ▸ hless) (lt_irrefl _)
    · exact absurd (heq ▸ hless) (lt_irrefl _)
  rcases lt_trichotomy s t with hlt | heq | hlt
  · exact absurd h (hsame hlt)
  · exact heq
  · exact absurd h.symm (hsame hlt)

/-- The texts in the order of their code units are in the order of their code points exactly when no two of them
clash. -/
theorem sorted_iff {ts : List (List Char)} (h : ts.Pairwise fun s t => s.flatMap units < t.flatMap units) :
    ts.Pairwise (· < ·) ↔ ∀ s ∈ ts, ∀ t ∈ ts, ¬ Clash s t := by
  induction ts with
  | nil => simp
  | cons s ts ih =>
    obtain ⟨hs, hts⟩ := List.pairwise_cons.mp h
    have hself : ∀ t, ¬ Clash t t := by
      intro t hclash
      exact absurd (flatMap_units_lt_iff.2 (.inr hclash)) (lt_irrefl _)
    have hback : ∀ t ∈ ts, ¬ Clash t s := by
      intro t ht hclash
      exact absurd (lt_trans (hs t ht) (flatMap_units_lt_iff.2 (.inr hclash))) (lt_irrefl _)
    rw [List.pairwise_cons, ih hts]
    constructor
    · rintro ⟨hlt, hrest⟩ a ha b hb hclash
      rcases List.mem_cons.mp ha with rfl | ha'
      · rcases List.mem_cons.mp hb with rfl | hb'
        · exact hself _ hclash
        · obtain ⟨p, c, d, u, v, rfl, rfl, hcd⟩ := hclash
          have hdc : p ++ d :: v < p ++ c :: u := by
            refine List.Lex.append_left (· < ·) (.rel ?_) p
            show d.toNat < c.toNat
            unfold Crosses at hcd
            omega
          exact absurd (lt_trans (hlt _ hb') hdc) (lt_irrefl _)
      · rcases List.mem_cons.mp hb with rfl | hb'
        · exact hback a ha' hclash
        · exact hrest a ha' b hb' hclash
    · intro hno
      refine ⟨fun t ht => ?_, fun a ha b hb => hno a (List.mem_cons_of_mem _ ha) b (List.mem_cons_of_mem _ hb)⟩
      rcases flatMap_units_lt_iff.1 (hs t ht) with ⟨hlt, -⟩ | hclash
      · exact hlt
      · exact absurd hclash (hno s List.mem_cons_self t (List.mem_cons_of_mem _ ht))

end Rtvbp.Lib
