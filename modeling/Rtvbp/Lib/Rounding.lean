import Mathlib.Data.Int.Log
import Mathlib.Data.Rat.Floor
import Mathlib.Tactic

/-!
# Rounding to nearest

The results of floating-point arithmetic: a rational number is rounded to a significand of `precision` bits, with ties
to even. A number of unit `exponent` in the last place is one of the multiples of `2 ^ exponent`; `smallest` is the
exponent below which there are no units. Overflow is not part of it.
-/

namespace Rtvbp.Lib

/-- The nearest integer, of two the even one. -/
def roundHalfEven (x : ℚ) : ℤ :=
  if x - ⌊x⌋ < 1 / 2 then ⌊x⌋
  else if 1 / 2 < x - ⌊x⌋ then ⌊x⌋ + 1
  else if ⌊x⌋ % 2 = 0 then ⌊x⌋
  else ⌊x⌋ + 1

/-- A binary format. -/
structure FloatFormat where
  precision : ℕ
  smallest : ℤ

namespace FloatFormat

/-- The IEEE format of double precision. -/
def binary64 : FloatFormat where
  precision := 53
  smallest := -1074

/-- The exponent of the unit in the last place. -/
def unit (f : FloatFormat) (x : ℚ) : ℤ := max (Int.log 2 |x| + 1 - f.precision) f.smallest

/-- The nearest number of the format. -/
def round (f : FloatFormat) (x : ℚ) : ℚ := roundHalfEven (x / 2 ^ f.unit x) * 2 ^ f.unit x

end FloatFormat

/-! ## The nearest integer -/

theorem abs_roundHalfEven_sub_le (x : ℚ) : |(roundHalfEven x : ℚ) - x| ≤ 1 / 2 := by
  have hle : (⌊x⌋ : ℚ) ≤ x := Int.floor_le x
  have hlt : x < ⌊x⌋ + 1 := Int.lt_floor_add_one x
  unfold roundHalfEven
  rw [abs_le]
  split_ifs with hbelow habove heven
  · constructor <;> linarith
  · push_cast
    constructor <;> linarith
  · constructor <;> linarith
  · push_cast
    constructor <;> linarith

@[simp] theorem roundHalfEven_intCast (n : ℤ) : roundHalfEven (n : ℚ) = n := by
  have hzero : ((n : ℚ) - ⌊(n : ℚ)⌋) < 1 / 2 := by
    rw [Int.floor_intCast, sub_self]
    norm_num
  rw [roundHalfEven, if_pos hzero, Int.floor_intCast]

namespace FloatFormat

variable {f : FloatFormat} {x : ℚ}

/-- The error is at most half a unit in the last place. -/
theorem abs_round_sub_le (f : FloatFormat) (x : ℚ) : |f.round x - x| ≤ 2 ^ f.unit x / 2 := by
  have hpos : (0 : ℚ) < 2 ^ f.unit x := by positivity
  have hnear := abs_roundHalfEven_sub_le (x / 2 ^ f.unit x)
  have hsplit : f.round x - x = ((roundHalfEven (x / 2 ^ f.unit x) : ℚ) - x / 2 ^ f.unit x) * 2 ^ f.unit x := by
    rw [sub_mul, div_mul_cancel₀ x hpos.ne']
    rfl
  rw [hsplit, abs_mul, abs_of_pos hpos]
  calc |(roundHalfEven (x / 2 ^ f.unit x) : ℚ) - x / 2 ^ f.unit x| * 2 ^ f.unit x
      ≤ 1 / 2 * 2 ^ f.unit x := mul_le_mul_of_nonneg_right hnear hpos.le
    _ = 2 ^ f.unit x / 2 := by ring

/-- Below a power of two, the unit in the last place is as small as the precision allows. -/
theorem unit_le {k : ℤ} (hx : |x| < 2 ^ k) (hsmall : f.smallest ≤ k - f.precision) (hpos : x ≠ 0) :
    f.unit x ≤ k - f.precision := by
  have hlog : Int.log 2 |x| < k := by
    rw [← Int.lt_zpow_iff_log_lt (b := 2) (by norm_num) (abs_pos.mpr hpos)]
    exact_mod_cast hx
  unfold unit
  omega

/-- A multiple of a unit that is no smaller is a number of the format. -/
theorem round_eq_of_unit_le {e : ℤ} (n : ℤ) (hx : x = n * 2 ^ e) (he : f.unit x ≤ e) : f.round x = x := by
  obtain ⟨k, hk⟩ := Int.le.dest he
  have hpos : (0 : ℚ) < 2 ^ f.unit x := by positivity
  have hpow : (2 : ℚ) ^ e = 2 ^ (k : ℤ) * 2 ^ f.unit x := by
    rw [← zpow_add₀ (by norm_num), add_comm, hk]
  have hquotient : x / 2 ^ f.unit x = ((n * 2 ^ k : ℤ) : ℚ) := by
    rw [div_eq_iff hpos.ne']
    push_cast
    rw [mul_assoc]
    calc x = n * 2 ^ e := hx
      _ = n * (2 ^ k * 2 ^ f.unit x) := by rw [hpow, zpow_natCast]
  rw [round, hquotient, roundHalfEven_intCast, ← hquotient, div_mul_cancel₀ x hpos.ne']

/-- An integer of no more bits than the precision is a number of the format. -/
theorem round_intCast {n : ℤ} (hn : |n| < 2 ^ f.precision) (hsmall : f.smallest ≤ 0) : f.round (n : ℚ) = n := by
  by_cases hzero : n = 0
  · subst hzero
    simp [round, roundHalfEven]
  · refine round_eq_of_unit_le (e := 0) n (by simp) ?_
    have hcast : |(n : ℚ)| < 2 ^ (f.precision : ℤ) := by
      rw [zpow_natCast]
      exact_mod_cast hn
    have hunit := unit_le (f := f) hcast (by omega) (by exact_mod_cast hzero)
    omega

end FloatFormat

end Rtvbp.Lib
