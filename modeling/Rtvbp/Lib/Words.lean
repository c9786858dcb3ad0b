import Mathlib.Data.Nat.Bitwise
import Mathlib.Tactic
import Mathlib.Data.BitVec

/-! # Machine words -/

/-!
## Arithmetic of signed words

Products and quotients of 64-bit integers that are in range are those of the integers.
-/

namespace Rtvbp.Lib

variable {a b : Int64}

theorem toInt_mul_of_le (hpos : 0 ≤ a.toInt * b.toInt) (hle : a.toInt * b.toInt ≤ 2 ^ 63 - 1) :
    (a * b).toInt = a.toInt * b.toInt := by
  rw [Int64.toInt_mul]
  exact Int.bmod_eq_of_le (by omega) (by omega)

theorem toInt_div_of_pos (ha : 0 ≤ a.toInt) (hb : 0 < b.toInt) : (a / b).toInt = a.toInt / b.toInt := by
  have hne : b ≠ -1 := by
    rintro rfl
    exact absurd hb (by decide)
  rw [Int64.toInt_div_of_ne_right _ _ hne, Int.tdiv_eq_ediv_of_nonneg ha]

end Rtvbp.Lib

/-!
## Searching the highest bit

The loop that moves a mask down from bit `n + low` until it meets a bit of the value, and gives the number of places
above `low`, on machine integers of any width.
-/

namespace Rtvbp.Lib

variable {w : ℕ}

/-- The number of places above the lowest one, where the mask stands at the end of the loop. -/
def highestBit (value : BitVec w) : ℕ → BitVec w → ℕ
  | 0, _ => 0
  | n + 1, mask => if value &&& mask = 0 then highestBit value n (mask.sshiftRight 1) else n + 1

/-- A mask of one bit meets the highest bit of a value, or no bit. -/
theorem and_mask_eq_zero_iff {value mask : BitVec w} {i : ℕ} (hmask : mask.toNat = 2 ^ i)
    (hvalue : value.toNat < 2 ^ (i + 1)) : value &&& mask = 0 ↔ value.toNat < 2 ^ i := by
  have hand : (value &&& mask).toNat = (value.toNat.testBit i).toNat * 2 ^ i := by
    rw [BitVec.toNat_and, hmask, Nat.and_two_pow]
  have hpos : 0 < 2 ^ i := by positivity
  constructor
  · intro hzero
    by_contra hle
    have hbit : value.toNat.testBit i = true :=
      Nat.testBit_of_two_pow_le_and_two_pow_add_one_gt (not_lt.mp hle) hvalue
    rw [hzero, hbit] at hand
    have hnot : (0 : ℕ) = 2 ^ i := by simpa using hand
    omega
  · intro hlt
    have hbit : value.toNat.testBit i = false := Nat.testBit_lt_two_pow hlt
    rw [hbit] at hand
    apply BitVec.eq_of_toNat_eq
    simpa using hand

/-- The mask moves by one place. -/
theorem toNat_sshiftRight_one {mask : BitVec w} {i : ℕ} (hmask : mask.toNat = 2 ^ (i + 1)) (hw : i + 2 < w) :
    (mask.sshiftRight 1).toNat = 2 ^ i := by
  have hmsb : mask.msb = false := by
    rw [BitVec.msb_eq_false_iff_two_mul_lt, hmask]
    calc 2 * 2 ^ (i + 1) = 2 ^ (i + 2) := by ring
      _ < 2 ^ w := Nat.pow_lt_pow_right (by norm_num) hw
  rw [BitVec.sshiftRight_eq_of_msb_false hmsb, BitVec.toNat_ushiftRight, hmask, Nat.shiftRight_eq_div_pow, pow_one,
    pow_succ, Nat.mul_div_cancel _ two_pos]

/-- The loop ends at the highest bit of the value. -/
theorem highestBit_spec {value : BitVec w} {low : ℕ} (hlow : 2 ^ low ≤ value.toNat) :
    ∀ n (mask : BitVec w), mask.toNat = 2 ^ (n + low) → n + low + 1 < w → value.toNat < 2 ^ (n + low + 1) →
      highestBit value n mask ≤ n ∧ 2 ^ (highestBit value n mask + low) ≤ value.toNat ∧
        value.toNat < 2 ^ (highestBit value n mask + low + 1) := by
  intro n
  induction n with
  | zero =>
    intro mask _ _ hlt
    refine ⟨le_rfl, ?_, ?_⟩
    · simpa [highestBit] using hlow
    · simpa [highestBit] using hlt
  | succ n ih =>
    intro mask hmask hw hlt
    have hplace : n + 1 + low = n + low + 1 := by omega
    rw [hplace] at hmask hw hlt
    rw [highestBit]
    by_cases hzero : value &&& mask = 0
    · rw [if_pos hzero]
      have hbelow := (and_mask_eq_zero_iff hmask hlt).mp hzero
      have hnext := toNat_sshiftRight_one hmask (by omega)
      obtain ⟨hle, hbounds⟩ := ih (mask.sshiftRight 1) hnext (by omega) hbelow
      exact ⟨by omega, hbounds⟩
    · rw [if_neg hzero]
      have habove : ¬ value.toNat < 2 ^ (n + low + 1) := fun h => hzero ((and_mask_eq_zero_iff hmask hlt).mpr h)
      rw [hplace]
      exact ⟨le_rfl, not_lt.mp habove, hlt⟩

end Rtvbp.Lib

/-!
## Elapsed time of a modular clock

A clock of `w` bits is read again and again, and the time between two readings is their difference modulo `2 ^ w`. The
time since the first reading is the sum of these differences, of which a difference with the first reading shows the
remainder only.
-/

namespace Rtvbp.Lib

variable {w : ℕ}

/-- The total after each of the readings, from a total at the last one. -/
def elapsedFrom (total : ℕ) (last : BitVec w) : List (BitVec w) → List ℕ
  | [] => []
  | t :: ts => (total + (t - last).toNat) :: elapsedFrom (total + (t - last).toNat) t ts

/-- The time since the first reading, at each of them. -/
def elapsed : List (BitVec w) → List ℕ
  | [] => []
  | t :: ts => 0 :: elapsedFrom 0 t ts

/-- Each reading is less than half a turn after the one before it. -/
def InOrder (ts : List (BitVec w)) : Prop := ts.IsChain fun a b => (b - a).toNat < 2 ^ (w - 1)

instance (ts : List (BitVec w)) : Decidable (InOrder ts) := inferInstanceAs (Decidable (ts.IsChain _))

/-- Two differences add up to one. -/
theorem toNat_sub_add (first last t : BitVec w) :
    (t - first).toNat = ((last - first).toNat + (t - last).toNat) % 2 ^ w := by
  rw [← BitVec.toNat_add]
  congr 1
  ring
/-- The difference with the first reading is the remainder of the total. -/
theorem map_sub_eq_mod (first last : BitVec w) (total : ℕ) (ts : List (BitVec w))
    (h : (last - first).toNat = total % 2 ^ w) :
    (ts.map fun t => (t - first).toNat) = (elapsedFrom total last ts).map (· % 2 ^ w) := by
  induction ts generalizing last total with
  | nil => rfl
  | cons t ts ih =>
    have hnext : (t - first).toNat = (total + (t - last).toNat) % 2 ^ w := by
      rw [toNat_sub_add first last t, h, Nat.mod_add_mod]
    rw [elapsedFrom, List.map_cons, List.map_cons, hnext, ih t _ hnext]

/-- The totals do not decrease. -/
theorem le_of_mem_elapsedFrom {total n : ℕ} {last : BitVec w} {ts : List (BitVec w)}
    (h : n ∈ elapsedFrom total last ts) : total ≤ n := by
  induction ts generalizing total last with
  | nil => cases h
  | cons t ts ih =>
    rcases List.mem_cons.mp h with rfl | h
    · exact Nat.le_add_right _ _
    · have hle := ih h
      omega

theorem pairwise_elapsedFrom (total : ℕ) (last : BitVec w) (ts : List (BitVec w)) :
    (elapsedFrom total last ts).Pairwise (· ≤ ·) := by
  induction ts generalizing total last with
  | nil => exact List.Pairwise.nil
  | cons t ts ih =>
    rw [elapsedFrom, List.pairwise_cons]
    exact ⟨fun n hn => le_of_mem_elapsedFrom hn, ih _ _⟩

theorem pairwise_elapsed (ts : List (BitVec w)) : (elapsed ts).Pairwise (· ≤ ·) := by
  cases ts with
  | nil => exact List.Pairwise.nil
  | cons t ts =>
    rw [elapsed, List.pairwise_cons]
    exact ⟨fun n _ => Nat.zero_le n, pairwise_elapsedFrom 0 t ts⟩

end Rtvbp.Lib
