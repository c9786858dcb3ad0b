import Mathlib.Algebra.Order.Floor.Semiring
import Mathlib.Data.Rat.Floor
import Mathlib.Tactic

/-!
# The resampler

`StatefulLinearResampler` of `sdk/typescript/src/browser_audio.ts` over exact rational numbers. `interpolation` is
what it is for: the samples at the output positions, on the straight lines between the input samples.
-/

namespace Rtvbp.TypeScript.Resampler

/-- The rates, which the constructor asks to be positive. -/
structure Rates where
  input : ℚ
  output : ℚ
  input_pos : 0 < input
  output_pos : 0 < output

/-- The distance of two output positions. -/
def Rates.step (r : Rates) : ℚ := r.input / r.output

theorem Rates.step_pos (r : Rates) : 0 < r.step := div_pos r.input_pos r.output_pos

/-- The fields of the resampler. -/
structure State where
  nextOutputAt : ℚ
  inputOffset : Nat
  previous : Option ℚ

/-- The state of a new resampler. -/
def fresh : State where
  nextOutputAt := 0
  inputOffset := 0
  previous := none

/-- `reset`. -/
def reset (_ : State) : State := fresh

/-- `Number.EPSILON`. -/
def EPSILON : ℚ := 1 / 2 ^ 52

/-- The position of the last sample of a chunk. -/
def State.last (s : State) (input : List ℚ) : ℚ := (s.inputOffset + input.length : ℚ) - 1

/-- The body of the loop of `process`, up to the value that is pushed, or `none` where it breaks. -/
def sample (s : State) (input : List ℚ) (nextOutputAt : ℚ) : Option ℚ :=
  let lower := ⌊nextOutputAt⌋
  let fraction := nextOutputAt - lower
  if lower < s.inputOffset then
    match s.previous with
    | none => none
    | some first =>
      let second := input[0]?.getD first
      some (first + (second - first) * fraction)
  else
    let first := input[(lower - s.inputOffset).toNat]?.getD 0
    if s.last input < lower + 1 then
      if EPSILON < fraction then none
      else some (first + (first - first) * fraction)
    else
      let second := input[(lower + 1 - s.inputOffset).toNat]?.getD first
      some (first + (second - first) * fraction)

/-- The loop of `process`: the values that are pushed, and the next position. -/
def outputs (r : Rates) (s : State) (input : List ℚ) (nextOutputAt : ℚ) : List ℚ × ℚ :=
  if nextOutputAt ≤ s.last input then
    match sample s input nextOutputAt with
    | none => ([], nextOutputAt)
    | some value =>
      let rest := outputs r s input (nextOutputAt + r.step)
      (value :: rest.1, rest.2)
  else ([], nextOutputAt)
termination_by (⌊(s.last input - nextOutputAt) / r.step⌋ + 1).toNat
decreasing_by
  have hstep := r.step_pos
  have hshift : (s.last input - (nextOutputAt + r.step)) / r.step = (s.last input - nextOutputAt) / r.step - 1 := by
    field_simp
    ring
  have hnonneg : 0 ≤ ⌊(s.last input - nextOutputAt) / r.step⌋ :=
    Int.floor_nonneg.mpr (div_nonneg (by linarith) hstep.le)
  rw [hshift, Int.floor_sub_one]
  omega

/-- `process`: the state after a chunk, and the output. -/
def process (r : Rates) (s : State) (input : List ℚ) : State × List ℚ :=
  if input = [] then (s, [])
  else
    let loop := outputs r s input s.nextOutputAt
    ({ nextOutputAt := loop.2
       inputOffset := s.inputOffset + input.length
       previous := input.getLast? }, loop.1)

/-- `process` on one chunk after the other. -/
def processAll (r : Rates) (s : State) : List (List ℚ) → State × List (List ℚ)
  | [] => (s, [])
  | chunk :: chunks =>
    let first := process r s chunk
    let rest := processAll r first.1 chunks
    (rest.1, first.2 :: rest.2)

/-! ## What the resampler is for -/

/-- The value at a position on the straight lines between the samples. -/
def interpolate (x : List ℚ) (position : ℚ) : ℚ :=
  let first := x.getD ⌊position⌋₊ 0
  let second := x.getD (⌊position⌋₊ + 1) 0
  first + (second - first) * (position - ⌊position⌋₊)

/-- The number of output positions up to the last of `n` samples. -/
def count (r : Rates) (n : Nat) : Nat := if n = 0 then 0 else ⌊((n : ℚ) - 1) / r.step⌋₊ + 1

/-- The samples at the output positions. -/
def interpolation (r : Rates) (x : List ℚ) : List ℚ :=
  (List.range (count r x.length)).map fun k : Nat => interpolate x (k * r.step)

/-- The output positions that are counted. -/
theorem lt_count_iff (r : Rates) {n k : Nat} : k < count r n ↔ (k : ℚ) * r.step ≤ n - 1 := by
  rw [count]
  split_ifs with hn
  · subst hn
    have hnonneg : (0 : ℚ) ≤ k * r.step := mul_nonneg (Nat.cast_nonneg k) r.step_pos.le
    simp only [Nat.not_lt_zero, false_iff, not_le, Nat.cast_zero]
    linarith
  · have hlast : (0 : ℚ) ≤ (n : ℚ) - 1 := by
      have hone : (1 : ℚ) ≤ n := by exact_mod_cast Nat.one_le_iff_ne_zero.mpr hn
      linarith
    rw [Nat.lt_succ_iff, Nat.le_floor_iff (div_nonneg hlast r.step_pos.le), le_div_iff₀ r.step_pos]

end Rtvbp.TypeScript.Resampler
