import Mathlib.Tactic

/-!
# Companding

The quantiser of μ-law companding on integers. The magnitude of a sample is clipped and a bias is added, so that the
highest bit of the result gives the segment. A segment is cut into 16 steps, and a sample is restored as the middle of
its step.
-/

namespace Rtvbp.Lib.MuLaw

def bias : ℕ := 132

def clip : ℕ := 32635

/-- The biased magnitude of a sample. -/
def biased (s : ℤ) : ℕ := min s.natAbs clip + bias

/-- The segment of a biased magnitude. -/
def segment (b : ℕ) : ℕ := Nat.log2 b - 7

/-- The width of a quantisation step. -/
def step (e : ℕ) : ℕ := 2 ^ (e + 3)

/-- The middle of the step of a biased magnitude. -/
def quantised (b : ℕ) : ℕ := (2 * (b / step (segment b)) + 1) * 2 ^ (segment b + 2)

/-- A sample as it is restored. -/
def companded (s : ℤ) : ℤ := if s < 0 then bias - quantised (biased s) else quantised (biased s) - bias

/-! ## Segments -/

variable {b c e : ℕ}

theorem two_mul_half (e : ℕ) : step e = 2 * 2 ^ (e + 2) := by
  rw [step]
  ring

theorem lower_bound (e : ℕ) : 2 ^ (e + 7) = 16 * step e := by
  rw [step]
  ring

theorem upper_bound (e : ℕ) : 2 ^ (e + 8) = 32 * step e := by
  rw [step]
  ring

theorem step_pos (e : ℕ) : 0 < step e := by
  unfold step
  positivity

theorem segment_spec (h : 128 ≤ b) : 2 ^ (segment b + 7) ≤ b ∧ b < 2 ^ (segment b + 8) := by
  have hne : b ≠ 0 := by omega
  have hlog : 7 ≤ b.log2 := (Nat.le_log2 hne).mpr h
  have hsegment : segment b + 7 = b.log2 := Nat.sub_add_cancel hlog
  have hlt := Nat.lt_log2_self (n := b)
  rw [hsegment]
  refine ⟨Nat.log2_self_le hne, ?_⟩
  have hsucc : segment b + 8 = b.log2 + 1 := by omega
  rw [hsucc]
  exact hlt

theorem segment_eq (hle : 2 ^ (e + 7) ≤ b) (hlt : b < 2 ^ (e + 8)) : segment b = e := by
  have hpos : 0 < 2 ^ (e + 7) := by positivity
  have hlog : b.log2 = e + 7 := (Nat.log2_eq_iff (by omega)).mpr ⟨hle, hlt⟩
  rw [segment, hlog]
  omega

theorem segment_mono (hb : 128 ≤ b) (h : b ≤ c) : segment b ≤ segment c := by
  by_contra hlt
  have hstep : 2 ^ (segment c + 8) ≤ 2 ^ (segment b + 7) := Nat.pow_le_pow_right (by norm_num) (by omega)
  have hb' := (segment_spec hb).1
  have hc' := (segment_spec (b := c) (by omega)).2
  omega

/-- The number of the step of a biased magnitude, which has five bits. -/
theorem cell_bounds (h : 128 ≤ b) : 16 ≤ b / step (segment b) ∧ b / step (segment b) < 32 := by
  obtain ⟨hle, hlt⟩ := segment_spec h
  rw [lower_bound] at hle
  rw [upper_bound] at hlt
  exact ⟨(Nat.le_div_iff_mul_le (step_pos _)).mpr hle, (Nat.div_lt_iff_lt_mul (step_pos _)).mpr hlt⟩

/-! ## Quantisation -/

theorem two_mul_quantised (b : ℕ) : 2 * quantised b = (2 * (b / step (segment b)) + 1) * step (segment b) := by
  rw [quantised, two_mul_half]
  ring

/-- The middle of a step is in it. -/
theorem quantised_bounds (h : 128 ≤ b) :
    2 ^ (segment b + 7) ≤ quantised b ∧ quantised b < 2 ^ (segment b + 8) := by
  obtain ⟨hle, hlt⟩ := cell_bounds h
  have hpos := step_pos (segment b)
  have htwice := two_mul_quantised b
  have hlower : 33 * step (segment b) ≤ (2 * (b / step (segment b)) + 1) * step (segment b) :=
    Nat.mul_le_mul_right _ (by omega)
  have hupper : (2 * (b / step (segment b)) + 1) * step (segment b) ≤ 63 * step (segment b) :=
    Nat.mul_le_mul_right _ (by omega)
  rw [lower_bound, upper_bound]
  omega

theorem segment_quantised (h : 128 ≤ b) : segment (quantised b) = segment b :=
  segment_eq (quantised_bounds h).1 (quantised_bounds h).2

theorem quantised_quantised (h : 128 ≤ b) : quantised (quantised b) = quantised b := by
  have hsegment := segment_quantised h
  have hpos : 0 < 2 ^ (segment b + 2) := by positivity
  have hcell : quantised b / step (segment b) = b / step (segment b) := by
    have hsplit : quantised b = 2 ^ (segment b + 2) + step (segment b) * (b / step (segment b)) := by
      rw [quantised, two_mul_half]
      ring
    have hhalf : 2 ^ (segment b + 2) < step (segment b) := by
      rw [two_mul_half]
      omega
    rw [hsplit, Nat.add_mul_div_left _ _ (step_pos _), Nat.div_eq_of_lt hhalf, Nat.zero_add]
  calc quantised (quantised b)
      = (2 * (quantised b / step (segment b)) + 1) * 2 ^ (segment b + 2) := by
        conv_lhs => rw [quantised, hsegment]
    _ = quantised b := by rw [hcell, quantised]

theorem quantised_mono (hb : 128 ≤ b) (h : b ≤ c) : quantised b ≤ quantised c := by
  rcases Nat.lt_or_eq_of_le (segment_mono hb h) with hlt | heq
  · have hbelow := (quantised_bounds hb).2
    have habove := (quantised_bounds (b := c) (by omega)).1
    have hstep : 2 ^ (segment b + 8) ≤ 2 ^ (segment c + 7) := Nat.pow_le_pow_right (by norm_num) (by omega)
    omega
  · have hcell : b / step (segment b) ≤ c / step (segment b) := Nat.div_le_div_right h
    rw [quantised, quantised, ← heq]
    exact Nat.mul_le_mul_right _ (by omega)

/-- The error is at most half a step. -/
theorem quantised_error (b : ℕ) :
    quantised b ≤ b + 2 ^ (segment b + 2) ∧ b ≤ quantised b + 2 ^ (segment b + 2) := by
  have hdiv : step (segment b) * (b / step (segment b)) + b % step (segment b) = b := Nat.div_add_mod _ _
  have hmod : b % step (segment b) < step (segment b) := Nat.mod_lt _ (step_pos _)
  have hsplit : quantised b = step (segment b) * (b / step (segment b)) + 2 ^ (segment b + 2) := by
    rw [quantised, two_mul_half]
    ring
  have hhalf := two_mul_half (segment b)
  omega

/-! ## Samples -/

variable {s t : ℤ}

theorem biased_bounds (s : ℤ) : bias ≤ biased s ∧ biased s ≤ clip + bias := by
  unfold biased
  omega

theorem bias_le_biased (s : ℤ) : 128 ≤ biased s := by
  have h := (biased_bounds s).1
  unfold bias at h
  omega

theorem bias_le_quantised (s : ℤ) : bias ≤ quantised (biased s) := by
  have hmono := quantised_mono (b := bias) (by decide) (biased_bounds s).1
  have hbias : quantised bias = bias := by decide
  omega

theorem quantised_le (s : ℤ) : quantised (biased s) ≤ clip + bias := by
  have hmono := quantised_mono (bias_le_biased s) (biased_bounds s).2
  have hclip : quantised (clip + bias) ≤ clip + bias := by decide
  omega

/-- A restored sample is not beyond the clip. -/
theorem natAbs_companded (s : ℤ) : (companded s).natAbs = quantised (biased s) - bias := by
  have h := bias_le_quantised s
  unfold companded
  split_ifs <;> omega

theorem companded_bounds (s : ℤ) : -32635 ≤ companded s ∧ companded s ≤ 32635 := by
  have habs := natAbs_companded s
  have hle := quantised_le s
  unfold clip at hle
  omega

theorem biased_companded (s : ℤ) : biased (companded s) = quantised (biased s) := by
  have habs := natAbs_companded s
  have hle := quantised_le s
  have hge := bias_le_quantised s
  rw [biased, habs]
  omega

/-- Restoring is a projection. -/
theorem companded_companded (s : ℤ) : companded (companded s) = companded s := by
  have hge := bias_le_quantised s
  have hprojection := quantised_quantised (bias_le_biased s)
  conv_lhs => rw [companded, biased_companded, hprojection]
  unfold companded
  split_ifs <;> omega

theorem biased_mono (h : s.natAbs ≤ t.natAbs) : biased s ≤ biased t := by
  unfold biased
  omega

theorem companded_mono (h : s ≤ t) : companded s ≤ companded t := by
  have hs := bias_le_quantised s
  have ht := bias_le_quantised t
  unfold companded
  split_ifs with hsneg htneg htneg
  · have hmono := quantised_mono (bias_le_biased t) (biased_mono (s := t) (t := s) (by omega))
    omega
  · omega
  · omega
  · have hmono := quantised_mono (bias_le_biased s) (biased_mono (s := s) (t := t) (by omega))
    omega

/-- The error of a sample that is not clipped. -/
theorem companded_error (h : s.natAbs ≤ clip) : 2 * |companded s - s| ≤ step (segment (biased s)) := by
  have herror := quantised_error (biased s)
  have hhalf := two_mul_half (segment (biased s))
  have hbiased : biased s = s.natAbs + bias := by
    unfold biased
    omega
  rcases abs_cases (companded s - s) with ⟨habs, -⟩ | ⟨habs, -⟩
  · rw [habs]
    unfold companded
    split_ifs <;> omega
  · rw [habs]
    unfold companded
    split_ifs <;> omega

end Rtvbp.Lib.MuLaw
