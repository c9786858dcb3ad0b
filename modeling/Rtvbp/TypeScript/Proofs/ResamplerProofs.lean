import Rtvbp.TypeScript.Resampler

/-!
# The resampler does not depend on the chunks

After any chunks the resampler is in the state that belongs to the samples so far, and a further chunk adds the
interpolations at the output positions that it completes.
-/

namespace Rtvbp.TypeScript.Resampler

variable {r : Rates} {x input : List ℚ}

/-- The state after the samples. -/
def stateAfter (r : Rates) (x : List ℚ) : State where
  nextOutputAt := count r x.length * r.step
  inputOffset := x.length
  previous := x.getLast?

theorem count_mono (r : Rates) {n m : Nat} (h : n ≤ m) : count r n ≤ count r m := by
  by_contra hlt
  have hle := (lt_count_iff r).mp (not_le.mp hlt)
  have hnot := mt (lt_count_iff r).mpr (lt_irrefl (count r m))
  have hcast : (n : ℚ) ≤ m := by exact_mod_cast h
  exact hnot (by linarith)

/-- The output positions that are left are behind the last sample. -/
theorem lt_of_count_le {n k : Nat} (h : count r n ≤ k) : (n : ℚ) - 1 < k * r.step :=
  not_le.mp fun hle => absurd ((lt_count_iff r).mpr hle) (not_lt.mpr h)

theorem last_stateAfter : (stateAfter r x).last input = ((x ++ input).length : ℚ) - 1 := by
  simp [State.last, stateAfter]

theorem getD_append_right {n : Nat} (h : x.length ≤ n) : (x ++ input).getD n 0 = input[n - x.length]?.getD 0 := by
  rw [List.getD_eq_getElem?_getD, List.getElem?_append_right h]

/-- The loop interpolates at a position that the chunk completes. -/
theorem sample_stateAfter {q : ℚ} (hnonneg : 0 ≤ q) (hafter : (x.length : ℚ) - 1 < q)
    (hlast : q ≤ ((x ++ input).length : ℚ) - 1) :
    sample (stateAfter r x) input q = some (interpolate (x ++ input) q) := by
  have hfloor : ((⌊q⌋₊ : Nat) : Int) = ⌊q⌋ := Int.natCast_floor_eq_floor hnonneg
  have hlow : (⌊q⌋₊ : ℚ) ≤ q := Nat.floor_le hnonneg
  have hhigh : q < ⌊q⌋₊ + 1 := Nat.lt_floor_add_one q
  have hfraction : q - (⌊q⌋ : Int) = q - ⌊q⌋₊ := by rw [← hfloor, Int.cast_natCast]
  have hlength : ⌊q⌋₊ < (x ++ input).length := by
    have hcast : (⌊q⌋₊ : ℚ) < (x ++ input).length := by linarith
    exact_mod_cast hcast
  rw [List.length_append] at hlength
  simp only [sample, interpolate, ← hfloor, Int.cast_natCast, last_stateAfter]
  by_cases hlower : ⌊q⌋₊ < x.length
  · -- the position is between the last sample before the chunk and its first one
    have heq : ⌊q⌋₊ + 1 = x.length := by
      have hcast : (x.length : ℚ) < ⌊q⌋₊ + 1 + 1 := by linarith
      have hnat : x.length < ⌊q⌋₊ + 1 + 1 := by exact_mod_cast hcast
      omega
    have hne : x ≠ [] := by
      rintro rfl
      simp at hlower
    have hprevious : x.getLast? = some (x.getD ⌊q⌋₊ 0) := by
      rw [List.getLast?_eq_getElem?, ← heq, Nat.add_sub_cancel, List.getD_eq_getElem?_getD,
        List.getElem?_eq_getElem hlower]
      rfl
    have hinput : input ≠ [] := by
      rintro rfl
      rw [List.append_nil] at hlast
      linarith
    obtain ⟨first, rest, rfl⟩ := List.exists_cons_of_ne_nil hinput
    have hfirst : (x ++ first :: rest).getD ⌊q⌋₊ 0 = x.getD ⌊q⌋₊ 0 := by
      simp [List.getD_eq_getElem?_getD, List.getElem?_append_left hlower]
    have hsecond : (x ++ first :: rest).getD (⌊q⌋₊ + 1) 0 = first := by
      rw [heq, getD_append_right (le_refl _), Nat.sub_self]
      rfl
    have hbefore : ((⌊q⌋₊ : Nat) : Int) < (stateAfter r x).inputOffset := by
      simpa [stateAfter] using hlower
    rw [if_pos hbefore, hfirst, hsecond]
    simp [stateAfter, hprevious]
  · have hge : x.length ≤ ⌊q⌋₊ := not_lt.mp hlower
    have hnotBefore : ¬ ((⌊q⌋₊ : Nat) : Int) < (stateAfter r x).inputOffset := by
      simpa [stateAfter] using hge
    have hindex : (((⌊q⌋₊ : Nat) : Int) - (stateAfter r x).inputOffset).toNat = ⌊q⌋₊ - x.length := by
      simp only [stateAfter]
      omega
    have hnext : (((⌊q⌋₊ : Nat) : Int) + 1 - (stateAfter r x).inputOffset).toNat = ⌊q⌋₊ + 1 - x.length := by
      simp only [stateAfter]
      omega
    have hfirst : (x ++ input).getD ⌊q⌋₊ 0 = input[⌊q⌋₊ - x.length]?.getD 0 := getD_append_right hge
    rw [if_neg hnotBefore, hindex, hnext, hfirst]
    by_cases hend : ⌊q⌋₊ + 1 = (x ++ input).length
    · -- the position is that of the last sample
      have hcast : ((x ++ input).length : ℚ) = ⌊q⌋₊ + 1 := by exact_mod_cast hend.symm
      have hsame : q = ⌊q⌋₊ := le_antisymm (by linarith) hlow
      have hzero : q - ⌊q⌋₊ = 0 := sub_eq_zero.mpr hsame
      have hpast : ((x ++ input).length : ℚ) - 1 < ⌊q⌋₊ + 1 := by linarith
      have hnear : ¬ EPSILON < q - ⌊q⌋₊ := by
        rw [hzero]
        norm_num [EPSILON]
      rw [if_pos hpast, if_neg hnear, hzero]
      simp
    · have hinside : ⌊q⌋₊ + 1 < (x ++ input).length := by
        rw [List.length_append] at hend ⊢
        omega
      have hnotPast : ¬ ((x ++ input).length : ℚ) - 1 < ⌊q⌋₊ + 1 := by
        have hcast : (⌊q⌋₊ : ℚ) + 1 + 1 ≤ (x ++ input).length := by exact_mod_cast hinside
        linarith
      have hsecond : (x ++ input).getD (⌊q⌋₊ + 1) 0 = input[⌊q⌋₊ + 1 - x.length]?.getD 0 :=
        getD_append_right (by omega)
      have hin : ⌊q⌋₊ + 1 - x.length < input.length := by
        rw [List.length_append] at hinside
        omega
      rw [if_neg hnotPast, hsecond, List.getElem?_eq_getElem hin]
      rfl

/-- The loop from one of the output positions that are left. -/
theorem outputs_stateAfter {k : Nat} (hk : count r x.length ≤ k) :
    outputs r (stateAfter r x) input (k * r.step) =
      ((List.range' k (count r (x ++ input).length - k)).map (fun j : Nat => interpolate (x ++ input) (j * r.step)),
        (max k (count r (x ++ input).length) : Nat) * r.step) := by
  obtain ⟨d, hd⟩ : ∃ d, count r (x ++ input).length - k = d := ⟨_, rfl⟩
  rw [outputs, last_stateAfter]
  induction d generalizing k with
  | zero =>
    have hnot : ¬ (k : ℚ) * r.step ≤ ((x ++ input).length : ℚ) - 1 := by
      rw [← lt_count_iff]
      omega
    rw [if_neg hnot, hd, max_eq_left (by omega)]
    rfl
  | succ d ih =>
    have hle : (k : ℚ) * r.step ≤ ((x ++ input).length : ℚ) - 1 := (lt_count_iff r).mp (by omega)
    have hsample := sample_stateAfter (r := r) (mul_nonneg (Nat.cast_nonneg k) r.step_pos.le) (lt_of_count_le hk) hle
    have hnext : (k : ℚ) * r.step + r.step = ((k + 1 : Nat) : ℚ) * r.step := by
      push_cast
      ring
    have hrest := ih (k := k + 1) (by omega) (by omega)
    rw [← last_stateAfter (r := r), ← outputs] at hrest
    rw [if_pos hle, hsample, hnext]
    simp only
    rw [hrest, hd, List.range'_succ, List.map_cons]
    have hcount : count r (x ++ input).length - (k + 1) = d := by omega
    have hmax : max (k + 1) (count r (x ++ input).length) = max k (count r (x ++ input).length) := by omega
    rw [hcount, hmax]

/-- A chunk completes the output positions up to its last sample. -/
theorem process_stateAfter :
    process r (stateAfter r x) input =
      (stateAfter r (x ++ input),
        (List.range' (count r x.length) (count r (x ++ input).length - count r x.length)).map
          fun j : Nat => interpolate (x ++ input) (j * r.step)) := by
  by_cases hinput : input = []
  · subst hinput
    simp [process]
  · have hloop : outputs r (stateAfter r x) input (stateAfter r x).nextOutputAt = _ :=
      outputs_stateAfter (le_refl _)
    have hmono : count r x.length ≤ count r (x ++ input).length := count_mono r (by simp)
    have hlast : (x ++ input).getLast? = input.getLast? := by
      rw [List.getLast?_append, List.getLast?_eq_some_getLast hinput]
      rfl
    rw [process, if_neg hinput, hloop, max_eq_right hmono]
    simp [stateAfter, hlast]

/-- The values between the samples that are known do not change. -/
theorem interpolate_append {q : ℚ} (hnonneg : 0 ≤ q) (hlast : q ≤ (x.length : ℚ) - 1) :
    interpolate (x ++ input) q = interpolate x q := by
  have hlow : (⌊q⌋₊ : ℚ) ≤ q := Nat.floor_le hnonneg
  have hindex : ⌊q⌋₊ < x.length := by
    have hcast : (⌊q⌋₊ : ℚ) < x.length := by linarith
    exact_mod_cast hcast
  have hfirst : (x ++ input).getD ⌊q⌋₊ 0 = x.getD ⌊q⌋₊ 0 := by
    simp [List.getD_eq_getElem?_getD, List.getElem?_append_left hindex]
  by_cases hend : ⌊q⌋₊ + 1 = x.length
  · have hcast : (x.length : ℚ) = ⌊q⌋₊ + 1 := by exact_mod_cast hend.symm
    have hzero : q - ⌊q⌋₊ = 0 := sub_eq_zero.mpr (le_antisymm (by linarith) hlow)
    simp only [interpolate, hfirst, hzero, mul_zero]
  · have hsecond : (x ++ input).getD (⌊q⌋₊ + 1) 0 = x.getD (⌊q⌋₊ + 1) 0 := by
      have hinside : ⌊q⌋₊ + 1 < x.length := by omega
      simp [List.getD_eq_getElem?_getD, List.getElem?_append_left hinside]
    simp only [interpolate, hfirst, hsecond]

/-- The interpolations of more samples begin with those of the samples before. -/
theorem interpolation_append :
    interpolation r (x ++ input) = interpolation r x ++
      (List.range' (count r x.length) (count r (x ++ input).length - count r x.length)).map
        fun j : Nat => interpolate (x ++ input) (j * r.step) := by
  have hmono : count r x.length ≤ count r (x ++ input).length := count_mono r (by simp)
  have hold : interpolation r x =
      (List.range (count r x.length)).map fun j : Nat => interpolate (x ++ input) (j * r.step) := by
    refine List.map_congr_left fun j hj => ?_
    have hle := (lt_count_iff r).mp (List.mem_range.mp hj)
    exact (interpolate_append (mul_nonneg (Nat.cast_nonneg j) r.step_pos.le) hle).symm
  rw [hold, ← List.map_append, interpolation]
  obtain ⟨d, hd⟩ := Nat.exists_eq_add_of_le hmono
  have hrange : List.range (count r x.length + d) =
      List.range (count r x.length) ++ List.range' (count r x.length) d := by
    rw [List.range_eq_range', List.range_eq_range', List.range'_append_1.symm, Nat.zero_add]
  rw [hd, Nat.add_sub_cancel_left, hrange]

/-- The outputs of any chunks after some samples are those that the samples were lacking. -/
theorem processAll_stateAfter (chunks : List (List ℚ)) :
    interpolation r x ++ (processAll r (stateAfter r x) chunks).2.flatten =
      interpolation r (x ++ chunks.flatten) := by
  induction chunks generalizing x with
  | nil => simp [processAll]
  | cons chunk chunks ih =>
    simp only [processAll, process_stateAfter, List.flatten_cons]
    rw [← List.append_assoc, ← interpolation_append, ih, List.append_assoc]

/-- The outputs of a new resampler, or of one after `reset`, are the interpolations of the samples at the output
positions up to the last sample, however the samples are cut into chunks. -/
theorem process_chunks (r : Rates) (s : State) (hs : s = fresh ∨ ∃ used, s = reset used) (x : List ℚ)
    (chunks : List (List ℚ)) (hcut : chunks.flatten = x) :
    (processAll r s chunks).2.flatten = interpolation r x ∧
      ∀ k : Nat, k < count r x.length ↔ (k : ℚ) * (r.input / r.output) ≤ (x.length : ℚ) - 1 := by
  have hfresh : s = fresh := by
    rcases hs with rfl | ⟨used, rfl⟩
    · rfl
    · rfl
  have hstart : s = stateAfter r [] := by simp [hfresh, fresh, stateAfter, count]
  refine ⟨?_, fun k => lt_count_iff r⟩
  have hnone : interpolation r [] = [] := by simp [interpolation, count]
  rw [hstart, ← hcut]
  simpa [hnone] using processAll_stateAfter (r := r) (x := []) chunks

/-- Three samples at a rate of 2 to 3, in chunks of none, one and two samples. -/
theorem process_three_chunks :
    (processAll ⟨2, 3, by decide, by decide⟩ fresh [[], [0], [3, 6]]).2.flatten =
      interpolation ⟨2, 3, by decide, by decide⟩ [0, 3, 6] :=
  (process_chunks ⟨2, 3, by decide, by decide⟩ fresh (Or.inl rfl) [0, 3, 6] [[], [0], [3, 6]] rfl).1

end Rtvbp.TypeScript.Resampler
