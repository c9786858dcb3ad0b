import Rtvbp.Lib.Words
import Rtvbp.Media.FrameSize

/-!
# The size of an audio frame is exact

Go checks each product by a division before it is computed, Rust computes in 128 bits and looks at the result, and
TypeScript computes in double precision and asks for safe integers. Each of them gives the exact number of bytes, and
refuses a format for the reasons that are listed. The products of Go are in nanoseconds, so that it refuses packets
which are long enough although TypeScript and Rust take them.
-/

namespace Rtvbp.Media

open Rtvbp.Lib
open Rtvbp.Go.Media (maxInt64)
open Rtvbp.Rust.Audio (checkedMul)
open Rtvbp.TypeScript (isSafeInteger isPositive mediaFrameBytes)

variable {p : Packet}

/-! ## Whole packets -/

/-- The number of bytes of a packet with a whole number of samples. -/
theorem bytes_eq (h : 1000000000 ∣ p.sampleNanos) : p.bytes = ((p.samples * p.channels * 2 : ℤ) : ℚ) := by
  have hnanos : p.sampleNanos = 1000000000 * p.samples := (Int.mul_ediv_cancel' h).symm
  have hcast : (p.sampleRate : ℚ) * p.ptime = 1000000000 * p.samples := by exact_mod_cast hnanos
  have hbytes : p.bytes = p.sampleRate * p.ptime * (p.channels * 2) / 10 ^ 9 := by
    unfold Packet.bytes
    ring
  rw [hbytes, hcast]
  push_cast
  ring

theorem samples_pos (h : p.Whole) : 0 < p.samples := by
  have hpos : 0 < p.sampleNanos := mul_pos h.sampleRate h.ptime
  have hnanos : p.sampleNanos = 1000000000 * p.samples := (Int.mul_ediv_cancel' h.whole).symm
  omega

theorem not_exceeds_iff (h : p.Whole) (limit : ℤ) : ¬ p.Exceeds limit ↔ p.samples * p.channels * 2 ≤ limit := by
  rw [Packet.Exceeds, bytes_eq h.whole, not_lt]
  norm_cast

/-! ## Go -/

theorem toInt_maxInt64 : maxInt64.toInt = 2 ^ 63 - 1 := by decide

/-- The check by division is exact. -/
theorem gt_maxInt64_div_iff {a b : Int64} (hb : 0 < b.toInt) :
    a > maxInt64 / b ↔ 2 ^ 63 - 1 < a.toInt * b.toInt := by
  have hdiv : (maxInt64 / b).toInt = (2 ^ 63 - 1) / b.toInt := by
    rw [toInt_div_of_pos (by decide) hb, toInt_maxInt64]
  rw [gt_iff_lt, Int64.lt_iff_toInt_lt, hdiv, Int.ediv_lt_iff_lt_mul hb]

theorem toInt_second : (1000000000 : Int64).toInt = 1000000000 := by decide

/-- What the steps of `FrameBytes` compute where the number of nanosecond samples fits. -/
theorem toInt_samples {f : Go.Media.MediaFormat} (h : (goPacket f).Whole)
    (hle : (goPacket f).sampleNanos ≤ 2 ^ 63 - 1) :
    (f.SampleRate * f.PTime / 1000000000).toInt = (goPacket f).samples := by
  have hpos : 0 < f.SampleRate.toInt * f.PTime.toInt := mul_pos h.sampleRate h.ptime
  have hmul := toInt_mul_of_le hpos.le hle
  rw [toInt_div_of_pos (by omega) (by decide), hmul]
  rfl

theorem toInt_frameSamples {f : Go.Media.MediaFormat} (h : (goPacket f).Whole)
    (hnanos : (goPacket f).sampleNanos ≤ 2 ^ 63 - 1)
    (hframe : (goPacket f).samples * (goPacket f).channels ≤ 2 ^ 63 - 1) :
    (f.SampleRate * f.PTime / 1000000000 * f.Channels).toInt = (goPacket f).samples * (goPacket f).channels := by
  have hsamples := toInt_samples h hnanos
  have hpos : 0 < (goPacket f).samples * (goPacket f).channels := mul_pos (samples_pos h) h.channels
  have hmul : (f.SampleRate * f.PTime / 1000000000).toInt * f.Channels.toInt =
      (goPacket f).samples * (goPacket f).channels := by
    rw [hsamples]
    rfl
  rw [toInt_mul_of_le (by omega) (by omega), hmul]

theorem toInt_bytesPerSample {f : Go.Media.MediaFormat} (h : (goPacket f).Whole) : (f.BitDepth / 8).toInt = 2 := by
  have hdepth : f.BitDepth = 16 := Int64.toInt_inj.mp h.bitDepth
  rw [hdepth]
  decide

theorem toInt_frameBytes {f : Go.Media.MediaFormat} (h : (goPacket f).Whole)
    (hnanos : (goPacket f).sampleNanos ≤ 2 ^ 63 - 1)
    (hframe : (goPacket f).samples * (goPacket f).channels ≤ 2 ^ 63 - 1)
    (hbytes : (goPacket f).samples * (goPacket f).channels * 2 ≤ 2 ^ 63 - 1) :
    (f.SampleRate * f.PTime / 1000000000 * f.Channels * (f.BitDepth / 8)).toInt =
      (goPacket f).samples * (goPacket f).channels * 2 := by
  have hsamples := toInt_frameSamples h hnanos hframe
  have hpos : 0 < (goPacket f).samples * (goPacket f).channels := mul_pos (samples_pos h) h.channels
  have hmul : (f.SampleRate * f.PTime / 1000000000 * f.Channels).toInt * (f.BitDepth / 8).toInt =
      (goPacket f).samples * (goPacket f).channels * 2 := by
    rw [hsamples, toInt_bytesPerSample h]
  rw [toInt_mul_of_le (by omega) (by omega), hmul]

theorem not_goRefused_iff :
    ¬ GoRefused p ↔ p.Whole ∧ p.sampleNanos ≤ 2 ^ 63 - 1 ∧ p.samples * p.channels ≤ 2 ^ 63 - 1 ∧
      ¬ p.Exceeds (2 ^ 63 - 1) := by
  unfold GoRefused
  constructor
  · intro h
    push Not at h
    obtain ⟨hencoding, hdepth, hrate, hchannels, hptime, hwhole, hlimits⟩ := h
    exact ⟨⟨hencoding, hdepth, hrate, hchannels, hptime, hwhole⟩, hlimits⟩
  · rintro ⟨h, hlimits⟩
    push Not
    exact ⟨h.encoding, h.bitDepth, h.sampleRate, h.channels, h.ptime, h.whole, hlimits⟩


/-- What `FrameBytes` does with a format. -/
theorem FrameBytes_spec (f : Go.Media.MediaFormat) :
    (GoRefused (goPacket f) ∧ ∃ err, f.FrameBytes = .error err) ∨
      (¬ GoRefused (goPacket f) ∧
        ∃ n, f.FrameBytes = .ok n ∧ n.toInt = (goPacket f).samples * (goPacket f).channels * 2) := by
  unfold Go.Media.MediaFormat.FrameBytes
  by_cases hencoding : f.Encoding ≠ "L16"
  · exact Or.inl ⟨Or.inl hencoding, _, if_pos hencoding⟩
  rw [if_neg hencoding]
  by_cases hrate : f.SampleRate ≤ 0
  · have hrefused : GoRefused (goPacket f) := by
      by_contra hnot
      have hpos := (not_goRefused_iff.1 hnot).1.sampleRate
      have hle := Int64.le_iff_toInt_le.mp hrate
      exact absurd hpos (not_lt.mpr hle)
    exact Or.inl ⟨hrefused, _, if_pos hrate⟩
  rw [if_neg hrate]
  by_cases hdepth : f.BitDepth ≠ 16
  · have hrefused : GoRefused (goPacket f) := by
      by_contra hnot
      exact hdepth (Int64.toInt_inj.mp (not_goRefused_iff.1 hnot).1.bitDepth)
    exact Or.inl ⟨hrefused, _, if_pos hdepth⟩
  rw [if_neg hdepth]
  by_cases hchannels : f.Channels ≤ 0
  · have hrefused : GoRefused (goPacket f) := by
      by_contra hnot
      have hpos := (not_goRefused_iff.1 hnot).1.channels
      exact absurd hpos (not_lt.mpr (Int64.le_iff_toInt_le.mp hchannels))
    exact Or.inl ⟨hrefused, _, if_pos hchannels⟩
  rw [if_neg hchannels]
  by_cases hptime : f.PTime ≤ 0
  · have hrefused : GoRefused (goPacket f) := by
      by_contra hnot
      have hpos := (not_goRefused_iff.1 hnot).1.ptime
      exact absurd hpos (not_lt.mpr (Int64.le_iff_toInt_le.mp hptime))
    exact Or.inl ⟨hrefused, _, if_pos hptime⟩
  rw [if_neg hptime]
  have hrate' : 0 < f.SampleRate.toInt := not_le.mp fun h => hrate (Int64.le_iff_toInt_le.mpr h)
  have hchannels' : 0 < f.Channels.toInt := not_le.mp fun h => hchannels (Int64.le_iff_toInt_le.mpr h)
  have hptime' : 0 < f.PTime.toInt := not_le.mp fun h => hptime (Int64.le_iff_toInt_le.mpr h)
  by_cases hnanos : f.SampleRate > maxInt64 / f.PTime
  · have hrefused : GoRefused (goPacket f) := by
      by_contra hnot
      exact absurd ((gt_maxInt64_div_iff hptime').mp hnanos) (not_lt.mpr (not_goRefused_iff.1 hnot).2.1)
    exact Or.inl ⟨hrefused, _, if_pos hnanos⟩
  rw [if_neg hnanos]
  have hnanos' : (goPacket f).sampleNanos ≤ 2 ^ 63 - 1 :=
    not_lt.mp fun h => hnanos ((gt_maxInt64_div_iff hptime').mpr h)
  have hpos : 0 < f.SampleRate.toInt * f.PTime.toInt := mul_pos hrate' hptime'
  have hmul := toInt_mul_of_le hpos.le hnanos'
  dsimp only
  by_cases hwhole : f.SampleRate * f.PTime % 1000000000 ≠ 0
  · have hrefused : GoRefused (goPacket f) := by
      by_contra hnot
      refine hwhole (Int64.toInt_inj.mp ?_)
      rw [Int64.toInt_mod, hmul, toInt_second, Int.tmod_eq_emod_of_nonneg hpos.le]
      exact Int.emod_eq_zero_of_dvd (not_goRefused_iff.1 hnot).1.whole
    exact Or.inl ⟨hrefused, _, if_pos hwhole⟩
  rw [if_neg hwhole]
  have hwhole' : 1000000000 ∣ (goPacket f).sampleNanos := by
    have hzero := Int64.toInt_inj.mpr (not_not.mp hwhole)
    rw [Int64.toInt_mod, hmul, toInt_second, Int.tmod_eq_emod_of_nonneg hpos.le] at hzero
    exact Int.dvd_of_emod_eq_zero hzero
  have h : (goPacket f).Whole :=
    ⟨not_not.mp hencoding, Int64.toInt_inj.mpr (not_not.mp hdepth), hrate', hchannels', hptime', hwhole'⟩
  have hsamples := toInt_samples h hnanos'
  by_cases hframe : f.SampleRate * f.PTime / 1000000000 > maxInt64 / f.Channels
  · have hrefused : GoRefused (goPacket f) := by
      by_contra hnot
      have hlt := (gt_maxInt64_div_iff hchannels').mp hframe
      rw [hsamples] at hlt
      exact absurd hlt (not_lt.mpr (not_goRefused_iff.1 hnot).2.2.1)
    exact Or.inl ⟨hrefused, _, if_pos hframe⟩
  rw [if_neg hframe]
  have hframe' : (goPacket f).samples * (goPacket f).channels ≤ 2 ^ 63 - 1 := by
    refine not_lt.mp fun hlt => hframe ((gt_maxInt64_div_iff hchannels').mpr ?_)
    rw [hsamples]
    exact hlt
  have hframeSamples := toInt_frameSamples h hnanos' hframe'
  have htwo := toInt_bytesPerSample h
  have hframePos : 0 < (goPacket f).samples * (goPacket f).channels := mul_pos (samples_pos h) h.channels
  by_cases hbytes : f.SampleRate * f.PTime / 1000000000 * f.Channels > maxInt64 / (f.BitDepth / 8)
  · have hrefused : GoRefused (goPacket f) := by
      by_contra hnot
      have hlt := (gt_maxInt64_div_iff (by omega)).mp hbytes
      rw [hframeSamples, htwo] at hlt
      exact absurd hlt (not_lt.mpr ((not_exceeds_iff h _).mp (not_goRefused_iff.1 hnot).2.2.2))
    exact Or.inl ⟨hrefused, _, if_pos hbytes⟩
  rw [if_neg hbytes]
  have hbytes' : (goPacket f).samples * (goPacket f).channels * 2 ≤ 2 ^ 63 - 1 := by
    refine not_lt.mp fun hlt => hbytes ((gt_maxInt64_div_iff (by omega)).mpr ?_)
    rw [hframeSamples, htwo]
    exact hlt
  have hframeBytes := toInt_frameBytes h hnanos' hframe' hbytes'
  have hnonpos : ¬ f.SampleRate * f.PTime / 1000000000 * f.Channels * (f.BitDepth / 8) ≤ 0 := by
    intro hle
    have hint := Int64.le_iff_toInt_le.mp hle
    rw [hframeBytes, Int64.toInt_zero] at hint
    omega
  rw [if_neg hnonpos]
  exact Or.inr ⟨not_goRefused_iff.2 ⟨h, hnanos', hframe', (not_exceeds_iff h _).mpr hbytes'⟩, _, rfl, hframeBytes⟩
theorem goExact_of_not_refused {f : Go.Media.MediaFormat} (hnot : ¬ GoRefused (goPacket f)) : GoExact f := by
  obtain ⟨h, hnanos, hframe, hbytes⟩ := not_goRefused_iff.1 hnot
  exact ⟨toInt_mul_of_le (mul_pos h.sampleRate h.ptime).le hnanos, toInt_frameSamples h hnanos hframe,
    toInt_frameBytes h hnanos hframe ((not_exceeds_iff h _).mp hbytes)⟩

theorem FrameBytes_error_iff (f : Go.Media.MediaFormat) :
    (∃ err, f.FrameBytes = .error err) ↔ GoRefused (goPacket f) := by
  rcases FrameBytes_spec f with ⟨hrefused, herr⟩ | ⟨hnot, n, hok, -⟩
  · exact ⟨fun _ => hrefused, fun _ => herr⟩
  · refine ⟨?_, fun hrefused => absurd hrefused hnot⟩
    rintro ⟨err, herr⟩
    rw [hok] at herr
    cases herr

/-! ## Rust -/

theorem not_rustRefused_iff : ¬ RustRefused p ↔ p.Whole ∧ ¬ p.Exceeds (2 ^ 64 - 1) := by
  unfold RustRefused
  constructor
  · intro h
    push Not at h
    obtain ⟨hencoding, hdepth, hrate, hchannels, hptime, hwhole, hlimit⟩ := h
    exact ⟨⟨hencoding, hdepth, hrate, hchannels, hptime, hwhole⟩, hlimit⟩
  · rintro ⟨h, hlimit⟩
    push Not
    exact ⟨h.encoding, h.bitDepth, h.sampleRate, h.channels, h.ptime, h.whole, hlimit⟩

theorem rust_samples (f : Rust.Audio.MediaFormat) :
    (rustPacket f).samples = (f.sampleRate.toNat * f.ptime / 1000000000 : ℕ) := by
  show (f.sampleRate.toNat : ℤ) * f.ptime / 1000000000 = _
  norm_cast

/-- A byte count that the 128-bit products cannot hold is beyond the limit. -/
theorem rustExact_of_not_refused {f : Rust.Audio.MediaFormat} (hnot : ¬ RustRefused (rustPacket f)) : RustExact f := by
  obtain ⟨h, hlimit⟩ := not_rustRefused_iff.1 hnot
  rw [not_exceeds_iff h, rust_samples] at hlimit
  have hpos : (0 : ℤ) < f.channels.toNat := h.channels
  have hchannels : 0 < f.channels.toNat := by exact_mod_cast hpos
  have hbytes : f.sampleRate.toNat * f.ptime / 1000000000 * f.channels.toNat * 2 < 2 ^ 64 := by
    have hle : ((f.sampleRate.toNat * f.ptime / 1000000000 * f.channels.toNat * 2 : ℕ) : ℤ) ≤ 2 ^ 64 - 1 := by
      rw [Int.natCast_mul, Int.natCast_mul]
      exact hlimit
    omega
  have hsamples : f.sampleRate.toNat * f.ptime / 1000000000 ≤
      f.sampleRate.toNat * f.ptime / 1000000000 * f.channels.toNat := Nat.le_mul_of_pos_right _ hchannels
  exact ⟨by omega, by omega, by omega⟩

theorem eq_mul_of_checkedMul {a b n : ℕ} (h : checkedMul a b = some n) : n = a * b := by
  unfold checkedMul at h
  split at h
  · exact (Option.some.inj h).symm
  · cases h

theorem checkedMul_eq {a b : ℕ} (h : a * b < 2 ^ 128) : checkedMul a b = some (a * b) := if_pos h

/-- What `frame_bytes` does with a format. -/
theorem frame_bytes_spec (f : Rust.Audio.MediaFormat) :
    (RustRefused (rustPacket f) ∧ ∃ err, f.frameBytes = .error err) ∨
      (¬ RustRefused (rustPacket f) ∧
        ∃ n : ℕ, f.frameBytes = .ok n ∧ (n : ℤ) = (rustPacket f).samples * (rustPacket f).channels * 2) := by
  unfold Rust.Audio.MediaFormat.frameBytes
  by_cases hencoding : f.encoding ≠ "L16"
  · exact Or.inl ⟨Or.inl hencoding, _, if_pos hencoding⟩
  rw [if_neg hencoding]
  by_cases hrate : f.sampleRate = 0
  · have hrefused : RustRefused (rustPacket f) := by
      by_contra hnot
      have hpos : (0 : ℤ) < f.sampleRate.toNat := (not_rustRefused_iff.1 hnot).1.sampleRate
      rw [hrate] at hpos
      exact absurd hpos (by decide)
    exact Or.inl ⟨hrefused, _, if_pos hrate⟩
  rw [if_neg hrate]
  by_cases hdepth : f.bitDepth ≠ 16
  · have hrefused : RustRefused (rustPacket f) := by
      by_contra hnot
      have hsixteen : (f.bitDepth.toNat : ℤ) = 16 := (not_rustRefused_iff.1 hnot).1.bitDepth
      exact hdepth (UInt16.toNat_inj.mp (by exact_mod_cast hsixteen))
    exact Or.inl ⟨hrefused, _, if_pos hdepth⟩
  rw [if_neg hdepth]
  by_cases hchannels : f.channels = 0
  · have hrefused : RustRefused (rustPacket f) := by
      by_contra hnot
      have hpos : (0 : ℤ) < f.channels.toNat := (not_rustRefused_iff.1 hnot).1.channels
      rw [hchannels] at hpos
      exact absurd hpos (by decide)
    exact Or.inl ⟨hrefused, _, if_pos hchannels⟩
  rw [if_neg hchannels]
  by_cases hptime : f.ptime = 0
  · have hrefused : RustRefused (rustPacket f) := by
      by_contra hnot
      have hpos : (0 : ℤ) < f.ptime := (not_rustRefused_iff.1 hnot).1.ptime
      rw [hptime] at hpos
      exact absurd hpos (by decide)
    exact Or.inl ⟨hrefused, _, if_pos hptime⟩
  rw [if_neg hptime]
  by_cases hnanos : f.sampleRate.toNat * f.ptime < 2 ^ 128
  swap
  · have hrefused : RustRefused (rustPacket f) := by
      by_contra hnot
      exact hnanos (rustExact_of_not_refused hnot).sampleNanos
    have hnone : checkedMul f.sampleRate.toNat f.ptime = none := if_neg hnanos
    rw [hnone]
    exact Or.inl ⟨hrefused, _, rfl⟩
  rw [checkedMul_eq hnanos]
  dsimp only
  by_cases hwhole : f.sampleRate.toNat * f.ptime % 1000000000 ≠ 0
  · have hrefused : RustRefused (rustPacket f) := by
      by_contra hnot
      have hdvd : (1000000000 : ℤ) ∣ f.sampleRate.toNat * f.ptime := (not_rustRefused_iff.1 hnot).1.whole
      exact hwhole (Nat.mod_eq_zero_of_dvd (by exact_mod_cast hdvd))
    exact Or.inl ⟨hrefused, _, if_pos hwhole⟩
  rw [if_neg hwhole]
  have htwo : f.bitDepth.toNat / 8 = 2 := by
    rw [not_not.mp hdepth]
    decide
  have h : (rustPacket f).Whole := by
    refine ⟨not_not.mp hencoding, ?_, ?_, ?_, ?_, ?_⟩
    · show (f.bitDepth.toNat : ℤ) = 16
      rw [not_not.mp hdepth]
      decide
    · have hne : f.sampleRate.toNat ≠ 0 := fun hzero => hrate (UInt32.toNat_inj.mp hzero)
      show (0 : ℤ) < f.sampleRate.toNat
      omega
    · have hne : f.channels.toNat ≠ 0 := fun hzero => hchannels (UInt16.toNat_inj.mp hzero)
      show (0 : ℤ) < f.channels.toNat
      omega
    · show (0 : ℤ) < f.ptime
      omega
    · have hdvd : 1000000000 ∣ f.sampleRate.toNat * f.ptime := Nat.dvd_of_mod_eq_zero (not_not.mp hwhole)
      show (1000000000 : ℤ) ∣ f.sampleRate.toNat * f.ptime
      exact_mod_cast hdvd
  have hbytes : (rustPacket f).samples * (rustPacket f).channels * 2 =
      (f.sampleRate.toNat * f.ptime / 1000000000 * f.channels.toNat * 2 : ℕ) := by
    rw [rust_samples, Int.natCast_mul, Int.natCast_mul]
    rfl
  have hpos : 0 < (rustPacket f).samples * (rustPacket f).channels := mul_pos (samples_pos h) h.channels
  by_cases hlimit : (rustPacket f).Exceeds (2 ^ 64 - 1)
  · have hrefused : RustRefused (rustPacket f) := by
      by_contra hnot
      exact (not_rustRefused_iff.1 hnot).2 hlimit
    have hnone : ((checkedMul (f.sampleRate.toNat * f.ptime / 1000000000) f.channels.toNat).bind
        (checkedMul · (f.bitDepth.toNat / 8))).filter (fun value => value < 2 ^ 64 && value ≠ 0) = none := by
      rw [Option.filter_eq_none_iff]
      intro n hn
      obtain ⟨m, hm, hn⟩ := Option.bind_eq_some_iff.mp hn
      have hvalue := eq_mul_of_checkedMul hn
      rw [eq_mul_of_checkedMul hm, htwo] at hvalue
      have hlarge : ¬ n < 2 ^ 64 := by
        intro hlt
        refine (not_exceeds_iff h _).mpr ?_ hlimit
        rw [hbytes, ← hvalue]
        omega
      intro htrue
      exact hlarge (of_decide_eq_true (Bool.and_eq_true_iff.mp htrue).1)
    rw [hnone]
    exact Or.inl ⟨hrefused, _, rfl⟩
  · have hnot : ¬ RustRefused (rustPacket f) := not_rustRefused_iff.2 ⟨h, hlimit⟩
    have hexact := rustExact_of_not_refused hnot
    have hle := (not_exceeds_iff h _).mp hlimit
    have hsome : ((checkedMul (f.sampleRate.toNat * f.ptime / 1000000000) f.channels.toNat).bind
        (checkedMul · (f.bitDepth.toNat / 8))).filter (fun value => value < 2 ^ 64 && value ≠ 0) =
          some (f.sampleRate.toNat * f.ptime / 1000000000 * f.channels.toNat * 2) := by
      rw [checkedMul_eq hexact.frameSamples, Option.bind_some, htwo, checkedMul_eq hexact.frameBytes]
      rw [Option.filter_eq_some_iff]
      refine ⟨rfl, ?_⟩
      rw [Bool.and_eq_true, decide_eq_true_iff, decide_eq_true_iff]
      omega
    rw [hsome]
    exact Or.inr ⟨hnot, _, rfl, hbytes.symm⟩

theorem frame_bytes_error_iff (f : Rust.Audio.MediaFormat) :
    (∃ err, f.frameBytes = .error err) ↔ RustRefused (rustPacket f) := by
  rcases frame_bytes_spec f with ⟨hrefused, herr⟩ | ⟨hnot, n, hok, -⟩
  · exact ⟨fun _ => hrefused, fun _ => herr⟩
  · refine ⟨?_, fun hrefused => absurd hrefused hnot⟩
    rintro ⟨err, herr⟩
    rw [hok] at herr
    cases herr

/-! ## TypeScript -/

theorem isSafeInteger_intCast (n : ℤ) : isSafeInteger (n : ℚ) = true ↔ |n| < 2 ^ 53 := by
  have hcast : |(n : ℚ)| < 2 ^ 53 ↔ |n| < 2 ^ 53 := by exact_mod_cast Iff.rfl
  simp [isSafeInteger, hcast]

theorem isPositive_intCast (n : ℤ) : isPositive (n : ℚ) = true ↔ 0 < n ∧ n < 2 ^ 53 := by
  rw [isPositive, Bool.and_eq_true, isSafeInteger_intCast, decide_eq_true_iff, Int.cast_pos]
  constructor
  · rintro ⟨hlt, hpos⟩
    exact ⟨hpos, (le_abs_self n).trans_lt hlt⟩
  · rintro ⟨hpos, hlt⟩
    exact ⟨by rwa [abs_of_pos hpos], hpos⟩

/-- A safe integer is one. -/
theorem eq_intCast_of_isPositive {x : ℚ} (h : isPositive x = true) : x = (x.num : ℚ) := by
  have hden : x.den = 1 := by
    have hsafe := (Bool.and_eq_true_iff.mp h).1
    exact eq_of_beq (Bool.and_eq_true_iff.mp hsafe).1
  exact ((Rat.den_eq_one_iff x).mp hden).symm

theorem round_intCast {n : ℤ} (hpos : 0 ≤ n) (hn : n < 2 ^ 53) : FloatFormat.binary64.round (n : ℚ) = n := by
  refine FloatFormat.round_intCast ?_ (by decide)
  rw [abs_of_nonneg hpos]
  exact hn

/-- Half a unit of a quotient by 1000 is less than its distance from the integers. -/
theorem round_thousandth_ne {n : ℤ} (hpos : 0 < n) (hn : n < 2 ^ 52) (hdvd : ¬ 1000 ∣ n) (m : ℤ) :
    FloatFormat.binary64.round ((n : ℚ) / 1000) ≠ m := by
  intro heq
  have hposq : (0 : ℚ) < n := by exact_mod_cast hpos
  have hltq : (n : ℚ) < 2 ^ 52 := by exact_mod_cast hn
  have habs : |(n : ℚ) / 1000| < 2 ^ (43 : ℤ) := by
    rw [abs_of_pos (by positivity), div_lt_iff₀ (by norm_num)]
    norm_num at hltq ⊢
    linarith
  have hunit : FloatFormat.binary64.unit ((n : ℚ) / 1000) ≤ -10 :=
    FloatFormat.unit_le (f := FloatFormat.binary64) habs (by decide) (by positivity)
  have hpow : (2 : ℚ) ^ FloatFormat.binary64.unit ((n : ℚ) / 1000) ≤ 2 ^ (-10 : ℤ) :=
    zpow_le_zpow_right₀ (by norm_num) hunit
  have herror := FloatFormat.abs_round_sub_le FloatFormat.binary64 ((n : ℚ) / 1000)
  rw [heq] at herror
  have hsmall : |(m : ℚ) - n / 1000| ≤ 1 / 2048 := by
    norm_num at hpow
    linarith
  have hscaled : |((1000 * m - n : ℤ) : ℚ)| < 1 := by
    have hsplit : ((1000 * m - n : ℤ) : ℚ) = 1000 * ((m : ℚ) - n / 1000) := by
      push_cast
      ring
    rw [hsplit, abs_mul, abs_of_pos (by norm_num)]
    linarith
  have hzero : 1000 * m - n = 0 := Int.abs_lt_one_iff.mp (by exact_mod_cast hscaled)
  exact hdvd ⟨m, by omega⟩

theorem sampleNanos_of_millis {ms : ℤ} {f : TypeScript.MediaFormat} (h : Millis p ms f) :
    p.sampleNanos = 1000000 * (p.sampleRate * ms) := by
  rw [Packet.sampleNanos, h.ptime]
  ring

/-- The number of bytes is below the bound of the numbers. -/
theorem samples_le_of_millis {ms : ℤ} {f : TypeScript.MediaFormat} (h : Millis p ms f) (hwhole : p.Whole) :
    p.samples * p.channels ≤ p.sampleRate * ms * p.channels := by
  have hnanos := sampleNanos_of_millis h
  have hsamples : p.samples ≤ p.sampleRate * ms := by
    have hpos : 0 < p.sampleNanos := mul_pos hwhole.sampleRate hwhole.ptime
    rw [Packet.samples]
    omega
  exact mul_le_mul_of_nonneg_right hsamples hwhole.channels.le

/-- `mediaFrameBytes` where all its numbers are safe integers. -/
theorem typeScriptSize_eq {ms : ℤ} {f : TypeScript.MediaFormat} (h : Millis p ms f)
    (hbound : p.sampleRate * ms * p.channels * 2 < 2 ^ 53) :
    (¬ p.Whole ∧ typeScriptSize f = none) ∨ (p.Whole ∧ typeScriptSize f = some (p.samples * p.channels * 2)) := by
  have hnanos := sampleNanos_of_millis h
  unfold typeScriptSize mediaFrameBytes
  rw [h.encoding, h.sampleRate, h.channels, h.packetTimeMs, h.bitDepth]
  by_cases hencoding : p.encoding ≠ "L16"
  · rw [if_pos hencoding]
    exact Or.inl ⟨fun hwhole => hencoding hwhole.encoding, rfl⟩
  rw [if_neg hencoding]
  by_cases hpositive : 0 < p.sampleRate ∧ 0 < p.channels ∧ 0 < ms
  swap
  · have hnot : ¬ p.Whole := by
      intro hwhole
      have hptime := hwhole.ptime
      rw [h.ptime] at hptime
      exact hpositive ⟨hwhole.sampleRate, hwhole.channels, by omega⟩
    refine Or.inl ⟨hnot, ?_⟩
    dsimp only
    split
    · rfl
    · next hfind =>
      exfalso
      have hall : ∀ n ∈ [p.sampleRate, p.channels, ms], isPositive (n : ℚ) = true := by
        simpa using List.find?_eq_none.mp hfind
      simp only [isPositive_intCast] at hall
      exact hpositive ⟨(hall p.sampleRate (by simp)).1, (hall p.channels (by simp)).1, (hall ms (by simp)).1⟩
  obtain ⟨hrate, hchannels, hms⟩ := hpositive
  have hproduct : 0 < p.sampleRate * ms := mul_pos hrate hms
  have hsmall : p.sampleRate * ms * 1 ≤ p.sampleRate * ms * p.channels :=
    mul_le_mul_of_nonneg_left (by omega) hproduct.le
  have hrateLt : p.sampleRate * 1 ≤ p.sampleRate * ms := mul_le_mul_of_nonneg_left (by omega) hrate.le
  have hmsLt : 1 * ms ≤ p.sampleRate * ms := mul_le_mul_of_nonneg_right (by omega) hms.le
  have hchannelsLt : 1 * p.channels ≤ p.sampleRate * ms * p.channels :=
    mul_le_mul_of_nonneg_right (by omega) hchannels.le
  have hrate' := (isPositive_intCast p.sampleRate).mpr ⟨hrate, by omega⟩
  have hchannels' := (isPositive_intCast p.channels).mpr ⟨hchannels, by omega⟩
  have hms' := (isPositive_intCast ms).mpr ⟨hms, by omega⟩
  have hfind : [("sample rate", (p.sampleRate : ℚ)), ("channel count", (p.channels : ℚ)), ("packet time", (ms : ℚ))].find?
      (fun number => !isPositive number.2) = none := by
    simp [hrate', hchannels', hms']
  dsimp only
  rw [hfind]
  dsimp only
  by_cases hdepth : p.bitDepth = 16
  swap
  · have hdepth' : (p.bitDepth : ℚ) ≠ 16 := by exact_mod_cast hdepth
    rw [if_pos hdepth']
    exact Or.inl ⟨fun hwhole => hdepth hwhole.bitDepth, rfl⟩
  have hdepth' : ¬ (p.bitDepth : ℚ) ≠ 16 := by simp [hdepth]
  rw [if_neg hdepth', ← Int.cast_mul, round_intCast hproduct.le (by omega)]
  by_cases hthousand : 1000 ∣ p.sampleRate * ms
  swap
  · have hnot : ¬ p.Whole := by
      intro hwhole
      have hdvd := hwhole.whole
      rw [hnanos] at hdvd
      exact hthousand (by omega)
    have hfraction : isPositive (FloatFormat.binary64.round (((p.sampleRate * ms : ℤ) : ℚ) / 1000)) = false := by
      refine Bool.eq_false_iff.mpr fun htrue => ?_
      exact round_thousandth_ne hproduct (by omega) hthousand _ (eq_intCast_of_isPositive htrue)
    rw [hfraction]
    exact Or.inl ⟨hnot, rfl⟩
  have hwhole : p.Whole := by
    refine ⟨not_not.mp hencoding, hdepth, hrate, hchannels, ?_, ?_⟩
    · rw [h.ptime]
      omega
    · rw [hnanos]
      omega
  obtain ⟨samples, hsamples⟩ := hthousand
  have hsamplesEq : p.samples = samples := by
    rw [Packet.samples, hnanos, hsamples]
    omega
  have hquotient : ((p.sampleRate * ms : ℤ) : ℚ) / 1000 = samples := by
    rw [hsamples]
    push_cast
    ring
  have hsamplesPos : 0 < samples := by omega
  have hframe : 1 * samples ≤ 1000 * samples := mul_le_mul_of_nonneg_right (by omega) hsamplesPos.le
  have hframeBound : samples * p.channels * 2 < 2 ^ 53 := by
    have hscaled : samples * p.channels ≤ p.sampleRate * ms * p.channels := by
      rw [hsamples]
      exact mul_le_mul_of_nonneg_right (by omega) hchannels.le
    omega
  have hframePos : 0 < samples * p.channels := mul_pos hsamplesPos hchannels
  rw [hquotient, round_intCast hsamplesPos.le (by omega), (isPositive_intCast samples).mpr ⟨hsamplesPos, by omega⟩]
  have hbytes : FloatFormat.binary64.round (FloatFormat.binary64.round ((samples : ℚ) * p.channels) * 2) =
      ((samples * p.channels * 2 : ℤ) : ℚ) := by
    rw [← Int.cast_mul, round_intCast hframePos.le (by omega)]
    have htwo : ((samples * p.channels : ℤ) : ℚ) * 2 = ((samples * p.channels * 2 : ℤ) : ℚ) := by push_cast; ring
    rw [htwo, round_intCast (by omega) hframeBound]
  rw [if_neg (by simp), hbytes, (isPositive_intCast _).mpr ⟨by omega, hframeBound⟩]
  refine Or.inr ⟨hwhole, ?_⟩
  have hnat : (((samples * p.channels * 2).toNat : ℕ) : ℤ) = samples * p.channels * 2 := Int.toNat_of_nonneg (by omega)
  rw [if_neg (by simp), hsamplesEq]
  show some (((((samples * p.channels * 2 : ℤ) : ℚ).num.toNat : ℕ) : ℤ)) = some (samples * p.channels * 2)
  rw [Rat.num_intCast, hnat]

/-! ## Agreement -/

/-- The size for TypeScript is the size for Rust. -/
theorem rustSize_eq {ms : ℤ} {f : Rust.Audio.MediaFormat} {t : TypeScript.MediaFormat}
    (h : Millis (rustPacket f) ms t)
    (hbound : (rustPacket f).sampleRate * ms * (rustPacket f).channels * 2 < 2 ^ 53) :
    rustSize f = typeScriptSize t := by
  rcases typeScriptSize_eq h hbound with ⟨hnot, hnone⟩ | ⟨hwhole, hsome⟩
  · rw [hnone]
    rcases frame_bytes_spec f with ⟨-, err, herr⟩ | ⟨haccepted, -⟩
    · rw [rustSize, herr]
      rfl
    · exact absurd (not_rustRefused_iff.1 haccepted).1 hnot
  · rw [hsome]
    rcases frame_bytes_spec f with ⟨hrefused, -⟩ | ⟨-, n, hok, hn⟩
    · have hsamples := samples_le_of_millis h hwhole
      have hlimit : ¬ (rustPacket f).Exceeds (2 ^ 64 - 1) := by
        rw [not_exceeds_iff hwhole]
        omega
      exact absurd hrefused (not_rustRefused_iff.2 ⟨hwhole, hlimit⟩)
    · rw [rustSize, hok, ← hn]
      rfl

/-- The size for TypeScript is the size for Go, unless the nanosecond samples are too many for Go. -/
theorem goSize_eq {ms : ℤ} {f : Go.Media.MediaFormat} {t : TypeScript.MediaFormat} (h : Millis (goPacket f) ms t)
    (hbound : (goPacket f).sampleRate * ms * (goPacket f).channels * 2 < 2 ^ 53) :
    goSize f = if (goPacket f).sampleNanos ≤ 2 ^ 63 - 1 then typeScriptSize t else none := by
  rcases typeScriptSize_eq h hbound with ⟨hnot, hnone⟩ | ⟨hwhole, hsome⟩
  · rw [hnone, ite_self]
    rcases FrameBytes_spec f with ⟨-, err, herr⟩ | ⟨haccepted, -⟩
    · rw [goSize, herr]
      rfl
    · exact absurd (not_goRefused_iff.1 haccepted).1 hnot
  · rcases FrameBytes_spec f with ⟨hrefused, err, herr⟩ | ⟨haccepted, n, hok, hn⟩
    · have hsamples := samples_le_of_millis h hwhole
      have hpos : 0 < (goPacket f).samples * (goPacket f).channels := mul_pos (samples_pos hwhole) hwhole.channels
      have hlimit : ¬ (goPacket f).Exceeds (2 ^ 63 - 1) := by
        rw [not_exceeds_iff hwhole]
        omega
      have hnanos : ¬ (goPacket f).sampleNanos ≤ 2 ^ 63 - 1 := by
        intro hle
        exact not_goRefused_iff.2 ⟨hwhole, hle, by omega, hlimit⟩ hrefused
      rw [if_neg hnanos, goSize, herr]
      rfl
    · rw [if_pos (not_goRefused_iff.1 haccepted).2.1, hsome, goSize, hok, ← hn]
      rfl

/-- The sizes are exact and refused for the reasons that are listed, and the three SDKs agree on packets of whole
milliseconds, except for the nanosecond samples that Go cannot count. -/
theorem frame_sizes :
    (∀ f : Go.Media.MediaFormat,
      (∀ n, f.FrameBytes = .ok n → (n.toInt : ℚ) = (goPacket f).bytes ∧ GoExact f) ∧
        ((∃ err, f.FrameBytes = .error err) ↔ GoRefused (goPacket f))) ∧
    (∀ f : Rust.Audio.MediaFormat,
      (∀ n : ℕ, f.frameBytes = .ok n → (n : ℚ) = (rustPacket f).bytes ∧ RustExact f) ∧
        ((∃ err, f.frameBytes = .error err) ↔ RustRefused (rustPacket f))) ∧
    (∀ (f : Rust.Audio.MediaFormat) (ms : ℤ) (t : TypeScript.MediaFormat), Millis (rustPacket f) ms t →
      (rustPacket f).sampleRate * ms * (rustPacket f).channels * 2 < 2 ^ 53 → rustSize f = typeScriptSize t) ∧
    (∀ (f : Go.Media.MediaFormat) (ms : ℤ) (t : TypeScript.MediaFormat), Millis (goPacket f) ms t →
      (goPacket f).sampleRate * ms * (goPacket f).channels * 2 < 2 ^ 53 →
      goSize f = if (goPacket f).sampleNanos ≤ 2 ^ 63 - 1 then typeScriptSize t else none) := by
  refine ⟨fun f => ⟨?_, FrameBytes_error_iff f⟩, fun f => ⟨?_, frame_bytes_error_iff f⟩,
    fun f ms t => rustSize_eq, fun f ms t => goSize_eq⟩
  · intro n hok
    rcases FrameBytes_spec f with ⟨-, err, herr⟩ | ⟨haccepted, m, hm, hbytes⟩
    · rw [herr] at hok
      cases hok
    · obtain rfl : m = n := Except.ok.inj (hm.symm.trans hok)
      rw [bytes_eq (not_goRefused_iff.1 haccepted).1.whole, hbytes]
      exact ⟨rfl, goExact_of_not_refused haccepted⟩
  · intro n hok
    rcases frame_bytes_spec f with ⟨-, err, herr⟩ | ⟨haccepted, m, hm, hbytes⟩
    · rw [herr] at hok
      cases hok
    · obtain rfl : m = n := Except.ok.inj (hm.symm.trans hok)
      rw [bytes_eq (not_rustRefused_iff.1 haccepted).1.whole, ← hbytes]
      exact ⟨rfl, rustExact_of_not_refused haccepted⟩

/-! ## A packet of two days -/

def longPacket : Go.Media.MediaFormat where
  Encoding := "L16"
  SampleRate := 48000
  BitDepth := 16
  Channels := 1
  PTime := 200000000000000

def longPacketMs : TypeScript.MediaFormat where
  encoding := "L16"
  sampleRate := 48000
  bitDepth := 16
  channels := 1
  packetTimeMs := 200000000

theorem longPacket_millis : Millis (goPacket longPacket) 200000000 longPacketMs := by
  constructor <;> decide

theorem longPacket_whole : (goPacket longPacket).Whole := by
  constructor <;> decide

/-- TypeScript takes the packet, and Go does not. -/
theorem longPacket_refused :
    ¬ ∀ (f : Go.Media.MediaFormat) (ms : ℤ) (t : TypeScript.MediaFormat), Millis (goPacket f) ms t →
      (goPacket f).sampleRate * ms * (goPacket f).channels * 2 < 2 ^ 53 → goSize f = typeScriptSize t := by
  intro hagree
  have hbound : (goPacket longPacket).sampleRate * 200000000 * (goPacket longPacket).channels * 2 < 2 ^ 53 := by
    decide
  have hgo : goSize longPacket = none := by decide
  have heq := hagree longPacket 200000000 longPacketMs longPacket_millis hbound
  rcases typeScriptSize_eq longPacket_millis hbound with ⟨hnot, -⟩ | ⟨-, hsome⟩
  · exact hnot longPacket_whole
  · rw [hgo, hsome] at heq
    cases heq

/-! ## A packet of 20 ms -/

def telephony : Rust.Audio.MediaFormat where
  encoding := "L16"
  sampleRate := 8000
  bitDepth := 16
  channels := 1
  ptime := 20000000

def telephonyMs : TypeScript.MediaFormat where
  encoding := "L16"
  sampleRate := 8000
  bitDepth := 16
  channels := 1
  packetTimeMs := 20

theorem telephony_agrees : rustSize telephony = some 320 ∧ typeScriptSize telephonyMs = some 320 := by
  have hrust : rustSize telephony = some 320 := by decide
  have hagree := frame_sizes.2.2.1 telephony 20 telephonyMs (by constructor <;> decide) (by decide)
  exact ⟨hrust, by rw [← hagree, hrust]⟩

end Rtvbp.Media
