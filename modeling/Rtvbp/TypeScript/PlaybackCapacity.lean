import Rtvbp.TypeScript.MediaFormat
import Rtvbp.TypeScript.Proofs.ResamplerProofs
import Rtvbp.TypeScript.Resampler

/-!
# Frames and the playback capacity

The way of a frame through `#playAudio` of `BrowserAudioDevice` in `sdk/typescript/src/browser_audio.ts` up to
`#waitForPlaybackCapacity`: `l16ToFloat`, the playback resampler and the condition of the wait, over exact rational
numbers.
-/

namespace Rtvbp.TypeScript.PlaybackCapacity

open Rtvbp.TypeScript.WebSocket (Thrown)
open Rtvbp.TypeScript.Resampler (Rates)

/-! ## The device -/

/-- `profileMediaFormat(PROFILE_RTVBP_V1, "audio")`. -/
def format : MediaFormat where
  encoding := "L16"
  sampleRate := 8000
  bitDepth := 16
  channels := 1
  packetTimeMs := 20

/-- The rate of the `AudioContext`, and `playbackBufferMs`, which the constructor asks to be at least 20. -/
structure Device where
  sampleRate : ℚ
  sampleRate_pos : 0 < sampleRate
  capacityMs : Nat
  capacityMs_ge : 20 ≤ capacityMs

/-- The playback resampler. -/
def Device.rates (d : Device) : Rates where
  input := format.sampleRate
  output := d.sampleRate
  input_pos := by decide
  output_pos := d.sampleRate_pos

/-- `Math.ceil(context.sampleRate * this.#capacityMs / 1000)`. -/
def Device.capacity (d : Device) : Int := ⌈d.sampleRate * d.capacityMs / 1000⌉

/-- The condition of the loop in `#waitForPlaybackCapacity`. -/
def Device.Waits (d : Device) (bufferedDeviceSamples nextSamples : Nat) : Prop :=
  d.capacity < bufferedDeviceSamples + nextSamples

/-! ## The frames -/

/-- The number of bytes that `#playAudio` asks for. -/
def frameBytes : Nat := (format.sampleRate * format.packetTimeMs / 1000 * 2).num.toNat

/-- The bytes of 20 ms. -/
structure Frame where
  bytes : List UInt8
  length_eq : bytes.length = frameBytes

/-- `getInt16` of two bytes with the low one first. -/
def getInt16 (low high : UInt8) : Int :=
  let value := low.toNat + 256 * high.toNat
  if value < 2 ^ 15 then value else value - 2 ^ 16

/-- The loop of `l16ToFloat`. -/
def samplesOf : List UInt8 → List ℚ
  | low :: high :: rest =>
    let value := getInt16 low high
    (if value < 0 then (value : ℚ) / 32768 else (value : ℚ) / 32767) :: samplesOf rest
  | _ => []

/-- `l16ToFloat`. -/
def l16ToFloat (bytes : List UInt8) : Except Thrown (List ℚ) :=
  if bytes.length % 2 ≠ 0 then .error (.session "media_frame" "L16 audio has an odd byte length")
  else .ok (samplesOf bytes)

/-! ## The loop -/

/-- One round of `#playAudio`: the resampler after it, and the samples that it waits with for capacity, if it gets
there. A frame is stale if the playback was cleared while the loop was reading. -/
def round (d : Device) (s : Resampler.State) (stale : Bool) (bytes : List UInt8) :
    Except Thrown (Resampler.State × Option (List ℚ)) :=
  if stale then .ok (s, none)
  else do
    let samples ← l16ToFloat bytes
    let converted := Resampler.process d.rates s samples
    .ok (converted.1, if converted.2 = [] then none else some converted.2)

/-- The rounds of `#playAudio`: the chunks that it waits with for capacity, and the resampler at the end. -/
def rounds (d : Device) (s : Resampler.State) : List (Bool × Frame) → Except Thrown (Resampler.State × List (List ℚ))
  | [] => .ok (s, [])
  | (stale, frame) :: reads => do
    let first ← round d s stale frame.bytes
    let rest ← rounds d first.1 reads
    .ok (rest.1, first.2.toList ++ rest.2)

end Rtvbp.TypeScript.PlaybackCapacity

/-!
## Every frame fits into the playback capacity

Between two output positions there is one step, so that `m` samples complete no more positions than there are steps
in `m`, rounded up; this holds wherever the samples before them have left the next position.
-/

namespace Rtvbp.TypeScript.Resampler

variable {r : Rates} {x input : List ℚ}

/-- The positions that `m` further samples complete. -/
theorem count_add_le (r : Rates) (n m : Nat) : count r (n + m) ≤ count r n + ⌈(m : ℚ) / r.step⌉₊ := by
  by_contra hlt
  have hlast : ((count r n + ⌈(m : ℚ) / r.step⌉₊ : Nat) : ℚ) * r.step ≤ ((n + m : Nat) : ℚ) - 1 :=
    (lt_count_iff r).mp (not_le.mp hlt)
  have hbefore : (n : ℚ) - 1 < count r n * r.step := lt_of_count_le le_rfl
  have hsteps : (m : ℚ) ≤ ⌈(m : ℚ) / r.step⌉₊ * r.step := (div_le_iff₀ r.step_pos).mp (Nat.le_ceil _)
  push_cast at hlast
  rw [add_mul] at hlast
  linarith

/-- The number of values that a chunk yields, after any samples. -/
theorem length_process_le (r : Rates) (x input : List ℚ) :
    (process r (stateAfter r x) input).2.length ≤ ⌈(input.length : ℚ) / r.step⌉₊ := by
  have hcount := count_add_le r x.length input.length
  rw [process_stateAfter, List.length_map, List.length_range', List.length_append]
  omega

end Rtvbp.TypeScript.Resampler

namespace Rtvbp.TypeScript.PlaybackCapacity

open Rtvbp.TypeScript.WebSocket (Thrown)
open Rtvbp.TypeScript.Resampler (Rates stateAfter)

variable {d : Device}

/-! ## One frame -/

theorem frameBytes_eq : frameBytes = 320 := by decide +kernel

theorem length_samplesOf (n : Nat) (bytes : List UInt8) (h : bytes.length = 2 * n) : (samplesOf bytes).length = n := by
  induction n generalizing bytes with
  | zero =>
    obtain rfl : bytes = [] := List.length_eq_zero_iff.mp h
    rfl
  | succ n ih =>
    obtain ⟨low, high, rest, rfl⟩ : ∃ low high rest, bytes = low :: high :: rest := by
      match bytes, h with
      | low :: high :: rest, _ => exact ⟨low, high, rest, rfl⟩
    have hrest : rest.length = 2 * n := by
      simp only [List.length_cons] at h
      omega
    rw [samplesOf, List.length_cons, ih rest hrest]

/-- A frame is converted to 160 samples. -/
theorem l16ToFloat_frame (frame : Frame) :
    ∃ samples, l16ToFloat frame.bytes = .ok samples ∧ samples.length = 160 := by
  have hlength : frame.bytes.length = 2 * 160 := by rw [frame.length_eq, frameBytes_eq]
  have heven : ¬ frame.bytes.length % 2 ≠ 0 := by omega
  exact ⟨samplesOf frame.bytes, by rw [l16ToFloat, if_neg heven], length_samplesOf 160 frame.bytes hlength⟩

/-- The duration of a frame is no longer than that of the buffer. -/
theorem ceil_frame_le (d : Device) : (⌈((160 : Nat) : ℚ) / d.rates.step⌉₊ : Int) ≤ d.capacity := by
  have hpos := d.sampleRate_pos
  have hms : (20 : ℚ) ≤ d.capacityMs := by exact_mod_cast d.capacityMs_ge
  have hstep : d.rates.step = 8000 / d.sampleRate := rfl
  have hle : ((160 : Nat) : ℚ) / d.rates.step ≤ d.sampleRate * d.capacityMs / 1000 := by
    rw [hstep, div_div_eq_mul_div, div_le_div_iff₀ (by norm_num) (by norm_num)]
    push_cast
    nlinarith only [hpos, hms]
  have hnonneg : (0 : ℚ) ≤ ((160 : Nat) : ℚ) / d.rates.step := div_nonneg (Nat.cast_nonneg 160) d.rates.step_pos.le
  rw [Int.natCast_ceil_eq_ceil hnonneg]
  exact Int.ceil_le_ceil hle

/-- One round, in a state that some samples have left, waits with a chunk that fits. -/
theorem round_spec (stale : Bool) (frame : Frame) (x : List ℚ) :
    ∃ y chunk, round d (stateAfter d.rates x) stale frame.bytes = .ok (stateAfter d.rates y, chunk) ∧
      ∀ values ∈ chunk, (values.length : Int) ≤ d.capacity := by
  by_cases hstale : stale = true
  · exact ⟨x, none, by rw [round, if_pos hstale], by simp⟩
  · obtain ⟨samples, hsamples, hlength⟩ := l16ToFloat_frame frame
    obtain ⟨converted, hconverted⟩ : ∃ converted, Resampler.process d.rates (stateAfter d.rates x) samples =
        (stateAfter d.rates (x ++ samples), converted) := ⟨_, Resampler.process_stateAfter⟩
    have hfits : (converted.length : Int) ≤ d.capacity := by
      have hle : converted.length ≤ ⌈((160 : Nat) : ℚ) / d.rates.step⌉₊ := by
        rw [← hlength]
        simpa [hconverted] using Resampler.length_process_le d.rates x samples
      have hcapacity := ceil_frame_le d
      omega
    refine ⟨x ++ samples, if converted = [] then none else some converted, ?_, ?_⟩
    · rw [round, if_neg hstale, hsamples]
      show Except.ok (_, _) = Except.ok (_, _)
      rw [hconverted]
    · intro values hvalues
      obtain ⟨-, heq⟩ := Option.ite_none_left_eq_some.mp hvalues
      cases heq
      exact hfits

/-! ## All frames -/

/-- The rounds after some samples. -/
theorem rounds_spec (reads : List (Bool × Frame)) (x : List ℚ) :
    ∃ s chunks, rounds d (stateAfter d.rates x) reads = .ok (s, chunks) ∧
      ∀ values ∈ chunks, (values.length : Int) ≤ d.capacity := by
  induction reads generalizing x with
  | nil => exact ⟨_, [], rfl, by simp⟩
  | cons read reads ih =>
    obtain ⟨stale, frame⟩ := read
    obtain ⟨y, chunk, hround, hchunk⟩ := round_spec (d := d) stale frame x
    obtain ⟨s, chunks, hrounds, hchunks⟩ := ih y
    refine ⟨s, chunk.toList ++ chunks, ?_, ?_⟩
    · rw [rounds, hround]
      show (rounds d (stateAfter d.rates y) reads).bind _ = _
      rw [hrounds]
      rfl
    · intro values hvalues
      obtain hfirst | hlater := List.mem_append.mp hvalues
      · exact hchunk values (Option.mem_toList.mp hfirst)
      · exact hchunks values hlater

/-- For every device and every sequence of frames, stale ones among them, each chunk that the playback loop waits with
is no longer than the capacity, so that the loop does not wait when nothing is buffered. -/
theorem playback_fits (d : Device) (reads : List (Bool × Frame)) :
    ∃ s chunks, rounds d Resampler.fresh reads = .ok (s, chunks) ∧
      ∀ values ∈ chunks, (values.length : Int) ≤ d.capacity ∧ ¬ d.Waits 0 values.length := by
  have hfresh : Resampler.fresh = stateAfter d.rates [] := by
    simp [Resampler.fresh, stateAfter, Resampler.count]
  obtain ⟨s, chunks, hrounds, hchunks⟩ := rounds_spec (d := d) reads []
  refine ⟨s, chunks, by rw [hfresh, hrounds], fun values hvalues => ⟨hchunks values hvalues, ?_⟩⟩
  have hfits := hchunks values hvalues
  rw [Device.Waits]
  push_cast
  omega

end Rtvbp.TypeScript.PlaybackCapacity
