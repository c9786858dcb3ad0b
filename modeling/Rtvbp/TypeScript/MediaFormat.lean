import Rtvbp.TypeScript.WebSocket
import Mathlib.Algebra.Order.Ring.Rat

/-!
# Media formats

`MediaFormat` and `mediaFrameBytes` of `sdk/typescript/src/transport.ts`. The numbers are rational, and the results
of their arithmetic are rounded by a function that is not fixed here; `NaN` and the infinities are refused as any
other number that is no safe integer.
-/

namespace Rtvbp.TypeScript

open Rtvbp.TypeScript.WebSocket (Thrown)

/-- `MediaFormat`. -/
structure MediaFormat where
  encoding : String
  sampleRate : ℚ
  bitDepth : ℚ
  channels : ℚ
  packetTimeMs : ℚ
  deriving DecidableEq

/-- `Number.isSafeInteger`. -/
def isSafeInteger (value : ℚ) : Bool := value.den == 1 && decide (|value| < 2 ^ 53)

/-- A positive safe integer. -/
def isPositive (value : ℚ) : Bool := isSafeInteger value && decide (0 < value)

/-- `mediaFrameBytes`. -/
def mediaFrameBytes (round : ℚ → ℚ) (f : MediaFormat) : Except Thrown Nat :=
  if f.encoding ≠ "L16" then .error (.session "media_format" "encoding must be L16")
  else
    let numbers := [("sample rate", f.sampleRate), ("channel count", f.channels), ("packet time", f.packetTimeMs)]
    match numbers.find? fun number => !isPositive number.2 with
    | some (name, _) => .error (.session "media_format" s!"{name} must be a positive safe integer")
    | none =>
      if f.bitDepth ≠ 16 then .error (.session "media_format" "L16 bit depth must be 16")
      else
        let samples := round (round (f.sampleRate * f.packetTimeMs) / 1000)
        if !isPositive samples then
          .error (.session "media_format" "packet time must contain a whole sample count")
        else
          let bytes := round (round (samples * f.channels) * 2)
          if !isPositive bytes then .error (.session "media_format" "frame byte count is out of range")
          else .ok bytes.num.toNat

/-- A frame has at least one byte. -/
theorem mediaFrameBytes_pos {round : ℚ → ℚ} {f : MediaFormat} {bytes : Nat}
    (h : mediaFrameBytes round f = .ok bytes) : 0 < bytes := by
  unfold mediaFrameBytes at h
  split at h
  · cases h
  dsimp only at h
  split at h
  · cases h
  split at h
  · cases h
  split at h
  · cases h
  split at h
  · cases h
  · next hbytes =>
    obtain rfl := Except.ok.inj h
    have hpos : isPositive (round (round (round (round (f.sampleRate * f.packetTimeMs) / 1000) * f.channels) * 2)) =
        true := by simpa using hbytes
    have hnum := Rat.num_pos.mpr (of_decide_eq_true (Bool.and_eq_true_iff.mp hpos).2)
    omega

end Rtvbp.TypeScript
