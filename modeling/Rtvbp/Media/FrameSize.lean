import Rtvbp.Go.Media
import Rtvbp.Lib.Rounding
import Rtvbp.Rust.Session.Audio
import Rtvbp.TypeScript.MediaFormat

/-!
# The size of an audio frame in the three SDKs

`FrameBytes` of `sdk/go/media_format.go`, `frame_bytes` of `sdk/rust/src/transport/mod.rs` and `mediaFrameBytes` of
`sdk/typescript/src/transport.ts` compute one number. `Packet` is what a format says in all of them, as exact integers;
the packetization time is in nanoseconds.
-/

namespace Rtvbp.Media

open Rtvbp.Lib

/-- A media format with the packetization time in nanoseconds. -/
structure Packet where
  encoding : String
  sampleRate : ℤ
  bitDepth : ℤ
  channels : ℤ
  ptime : ℤ

namespace Packet

/-- Nanosecond samples: the sample rate times the packetization time. -/
def sampleNanos (p : Packet) : ℤ := p.sampleRate * p.ptime

/-- The samples of one channel. -/
def samples (p : Packet) : ℤ := p.sampleNanos / 1000000000

/-- The number of bytes of one packet. -/
def bytes (p : Packet) : ℚ := p.sampleRate * p.channels * 2 * p.ptime / 10 ^ 9

/-- The number of bytes is beyond a limit. -/
def Exceeds (p : Packet) (limit : ℤ) : Prop := limit < p.bytes

/-- L16 in 16 bits, with numbers that are positive and a whole number of samples. -/
structure Whole (p : Packet) : Prop where
  encoding : p.encoding = "L16"
  bitDepth : p.bitDepth = 16
  sampleRate : 0 < p.sampleRate
  channels : 0 < p.channels
  ptime : 0 < p.ptime
  whole : 1000000000 ∣ p.sampleNanos

end Packet

/-! ## Go -/

/-- What a format of the Go SDK says. -/
def goPacket (f : Go.Media.MediaFormat) : Packet where
  encoding := f.Encoding
  sampleRate := f.SampleRate.toInt
  bitDepth := f.BitDepth.toInt
  channels := f.Channels.toInt
  ptime := f.PTime.toInt

/-- `FrameBytes` as a number, if it succeeds. -/
def goSize (f : Go.Media.MediaFormat) : Option ℤ := f.FrameBytes.toOption.map Int64.toInt

/-- The products of `FrameBytes` do not wrap around. -/
structure GoExact (f : Go.Media.MediaFormat) : Prop where
  sampleNanos : (f.SampleRate * f.PTime).toInt = f.SampleRate.toInt * f.PTime.toInt
  frameSamples : (f.SampleRate * f.PTime / 1000000000 * f.Channels).toInt = (goPacket f).samples * f.Channels.toInt
  frameBytes : (f.SampleRate * f.PTime / 1000000000 * f.Channels * (f.BitDepth / 8)).toInt =
    (goPacket f).samples * f.Channels.toInt * 2

/-- The reasons for which Go refuses a format. -/
def GoRefused (p : Packet) : Prop :=
  p.encoding ≠ "L16" ∨ p.bitDepth ≠ 16 ∨ p.sampleRate ≤ 0 ∨ p.channels ≤ 0 ∨ p.ptime ≤ 0 ∨
    ¬ 1000000000 ∣ p.sampleNanos ∨ 2 ^ 63 - 1 < p.sampleNanos ∨ 2 ^ 63 - 1 < p.samples * p.channels ∨
    p.Exceeds (2 ^ 63 - 1)

/-! ## Rust -/

/-- What a format of the Rust SDK says. -/
def rustPacket (f : Rust.Audio.MediaFormat) : Packet where
  encoding := f.encoding
  sampleRate := f.sampleRate.toNat
  bitDepth := f.bitDepth.toNat
  channels := f.channels.toNat
  ptime := f.ptime

/-- `frame_bytes` as a number, if it succeeds. -/
def rustSize (f : Rust.Audio.MediaFormat) : Option ℤ := f.frameBytes.toOption.map Int.ofNat

/-- The products of `frame_bytes` fit into 128 bits. -/
structure RustExact (f : Rust.Audio.MediaFormat) : Prop where
  sampleNanos : f.sampleRate.toNat * f.ptime < 2 ^ 128
  frameSamples : f.sampleRate.toNat * f.ptime / 1000000000 * f.channels.toNat < 2 ^ 128
  frameBytes : f.sampleRate.toNat * f.ptime / 1000000000 * f.channels.toNat * 2 < 2 ^ 128

/-- The reasons for which Rust refuses a format. -/
def RustRefused (p : Packet) : Prop :=
  p.encoding ≠ "L16" ∨ p.bitDepth ≠ 16 ∨ p.sampleRate ≤ 0 ∨ p.channels ≤ 0 ∨ p.ptime ≤ 0 ∨
    ¬ 1000000000 ∣ p.sampleNanos ∨ p.Exceeds (2 ^ 64 - 1)

/-! ## TypeScript -/

/-- `mediaFrameBytes` in double precision, if it succeeds. -/
def typeScriptSize (f : TypeScript.MediaFormat) : Option ℤ :=
  (TypeScript.mediaFrameBytes FloatFormat.binary64.round f).toOption.map Int.ofNat

/-- The format says the same, with a packet time of whole milliseconds. -/
structure Millis (p : Packet) (ms : ℤ) (f : TypeScript.MediaFormat) : Prop where
  encoding : f.encoding = p.encoding
  sampleRate : f.sampleRate = p.sampleRate
  bitDepth : f.bitDepth = p.bitDepth
  channels : f.channels = p.channels
  packetTimeMs : f.packetTimeMs = ms
  ptime : p.ptime = 1000000 * ms

end Rtvbp.Media
