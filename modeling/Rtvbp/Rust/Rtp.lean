import Mathlib.Tactic
import Rtvbp.Lib.Words

/-! # RTP audio in Rust -/

/-!
## The PCMU codec of Rust

`encode_pcmu`, `decode_pcmu`, `linear_to_mu_law` and `mu_law_to_linear` of `sdk/rust/src/transport/webrtcws/codec.rs`.
-/

namespace Rtvbp.Rust.Pcmu

open Rtvbp.Lib

/-- `BIAS`. -/
def bias : BitVec 32 := 0x84

/-- `CLIP`. -/
def clip : BitVec 32 := 32635

/-- `min` of `i32`. -/
def minI32 (a b : BitVec 32) : BitVec 32 := if b.slt a then b else a

/-- `value` before the search of the exponent. -/
def biasedValue (sample : BitVec 16) : BitVec 32 :=
  let value := sample.signExtend 32
  let value := if value.slt 0 then -value else value
  minI32 value clip + bias

/-- `u8::try_from` of `i32`. -/
def tryU8 (value : BitVec 32) : Option UInt8 :=
  if 0 ≤ value.toInt ∧ value.toInt < 2 ^ 8 then some (UInt8.ofBitVec (value.setWidth 8)) else none

/-- `linear_to_mu_law`. -/
def linearToMuLaw (sample : BitVec 16) : UInt8 :=
  let sign : UInt8 := if (sample.signExtend 32).slt 0 then 0x80 else 0
  let value := biasedValue sample
  let exponent := highestBit value 7 0x4000
  let mantissa := (tryU8 (value.sshiftRight (exponent + 3) &&& 0x0f)).getD 0
  ~~~ (sign ||| (UInt8.ofNat exponent <<< 4) ||| mantissa)

/-- `linear` of `mu_law_to_linear`. -/
def muLawToInt (encoded : UInt8) : BitVec 32 :=
  let value := ~~~ encoded
  let magnitude := ((value &&& 0x0f).toBitVec.setWidth 32 <<< 3) + bias
  let magnitude := magnitude <<< ((value &&& 0x70) >>> 4).toNat
  if value &&& 0x80 ≠ 0 then bias - magnitude else magnitude - bias

/-- `i16::try_from` of `i32`. -/
def tryI16 (value : BitVec 32) : Option (BitVec 16) :=
  if -2 ^ 15 ≤ value.toInt ∧ value.toInt < 2 ^ 15 then some (value.setWidth 16) else none

/-- `mu_law_to_linear`. -/
def muLawToLinear (encoded : UInt8) : BitVec 16 :=
  let linear := muLawToInt encoded
  (tryI16 linear).getD (if linear.slt 0 then BitVec.intMin 16 else BitVec.intMax 16)

/-- `from_le_bytes`. -/
def fromLeBytes (low high : UInt8) : BitVec 16 := high.toBitVec ++ low.toBitVec

/-- `to_le_bytes`. -/
def toLeBytes (v : BitVec 16) : List UInt8 := [UInt8.ofBitVec (v.extractLsb' 0 8), UInt8.ofBitVec (v.extractLsb' 8 8)]

/-- `encode_pcmu`, over the chunks of two bytes. -/
def encodePcmu : List UInt8 → List UInt8
  | low :: high :: rest => linearToMuLaw (fromLeBytes low high) :: encodePcmu rest
  | _ => []

/-- `decode_pcmu`. -/
def decodePcmu (encoded : List UInt8) : List UInt8 := encoded.flatMap fun sample => toLeBytes (muLawToLinear sample)

end Rtvbp.Rust.Pcmu

/-!
## Receiving RTP audio in Rust

`WebRtcMedia::receive` of `sdk/rust/src/transport/webrtcws/media.rs`, up to where a frame is pushed to the inbox. The
track is the sequence of what `read_rtp` returns, with its kind and the capability of its codec, and nobody else closes
the channel.
-/

namespace Rtvbp.Rust.Rtp

/-- What the loop reads of a packet. -/
structure Packet where
  payloadType : UInt8
  timestamp : BitVec 32
  payload : List UInt8

/-- `RTCRtpCodecCapability`. -/
structure Capability where
  mimeType : String
  clockRate : Nat
  channels : Nat

structure Track where
  isAudio : Bool
  capability : Capability

/-- `MediaFrame`; a `Duration` is a number of nanoseconds. -/
structure MediaFrame where
  data : List UInt8
  pts : Option Nat

/-- `PCMU_CLOCK_RATE`. -/
def pcmuClockRate : Nat := 8000

/-- `eq_ignore_ascii_case`. -/
def eqIgnoreAsciiCase (a b : String) : Bool := a.toList.map Char.toLower == b.toList.map Char.toLower

/-- The codec is not the expected one. -/
def Track.unexpected (track : Track) (packet : Packet) : Bool :=
  packet.payloadType != 0 ||
    (track.capability.mimeType != "" &&
      (!eqIgnoreAsciiCase track.capability.mimeType "audio/PCMU" || track.capability.clockRate != pcmuClockRate ||
        track.capability.channels != 1))

/-- The message for an unexpected codec. -/
def Track.unexpectedMessage (track : Track) (packet : Packet) : String :=
  s!"unexpected WebRTC codec payload={packet.payloadType.toNat} {track.capability.mimeType}/{track.capability.clockRate}"

/-- The variables of `receive`. -/
structure Receiver where
  firstTimestamp : Option (BitVec 32)
  codecChecked : Bool

def Receiver.new : Receiver where
  firstTimestamp := none
  codecChecked := false

/-- `saturating_mul` of `u64`. -/
def saturatingMul (a b : Nat) : Nat := min (a * b) (2 ^ 64 - 1)

/-- The frame for a packet after the first one. -/
def frame (first : BitVec 32) (packet : Packet) : MediaFrame :=
  let ticks := packet.timestamp - first
  let nanos := saturatingMul ticks.toNat 1000000000 / pcmuClockRate
  { data := Pcmu.decodePcmu packet.payload, pts := some nanos }

/-- The loop of `receive`: the frames, and the message that the channel fails with. -/
def receiveFrom (track : Track) (r : Receiver) : List (Except String Packet) → List MediaFrame × Option String
  | [] => ([], none)
  | .error err :: _ => ([], some s!"read WebRTC RTP audio: {err}")
  | .ok packet :: reads =>
    if !r.codecChecked && track.unexpected packet then ([], some (track.unexpectedMessage packet))
    else
      let first := r.firstTimestamp.getD packet.timestamp
      let rest := receiveFrom track { firstTimestamp := some first, codecChecked := true } reads
      (frame first packet :: rest.1, rest.2)

/-- `receive`. -/
def receive (track : Track) (reads : List (Except String Packet)) : List MediaFrame × Option String :=
  if !track.isAudio then ([], some "unexpected non-audio WebRTC track") else receiveFrom track .new reads

end Rtvbp.Rust.Rtp
