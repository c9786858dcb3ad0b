import Mathlib.Tactic
import Rtvbp.Lib.Words

/-! # RTP audio in Go -/

/-!
## The PCMU codec of Go

`encodePCMU`, `decodePCMU`, `linearToMuLaw` and `muLawToLinear` of `sdk/go/transport/webrtcws/codec.go`. An `int` has
64 bits.
-/

namespace Rtvbp.Go.Pcmu

open Rtvbp.Lib

def muLawBias : BitVec 64 := 0x84

def muLawClip : BitVec 64 := 32635

/-- `value` before the search of the exponent. -/
def biasedValue (sample : BitVec 16) : BitVec 64 :=
  let value := sample.signExtend 64
  let value := if value.slt 0 then -value else value
  let value := if muLawClip.slt value then muLawClip else value
  value + muLawBias

/-- `linearToMuLaw`. -/
def linearToMuLaw (sample : BitVec 16) : UInt8 :=
  let sign : BitVec 64 := if (sample.signExtend 64).slt 0 then 0x80 else 0
  let value := biasedValue sample
  let exponent := highestBit value 7 0x4000
  let mantissa := value.sshiftRight (exponent + 3) &&& 0x0f
  ~~~ UInt8.ofBitVec ((sign ||| BitVec.ofNat 64 exponent <<< 4 ||| mantissa).setWidth 8)

/-- The `int` that `muLawToLinear` converts to 16 bits. -/
def muLawToInt (encoded : UInt8) : BitVec 64 :=
  let value := ~~~ encoded
  let magnitude := ((value &&& 0x0f).toBitVec.setWidth 64 <<< 3) + muLawBias
  let magnitude := magnitude <<< ((value &&& 0x70) >>> 4).toNat
  if value &&& 0x80 ≠ 0 then muLawBias - magnitude else magnitude - muLawBias

/-- `muLawToLinear`. -/
def muLawToLinear (encoded : UInt8) : BitVec 16 := (muLawToInt encoded).setWidth 16

/-- `binary.LittleEndian.Uint16` of the bytes from an index. -/
def uint16 (pcm : List UInt8) (index : Nat) : BitVec 16 :=
  (pcm[index]?.getD 0).toBitVec.setWidth 16 ||| (pcm[index + 1]?.getD 0).toBitVec.setWidth 16 <<< 8

/-- `binary.LittleEndian.PutUint16`. -/
def putUint16 (v : BitVec 16) : List UInt8 := [UInt8.ofBitVec (v.setWidth 8), UInt8.ofBitVec ((v >>> 8).setWidth 8)]

/-- `encodePCMU`. -/
def encodePCMU (pcm : List UInt8) : List UInt8 :=
  (List.range (pcm.length / 2)).map fun index => linearToMuLaw (uint16 pcm (index * 2))

/-- `decodePCMU`. -/
def decodePCMU (encoded : List UInt8) : List UInt8 := encoded.flatMap fun value => putUint16 (muLawToLinear value)

end Rtvbp.Go.Pcmu

/-!
## Receiving RTP audio in Go

`mediaChannel.receive` of `sdk/go/transport/webrtcws/media.go`, up to where a frame is handed to the inbound channel.
The track is the sequence of what `ReadRTP` returns.
-/

namespace Rtvbp.Go.Rtp

/-- What the loop reads of an `rtp.Packet`. -/
structure Packet where
  Timestamp : BitVec 32
  Payload : List UInt8

/-- `rtvbp.MediaFrame`; a `time.Duration` is a number of nanoseconds. -/
structure MediaFrame where
  Data : List UInt8
  PTS : Int64
  Timed : Bool

/-- The error of `ReadRTP`: nil, `io.EOF`, or another one. -/
inductive ReadError where
  | eof
  | other (err : String)

/-- `normalizeMediaError`. -/
def normalizeMediaError : ReadError → ReadError
  | .eof => .eof
  | .other err => .other ("webrtcws: read RTP audio: " ++ err)

/-- `time.Second`. -/
def second : Int64 := 1000000000

/-- `pcmuClockRate`. -/
def pcmuClockRate : Int64 := 8000

/-- The variables of `receive`. -/
structure Receiver where
  firstTimestamp : BitVec 32
  haveFirst : Bool

def Receiver.new : Receiver where
  firstTimestamp := 0
  haveFirst := false

/-- The variables after `haveFirst` was looked at. -/
def Receiver.note (r : Receiver) (packet : Packet) : Receiver :=
  if r.haveFirst then r else { firstTimestamp := packet.Timestamp, haveFirst := true }

/-- `time.Duration` of a difference of timestamps. -/
def duration (ticks : BitVec 32) : Int64 := Int64.ofNat ticks.toNat

/-- The frame for a packet. -/
def Receiver.frame (r : Receiver) (packet : Packet) : MediaFrame where
  Data := Pcmu.decodePCMU packet.Payload
  PTS := duration (packet.Timestamp - r.firstTimestamp) * second / pcmuClockRate
  Timed := true

/-- `receive`: the frames, and the error that the channel fails with. -/
def receive (r : Receiver) : List (Except ReadError Packet) → List MediaFrame × Option ReadError
  | [] => ([], none)
  | .error err :: _ => ([], some (normalizeMediaError err))
  | .ok packet :: reads =>
    let r := r.note packet
    let rest := receive r reads
    (r.frame packet :: rest.1, rest.2)

end Rtvbp.Go.Rtp
