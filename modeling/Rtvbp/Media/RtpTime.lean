import Rtvbp.Go.Rtp
import Rtvbp.Lib.Words
import Rtvbp.Media.Proofs.PcmuProofs
import Rtvbp.Rust.Rtp

/-!
# The presentation time of RTP audio

The frames that Go and Rust make of one stream of packets. The time of a packet is the number of ticks of the RTP clock
since the first one, which are the differences between the timestamps of one packet and the next.
-/

namespace Rtvbp.Media

open Rtvbp.Lib

/-- The packets of a stream, in order. -/
abbrev Stream := List Rust.Rtp.Packet

/-- The packet as Go reads it. -/
def goPacketOf (packet : Rust.Rtp.Packet) : Go.Rtp.Packet where
  Timestamp := packet.timestamp
  Payload := packet.payload

namespace Stream

variable (stream : Stream)

def timestamps : List (BitVec 32) := stream.map Rust.Rtp.Packet.timestamp

/-- The ticks since the first packet. -/
def ticks : List ℕ := elapsed stream.timestamps

/-- The frames of Go. -/
def goFrames : List Go.Rtp.MediaFrame := (Go.Rtp.receive .new (stream.map fun packet => .ok (goPacketOf packet))).1

/-- The frames of Rust. -/
def rustFrames (track : Rust.Rtp.Track) : List Rust.Rtp.MediaFrame := (Rust.Rtp.receive track (stream.map .ok)).1

/-- The track is audio in the codec that is expected, which is looked at with the first packet. -/
def Expected (track : Rust.Rtp.Track) : Prop :=
  track.isAudio = true ∧ ∀ packet ∈ stream.head?, track.unexpected packet = false

/-- The frames carry the time of their packets, which is the same in Go and Rust and does not decrease, and no product
on the way to it is out of range. -/
structure Faithful (go : List Go.Rtp.MediaFrame) (rust : List Rust.Rtp.MediaFrame) : Prop where
  exact : (go.map fun frame => (frame.PTS.toInt : ℚ)) = stream.ticks.map fun ticks : ℕ => (ticks : ℚ) / 8000 * 10 ^ 9
  ordered : go.Pairwise fun a b => a.PTS ≤ b.PTS
  equal : (rust.map fun frame => (frame.data, frame.pts.map Int.ofNat)) =
    go.map fun frame => (frame.Data, some frame.PTS.toInt)
  noOverflow : ∀ first ∈ stream.timestamps.head?, ∀ t ∈ stream.timestamps,
    (Go.Rtp.duration (t - first) * Go.Rtp.second).toInt = (t - first).toNat * 10 ^ 9 ∧
      Rust.Rtp.saturatingMul (t - first).toNat 1000000000 = (t - first).toNat * 10 ^ 9

end Stream

end Rtvbp.Media

/-!
## When the presentation time is faithful

Every packet is compared with the first one. The difference is the remainder of the elapsed ticks modulo `2 ^ 32`, so
that the time of a packet is right as long as the clock has not gone round.
-/

namespace Rtvbp.Media

open Rtvbp.Lib

/-! ## One packet -/

theorem toInt_duration (ticks : BitVec 32) : (Go.Rtp.duration ticks).toInt = ticks.toNat := by
  have hlt := ticks.isLt
  exact Int64.toInt_ofNat_of_lt (by omega)

theorem toInt_duration_mul (ticks : BitVec 32) :
    (Go.Rtp.duration ticks * Go.Rtp.second).toInt = ticks.toNat * 1000000000 := by
  have hlt := ticks.isLt
  have hsecond : Go.Rtp.second.toInt = 1000000000 := by decide
  have hmul : (Go.Rtp.duration ticks).toInt * Go.Rtp.second.toInt = ticks.toNat * 1000000000 := by
    rw [toInt_duration, hsecond]
  rw [toInt_mul_of_le (by omega) (by omega), hmul]

/-- The time of a packet in Go is a whole number of nanoseconds. -/
theorem toInt_pts (ticks : BitVec 32) :
    (Go.Rtp.duration ticks * Go.Rtp.second / Go.Rtp.pcmuClockRate).toInt = ticks.toNat * 125000 := by
  have hmul := toInt_duration_mul ticks
  have hrate : Go.Rtp.pcmuClockRate.toInt = 8000 := by decide
  rw [toInt_div_of_pos (by omega) (by decide), hmul, hrate]
  omega

theorem toInt_PTS_frame (r : Go.Rtp.Receiver) (packet : Go.Rtp.Packet) :
    (r.frame packet).PTS.toInt = (packet.Timestamp - r.firstTimestamp).toNat * 125000 := toInt_pts _

theorem saturatingMul_ticks (ticks : BitVec 32) :
    Rust.Rtp.saturatingMul ticks.toNat 1000000000 = ticks.toNat * 1000000000 := by
  have hlt := ticks.isLt
  unfold Rust.Rtp.saturatingMul
  omega

theorem rust_pts (ticks : BitVec 32) :
    Rust.Rtp.saturatingMul ticks.toNat 1000000000 / Rust.Rtp.pcmuClockRate = ticks.toNat * 125000 := by
  rw [saturatingMul_ticks]
  unfold Rust.Rtp.pcmuClockRate
  omega

theorem pts_frame (first : BitVec 32) (packet : Rust.Rtp.Packet) :
    (Rust.Rtp.frame first packet).pts = some ((packet.timestamp - first).toNat * 125000) :=
  congrArg some (rust_pts _)

/-! ## The loops -/

/-- Once it has a first timestamp, Go compares every packet with it. -/
theorem go_receive_later (r : Go.Rtp.Receiver) (h : r.haveFirst = true) (packets : List Go.Rtp.Packet) :
    (Go.Rtp.receive r (packets.map .ok)).1 = packets.map r.frame := by
  induction packets with
  | nil => rfl
  | cons packet packets ih =>
    have hnote : r.note packet = r := if_pos h
    rw [List.map_cons, List.map_cons, Go.Rtp.receive]
    dsimp only
    rw [hnote, ih]

theorem goFrames_cons (packet : Rust.Rtp.Packet) (stream : Stream) :
    Stream.goFrames (packet :: stream) = (packet :: stream).map fun next =>
      Go.Rtp.Receiver.frame { firstTimestamp := packet.timestamp, haveFirst := true } (goPacketOf next) := by
  have hlater := go_receive_later { firstTimestamp := packet.timestamp, haveFirst := true } rfl
    (stream.map goPacketOf)
  rw [List.map_map, List.map_map] at hlater
  rw [List.map_cons]
  exact congrArg (List.cons _) hlater

theorem rust_receive_later (track : Rust.Rtp.Track) (first : BitVec 32) (packets : List Rust.Rtp.Packet) :
    (Rust.Rtp.receiveFrom track { firstTimestamp := some first, codecChecked := true } (packets.map .ok)).1 =
      packets.map (Rust.Rtp.frame first) := by
  induction packets with
  | nil => rfl
  | cons packet packets ih =>
    rw [List.map_cons, List.map_cons, Rust.Rtp.receiveFrom, if_neg (by simp)]
    exact congrArg (List.cons _) ih

theorem rustFrames_cons {track : Rust.Rtp.Track} {packet : Rust.Rtp.Packet} {stream : Stream}
    (h : Stream.Expected (packet :: stream) track) :
    Stream.rustFrames (packet :: stream) track = (packet :: stream).map (Rust.Rtp.frame packet.timestamp) := by
  have hcodec : track.unexpected packet = false := h.2 packet rfl
  have hlater := rust_receive_later track packet.timestamp stream
  rw [Stream.rustFrames, Rust.Rtp.receive, if_neg (by simp [h.1]), List.map_cons, Rust.Rtp.receiveFrom,
    if_neg (by simp [hcodec])]
  exact congrArg (List.cons _) hlater

/-! ## Streams -/

variable {stream : Stream}

/-- The times of Go, from the elapsed ticks. -/
theorem pts_goFrames (stream : Stream) :
    (stream.goFrames.map fun frame => frame.PTS.toInt) =
      stream.ticks.map fun ticks => ((ticks % 2 ^ 32 * 125000 : ℕ) : ℤ) := by
  cases stream with
  | nil => rfl
  | cons packet stream =>
    have hself : (packet.timestamp - packet.timestamp).toNat = 0 % 2 ^ 32 := by
      rw [BitVec.sub_self]
      rfl
    have hmod := map_sub_eq_mod packet.timestamp packet.timestamp 0 (Stream.timestamps stream) hself
    have hticks : (Stream.timestamps (packet :: stream)).map (fun t => (t - packet.timestamp).toNat) =
        (Stream.ticks (packet :: stream)).map (· % 2 ^ 32) := by
      exact congrArg₂ List.cons hself hmod
    have hframes : (Stream.goFrames (packet :: stream)).map (fun frame => frame.PTS.toInt) =
        ((Stream.timestamps (packet :: stream)).map fun t => (t - packet.timestamp).toNat).map
          fun ticks => ((ticks * 125000 : ℕ) : ℤ) := by
      rw [goFrames_cons, Stream.timestamps, List.map_map, List.map_map, List.map_map]
      refine List.map_congr_left fun next _ => ?_
      rw [Function.comp_apply, toInt_PTS_frame, Function.comp_apply, Function.comp_apply, Nat.cast_mul, Nat.cast_ofNat]
      rfl
    rw [hframes, hticks, List.map_map]
    exact List.map_congr_left fun ticks _ => by simp only [Function.comp_apply]

/-- Both make the same frames. -/
theorem rustFrames_eq {track : Rust.Rtp.Track} (h : stream.Expected track) :
    ((stream.rustFrames track).map fun frame => (frame.data, frame.pts.map Int.ofNat)) =
      stream.goFrames.map fun frame => (frame.Data, some frame.PTS.toInt) := by
  cases stream with
  | nil =>
    rw [Stream.rustFrames, Rust.Rtp.receive, if_neg (by simp [h.1])]
    rfl
  | cons packet stream =>
    rw [rustFrames_cons h, goFrames_cons, List.map_map, List.map_map]
    refine List.map_congr_left fun next _ => ?_
    have hdata : (Rust.Rtp.frame packet.timestamp next).data = Go.Pcmu.decodePCMU next.payload :=
      (decodePCMU_eq next.payload).symm
    rw [Function.comp_apply, Function.comp_apply, pts_frame, toInt_PTS_frame, Option.map_some,
      Int.ofNat_eq_natCast, Nat.cast_mul, Nat.cast_ofNat, hdata]
    rfl

theorem noOverflow (stream : Stream) : ∀ first ∈ stream.timestamps.head?, ∀ t ∈ stream.timestamps,
    (Go.Rtp.duration (t - first) * Go.Rtp.second).toInt = (t - first).toNat * 10 ^ 9 ∧
      Rust.Rtp.saturatingMul (t - first).toNat 1000000000 = (t - first).toNat * 10 ^ 9 := by
  intro first _ t _
  exact ⟨toInt_duration_mul (t - first), saturatingMul_ticks (t - first)⟩

/-- The remainder of the ticks is the number of ticks. -/
theorem time_eq_iff (ticks : ℕ) :
    (((ticks % 2 ^ 32 * 125000 : ℕ) : ℤ) : ℚ) = (ticks : ℚ) / 8000 * 10 ^ 9 ↔ ticks < 2 ^ 32 := by
  have hscale : (ticks : ℚ) / 8000 * 10 ^ 9 = ((ticks * 125000 : ℕ) : ℚ) := by
    push_cast
    ring
  rw [hscale, Int.cast_natCast, Nat.cast_inj]
  omega

/-- The presentation times of a stream are faithful if and only if its clock does not go round. -/
theorem faithful_iff (stream : Stream) (track : Rust.Rtp.Track) (hexpected : stream.Expected track) :
    stream.Faithful stream.goFrames (stream.rustFrames track) ↔ ∀ ticks ∈ stream.ticks, ticks < 2 ^ 32 := by
  have hpts := pts_goFrames stream
  have hcast : (stream.goFrames.map fun frame => (frame.PTS.toInt : ℚ)) =
      stream.ticks.map fun ticks => (((ticks % 2 ^ 32 * 125000 : ℕ) : ℤ) : ℚ) := by
    have hmap := congrArg (List.map fun n : ℤ => (n : ℚ)) hpts
    rwa [List.map_map, List.map_map] at hmap
  constructor
  · intro h ticks hticks
    have hexact := h.exact
    rw [hcast] at hexact
    exact (time_eq_iff ticks).mp (List.map_inj_left.mp hexact ticks hticks)
  · intro h
    refine ⟨?_, ?_, rustFrames_eq hexpected, noOverflow stream⟩
    · rw [hcast]
      exact List.map_congr_left fun ticks hticks => (time_eq_iff ticks).mpr (h ticks hticks)
    · have hsorted : (stream.goFrames.map fun frame => frame.PTS.toInt).Pairwise (· ≤ ·) := by
        rw [hpts, List.pairwise_map]
        refine (pairwise_elapsed stream.timestamps).imp_of_mem ?_
        intro a b ha hb hle
        have hsmall := h a ha
        have hsmall' := h b hb
        omega
      rw [List.pairwise_map] at hsorted
      exact hsorted.imp fun hle => Int64.le_iff_toInt_le.mpr hle

/-! ## A stream of six days -/

/-- Packets that are a quarter of the clock apart, as of silence that is not sent. -/
def longStream : Stream :=
  [0, 0x40000000, 0x80000000, 0xc0000000, 0].map fun timestamp =>
    { payloadType := 0, timestamp := timestamp, payload := [] }

def pcmuTrack : Rust.Rtp.Track where
  isAudio := true
  capability := { mimeType := "audio/PCMU", clockRate := 8000, channels := 1 }

/-- The time of its last packet is that of the first one. -/
theorem longStream_not_faithful :
    InOrder longStream.timestamps ∧ longStream.Expected pcmuTrack ∧
      ¬ longStream.Faithful longStream.goFrames (longStream.rustFrames pcmuTrack) := by
  refine ⟨by decide, ⟨rfl, by decide⟩, fun h => ?_⟩
  have hordered := h.ordered
  revert hordered
  decide

def shortStream : Stream :=
  [0xffffff60, 0, 160].map fun timestamp => { payloadType := 0, timestamp := timestamp, payload := [] }

/-- Timestamps may go round in a stream that is shorter than the clock. -/
theorem shortStream_faithful :
    shortStream.Faithful shortStream.goFrames (shortStream.rustFrames pcmuTrack) :=
  (faithful_iff shortStream pcmuTrack ⟨rfl, by decide⟩).mpr (by decide)

end Rtvbp.Media
