import Rtvbp.Go.Rtp
import Rtvbp.Lib.MuLaw
import Rtvbp.Rust.Rtp

/-!
# The PCMU codecs

Both encoders give the code of a sample, which the decoders restore as the companded sample. The sign, the segment and
the step of a code are bits that can be enumerated; what leads to them is shown for integers of any width.
-/

namespace Rtvbp.Media
open Rtvbp.Lib

variable {w : ℕ} (s : BitVec 16)

theorem toInt_bounds : -2 ^ 15 ≤ s.toInt ∧ s.toInt < 2 ^ 15 := by
  have hle := BitVec.le_toInt s
  have hlt := BitVec.toInt_lt (x := s)
  norm_num at hle hlt ⊢
  omega

/-- A number below half the range of a type is what it is as a signed integer. -/
theorem toInt_eq_toNat {x : BitVec w} {n : ℕ} (hx : x.toNat = n) (hn : 2 * n < 2 ^ w) : x.toInt = n := by
  rw [BitVec.toInt_eq_toNat_of_lt (by omega), hx]

/-- The magnitude of a sample in a wider type. -/
theorem toNat_magnitude (hw : 17 ≤ w) :
    (if (s.signExtend w).slt 0 then -(s.signExtend w) else s.signExtend w).toNat = s.toInt.natAbs := by
  have hwide : 2 ^ 17 ≤ 2 ^ w := Nat.pow_le_pow_right (by norm_num) hw
  have hsame : (s.signExtend w).toInt = s.toInt := BitVec.toInt_signExtend_of_le (by omega)
  obtain ⟨hle, hlt⟩ := toInt_bounds s
  have hcond := BitVec.toInt_eq_toNat_cond (s.signExtend w)
  have hbound := (s.signExtend w).isLt
  rw [hsame] at hcond
  by_cases hneg : (s.signExtend w).slt 0 = true
  · rw [if_pos hneg]
    have hlt0 : s.toInt < 0 := by
      have h := BitVec.slt_iff_toInt_lt.mp hneg
      rw [hsame] at h
      simpa using h
    rw [BitVec.toNat_neg]
    split_ifs at hcond
    · omega
    · have hsum : 2 ^ w - (s.signExtend w).toNat = s.toInt.natAbs := by omega
      rw [hsum]
      exact Nat.mod_eq_of_lt (by omega)
  · rw [if_neg hneg]
    have hge0 : 0 ≤ s.toInt := by
      by_contra h
      refine hneg (BitVec.slt_iff_toInt_lt.mpr ?_)
      rw [hsame]
      simpa using h
    split_ifs at hcond
    · omega
    · omega

/-- The clip and the bias in a wider type. -/
theorem toNat_biased {value clip bias : BitVec w} (hw : 17 ≤ w) (hvalue : value.toNat = s.toInt.natAbs)
    (hclip : clip.toNat = MuLaw.clip) (hbias : bias.toNat = MuLaw.bias) :
    ((if clip.slt value then clip else value) + bias).toNat = MuLaw.biased s.toInt := by
  have hwide : 2 ^ 17 ≤ 2 ^ w := Nat.pow_le_pow_right (by norm_num) hw
  have hsmall : MuLaw.clip + MuLaw.bias < 2 ^ 15 := by decide
  obtain ⟨hle, hlt⟩ := toInt_bounds s
  have hvalueInt : value.toInt = s.toInt.natAbs := toInt_eq_toNat hvalue (by omega)
  have hclipInt : clip.toInt = MuLaw.clip := toInt_eq_toNat hclip (by omega)
  rw [BitVec.toNat_add, hbias, MuLaw.biased]
  by_cases hlarge : clip.slt value = true
  · have hlt := BitVec.slt_iff_toInt_lt.mp hlarge
    rw [if_pos hlarge, hclip, Nat.mod_eq_of_lt (by omega)]
    omega
  · have hnot : ¬ clip.toInt < value.toInt := fun h => hlarge (BitVec.slt_iff_toInt_lt.mpr h)
    rw [if_neg hlarge, hvalue, Nat.mod_eq_of_lt (by omega)]
    omega

theorem go_biasedValue : (Go.Pcmu.biasedValue s).toNat = MuLaw.biased s.toInt :=
  toNat_biased s (by norm_num) (toNat_magnitude s (by norm_num)) (by decide) (by decide)

theorem rust_biasedValue : (Rust.Pcmu.biasedValue s).toNat = MuLaw.biased s.toInt :=
  toNat_biased s (by norm_num) (toNat_magnitude s (by norm_num)) (by decide) (by decide)

/-- The loop finds the segment. -/
theorem highestBit_eq_segment {value mask : BitVec w} (hw : 17 ≤ w) (hmask : mask.toNat = 2 ^ 14)
    (hvalue : value.toNat = MuLaw.biased s.toInt) : highestBit value 7 mask = MuLaw.segment (MuLaw.biased s.toInt) := by
  have hlow := MuLaw.bias_le_biased s.toInt
  have hhigh := (MuLaw.biased_bounds s.toInt).2
  have hclip : MuLaw.clip + MuLaw.bias < 2 ^ 15 := by decide
  obtain ⟨-, hle, hlt⟩ := @highestBit_spec _ value 7 (by omega) 7 mask hmask (by omega) (by omega)
  rw [hvalue] at hle hlt
  exact (MuLaw.segment_eq hle hlt).symm

/-! ## Codes -/

/-- The byte for a sign, a segment and one of its 16 steps. -/
def code (negative : Bool) (e m : ℕ) : UInt8 := ~~~ UInt8.ofNat ((if negative then 128 else 0) + 16 * e + m)

/-- The code of a sample. -/
def codeOf (s : ℤ) : UInt8 :=
  let e := MuLaw.segment (MuLaw.biased s)
  code (decide (s < 0)) e (MuLaw.biased s / MuLaw.step e % 16)

/-- The low four bits of a shifted value. -/
theorem mantissa_eq {value : BitVec w} (hw : 17 ≤ w) (hvalue : value.toNat = MuLaw.biased s.toInt) (e : ℕ) :
    value.sshiftRight (e + 3) &&& 0x0f = BitVec.ofNat w (MuLaw.biased s.toInt / MuLaw.step e % 16) := by
  have hwide : 2 ^ 17 ≤ 2 ^ w := Nat.pow_le_pow_right (by norm_num) hw
  have hsmall : MuLaw.clip + MuLaw.bias < 2 ^ 15 := by decide
  have hhigh := (MuLaw.biased_bounds s.toInt).2
  have hmsb : value.msb = false := by
    rw [BitVec.msb_eq_false_iff_two_mul_lt]
    omega
  apply BitVec.eq_of_toNat_eq
  have hfifteen : (0x0f : BitVec w).toNat = 2 ^ 4 - 1 := by
    show (BitVec.ofNat w 15).toNat = 15
    rw [BitVec.toNat_ofNat]
    exact Nat.mod_eq_of_lt (by omega)
  rw [BitVec.sshiftRight_eq_of_msb_false hmsb, BitVec.toNat_and, BitVec.toNat_ushiftRight, hfifteen, hvalue,
    Nat.and_two_pow_sub_one_eq_mod, Nat.shiftRight_eq_div_pow, BitVec.toNat_ofNat, MuLaw.step]
  refine (Nat.mod_eq_of_lt ?_).symm
  have hmod := Nat.mod_lt (MuLaw.biased s.toInt / 2 ^ (e + 3)) (show 0 < 16 by norm_num)
  omega

theorem slt_zero_iff (hw : 17 ≤ w) : (s.signExtend w).slt 0 = decide (s.toInt < 0) := by
  rw [BitVec.slt_eq_decide, BitVec.toInt_signExtend_of_le (by omega)]
  simp

theorem segment_lt (s : ℤ) : MuLaw.segment (MuLaw.biased s) < 8 := by
  have hmono := MuLaw.segment_mono (MuLaw.bias_le_biased s) (MuLaw.biased_bounds s).2
  have hseven : MuLaw.segment (MuLaw.clip + MuLaw.bias) = 7 := by decide
  omega

theorem go_code (negative : Bool) (e : Fin 8) (m : Fin 16) :
    ~~~ UInt8.ofBitVec (((if negative then (0x80 : BitVec 64) else 0) ||| BitVec.ofNat 64 e <<< 4 |||
      BitVec.ofNat 64 m).setWidth 8) = code negative e m := by
  revert negative e m
  decide

theorem rust_code (negative : Bool) (e : Fin 8) (m : Fin 16) :
    ~~~ ((if negative then (0x80 : UInt8) else 0) ||| (UInt8.ofNat e <<< 4) |||
      (Rust.Pcmu.tryU8 (BitVec.ofNat 32 m)).getD 0) = code negative e m := by
  revert negative e m
  decide

theorem go_linearToMuLaw : Go.Pcmu.linearToMuLaw s = codeOf s.toInt := by
  have hexponent := highestBit_eq_segment s (by norm_num) (show (0x4000 : BitVec 64).toNat = 2 ^ 14 by decide) (go_biasedValue s)
  unfold Go.Pcmu.linearToMuLaw
  dsimp only
  rw [hexponent, mantissa_eq s (by norm_num) (go_biasedValue s), slt_zero_iff s (by norm_num)]
  exact go_code (decide (s.toInt < 0)) ⟨_, segment_lt s.toInt⟩ ⟨_, Nat.mod_lt _ (by norm_num)⟩

theorem rust_linearToMuLaw : Rust.Pcmu.linearToMuLaw s = codeOf s.toInt := by
  have hexponent := highestBit_eq_segment s (by norm_num) (show (0x4000 : BitVec 32).toNat = 2 ^ 14 by decide) (rust_biasedValue s)
  unfold Rust.Pcmu.linearToMuLaw
  dsimp only
  rw [hexponent, mantissa_eq s (by norm_num) (rust_biasedValue s), slt_zero_iff s (by norm_num)]
  exact rust_code (decide (s.toInt < 0)) ⟨_, segment_lt s.toInt⟩ ⟨_, Nat.mod_lt _ (by norm_num)⟩

/-! ## Restored samples -/

/-- The sample that a code stands for. -/
def sampleOf (negative : Bool) (e m : ℕ) : ℤ :=
  let magnitude := (8 * m + MuLaw.bias) * 2 ^ e
  if negative then MuLaw.bias - magnitude else magnitude - MuLaw.bias

theorem go_muLawToInt (negative : Bool) (e : Fin 8) (m : Fin 16) :
    (Go.Pcmu.muLawToInt (code negative e m)).toInt = sampleOf negative e m := by
  revert negative e m
  decide

/-- The middle of the step of a sample, from its number in the segment. -/
theorem quantised_eq (s : ℤ) :
    MuLaw.quantised (MuLaw.biased s) = (8 * (MuLaw.biased s / MuLaw.step (MuLaw.segment (MuLaw.biased s)) % 16) + MuLaw.bias) *
      2 ^ MuLaw.segment (MuLaw.biased s) := by
  obtain ⟨hle, hlt⟩ := MuLaw.cell_bounds (MuLaw.bias_le_biased s)
  have hcell : MuLaw.biased s / MuLaw.step (MuLaw.segment (MuLaw.biased s)) =
      16 + MuLaw.biased s / MuLaw.step (MuLaw.segment (MuLaw.biased s)) % 16 := by omega
  rw [MuLaw.quantised]
  conv_lhs => rw [hcell]
  unfold MuLaw.bias
  ring

theorem go_companded : (Go.Pcmu.muLawToInt (Go.Pcmu.linearToMuLaw s)).toInt = MuLaw.companded s.toInt := by
  have hdecoded := go_muLawToInt (decide (s.toInt < 0)) ⟨_, segment_lt s.toInt⟩
    ⟨MuLaw.biased s.toInt / MuLaw.step (MuLaw.segment (MuLaw.biased s.toInt)) % 16, Nat.mod_lt _ (by norm_num)⟩
  rw [go_linearToMuLaw, codeOf]
  refine hdecoded.trans ?_
  rw [MuLaw.companded, quantised_eq, sampleOf]
  simp only [decide_eq_true_eq]

theorem forall_byte {P : UInt8 → Prop} (h : ∀ n : Fin 256, P (UInt8.ofFin n)) (encoded : UInt8) : P encoded := by
  have hbyte := h encoded.toFin
  rwa [UInt8.ofFin_toFin] at hbyte

/-- The two decoders give the same sample, which fits into 16 bits. -/
theorem muLawToLinear_spec (encoded : UInt8) :
    Rust.Pcmu.tryI16 (Rust.Pcmu.muLawToInt encoded) = some (Go.Pcmu.muLawToLinear encoded) ∧
      (Go.Pcmu.muLawToLinear encoded).toInt = (Go.Pcmu.muLawToInt encoded).toInt := by
  revert encoded
  apply forall_byte
  decide +kernel

theorem rust_muLawToLinear (encoded : UInt8) :
    Rust.Pcmu.muLawToLinear encoded = Go.Pcmu.muLawToLinear encoded := by
  unfold Rust.Pcmu.muLawToLinear
  dsimp only
  rw [(muLawToLinear_spec encoded).1, Option.getD_some]

/-! ## Buffers -/

theorem uint16_eq (low high : UInt8) (rest : List UInt8) :
    Go.Pcmu.uint16 (low :: high :: rest) 0 = Rust.Pcmu.fromLeBytes low high := by
  show low.toBitVec.setWidth 16 ||| high.toBitVec.setWidth 16 <<< 8 = high.toBitVec ++ low.toBitVec
  apply BitVec.eq_of_getLsbD_eq
  intro i hi
  rw [BitVec.getLsbD_or, BitVec.getLsbD_setWidth, BitVec.getLsbD_shiftLeft, BitVec.getLsbD_setWidth,
    BitVec.getLsbD_append]
  by_cases hlow : i < 8
  · simp [hlow, hi]
  · have hout : low.toBitVec.getLsbD i = false := BitVec.getLsbD_of_ge _ _ (by omega)
    have hhigh : i - 8 < 16 := by omega
    simp [hlow, hi, hout, hhigh]

theorem uint16_succ (low high : UInt8) (rest : List UInt8) (index : ℕ) :
    Go.Pcmu.uint16 (low :: high :: rest) ((index + 1) * 2) = Go.Pcmu.uint16 rest (index * 2) := by
  have hfirst : (index + 1) * 2 = index * 2 + 2 := by ring
  rw [hfirst]
  rfl

theorem putUint16_eq (v : BitVec 16) : Go.Pcmu.putUint16 v = Rust.Pcmu.toLeBytes v := by
  rw [Go.Pcmu.putUint16, Rust.Pcmu.toLeBytes, BitVec.setWidth_ushiftRight_eq_extractLsb,
    BitVec.setWidth_eq_extractLsb' (by norm_num)]

theorem fromLeBytes_toLeBytes (v : BitVec 16) :
    Rust.Pcmu.fromLeBytes (UInt8.ofBitVec (v.extractLsb' 0 8)) (UInt8.ofBitVec (v.extractLsb' 8 8)) = v :=
  BitVec.extractLsb'_append_extractLsb'

/-- The loop over indices and the one over chunks encode the same. -/
theorem encodePCMU_eq (pcm : List UInt8) : Go.Pcmu.encodePCMU pcm = Rust.Pcmu.encodePcmu pcm := by
  induction pcm using Rust.Pcmu.encodePcmu.induct with
  | case1 low high rest ih =>
    have hlength : (low :: high :: rest).length / 2 = rest.length / 2 + 1 := by
      simp only [List.length_cons]
      omega
    rw [Rust.Pcmu.encodePcmu, ← ih, Go.Pcmu.encodePCMU, hlength, List.range_succ_eq_map, List.map_cons, List.map_map,
      Nat.zero_mul, uint16_eq, go_linearToMuLaw, rust_linearToMuLaw]
    congr 1
    refine List.map_congr_left fun index _ => ?_
    exact congrArg Go.Pcmu.linearToMuLaw (uint16_succ low high rest index)
  | case2 pcm h =>
    have hshort : pcm.length / 2 = 0 := by
      match pcm, h with
      | [], _ => rfl
      | [_], _ => exact Nat.div_eq_of_lt one_lt_two
      | low :: high :: rest, h => exact absurd rfl (h low high rest)
    rw [Go.Pcmu.encodePCMU, hshort, Rust.Pcmu.encodePcmu]
    · rfl
    · exact h

theorem length_encodePCMU (pcm : List UInt8) : (Go.Pcmu.encodePCMU pcm).length = pcm.length / 2 := by
  rw [Go.Pcmu.encodePCMU, List.length_map, List.length_range]

theorem decodePCMU_eq (encoded : List UInt8) : Go.Pcmu.decodePCMU encoded = Rust.Pcmu.decodePcmu encoded := by
  unfold Go.Pcmu.decodePCMU Rust.Pcmu.decodePcmu
  refine congrArg (fun f => encoded.flatMap f) (funext fun value => ?_)
  rw [putUint16_eq, rust_muLawToLinear]

theorem length_decodePCMU (encoded : List UInt8) : (Go.Pcmu.decodePCMU encoded).length = 2 * encoded.length := by
  induction encoded with
  | nil => rfl
  | cons value encoded ih =>
    have hcons : Go.Pcmu.decodePCMU (value :: encoded) =
        Go.Pcmu.putUint16 (Go.Pcmu.muLawToLinear value) ++ Go.Pcmu.decodePCMU encoded := rfl
    rw [hcons, List.length_append, ih, List.length_cons]
    show 2 + 2 * encoded.length = _
    ring

/-! ## The codec -/

/-- `decode(encode(s))` of a sample. -/
def restored (s : BitVec 16) : BitVec 16 := Go.Pcmu.muLawToLinear (Go.Pcmu.linearToMuLaw s)

theorem toInt_restored : (restored s).toInt = MuLaw.companded s.toInt := by
  rw [restored, (muLawToLinear_spec _).2, go_companded]

theorem restored_restored : restored (restored s) = restored s := by
  apply BitVec.eq_of_toInt_eq
  rw [toInt_restored, toInt_restored, MuLaw.companded_companded]

/-- To encode what was decoded is to encode each sample. -/
theorem encode_decode (encoded : List UInt8) :
    Go.Pcmu.encodePCMU (Go.Pcmu.decodePCMU encoded) =
      encoded.map fun value => Go.Pcmu.linearToMuLaw (Go.Pcmu.muLawToLinear value) := by
  rw [encodePCMU_eq]
  induction encoded with
  | nil => rfl
  | cons value encoded ih =>
    have hcons : Go.Pcmu.decodePCMU (value :: encoded) =
        Rust.Pcmu.toLeBytes (Go.Pcmu.muLawToLinear value) ++ Go.Pcmu.decodePCMU encoded := by
      rw [← putUint16_eq]
      rfl
    rw [hcons, List.map_cons, ← ih, Rust.Pcmu.toLeBytes, List.cons_append, List.cons_append, List.nil_append,
      Rust.Pcmu.encodePcmu, fromLeBytes_toLeBytes, rust_linearToMuLaw, go_linearToMuLaw]

theorem mem_encodePCMU {pcm : List UInt8} {value : UInt8} (h : value ∈ Go.Pcmu.encodePCMU pcm) :
    ∃ s, value = Go.Pcmu.linearToMuLaw s := by
  obtain ⟨index, -, rfl⟩ := List.mem_map.mp h
  exact ⟨_, rfl⟩

/-- One pass through the codec is a projection. -/
theorem decode_encode_projection (pcm : List UInt8) :
    Go.Pcmu.decodePCMU (Go.Pcmu.encodePCMU (Go.Pcmu.decodePCMU (Go.Pcmu.encodePCMU pcm))) =
      Go.Pcmu.decodePCMU (Go.Pcmu.encodePCMU pcm) := by
  rw [encode_decode]
  unfold Go.Pcmu.decodePCMU
  rw [List.flatMap_map]
  refine List.flatMap_congr fun value hvalue => ?_
  obtain ⟨s, rfl⟩ := mem_encodePCMU hvalue
  exact congrArg Go.Pcmu.putUint16 (restored_restored s)

/-- The two codecs are equal, and one pass through them is a monotone projection that stays in range, with an error
of at most half a step. -/
theorem pcmu_codec :
    (∀ pcm, Go.Pcmu.encodePCMU pcm = Rust.Pcmu.encodePcmu pcm ∧
      (Go.Pcmu.encodePCMU pcm).length = pcm.length / 2) ∧
    (∀ encoded, Go.Pcmu.decodePCMU encoded = Rust.Pcmu.decodePcmu encoded ∧
      (Go.Pcmu.decodePCMU encoded).length = 2 * encoded.length) ∧
    (∀ pcm, Go.Pcmu.decodePCMU (Go.Pcmu.encodePCMU (Go.Pcmu.decodePCMU (Go.Pcmu.encodePCMU pcm))) =
      Go.Pcmu.decodePCMU (Go.Pcmu.encodePCMU pcm)) ∧
    (∀ s t : BitVec 16, s.toInt ≤ t.toInt → (restored s).toInt ≤ (restored t).toInt) ∧
    (∀ s : BitVec 16, (restored s).toInt = (Go.Pcmu.muLawToInt (Go.Pcmu.linearToMuLaw s)).toInt ∧
      Rust.Pcmu.tryI16 (Rust.Pcmu.muLawToInt (Rust.Pcmu.linearToMuLaw s)) = some (restored s) ∧
      -2 ^ 15 ≤ (Go.Pcmu.muLawToInt (Go.Pcmu.linearToMuLaw s)).toInt ∧
      (Go.Pcmu.muLawToInt (Go.Pcmu.linearToMuLaw s)).toInt < 2 ^ 15) ∧
    (∀ s : BitVec 16, s.toInt.natAbs ≤ 32635 →
      2 * |(restored s).toInt - s.toInt| ≤ MuLaw.step (MuLaw.segment (MuLaw.biased s.toInt))) := by
  refine ⟨fun pcm => ⟨encodePCMU_eq pcm, length_encodePCMU pcm⟩,
    fun encoded => ⟨decodePCMU_eq encoded, length_decodePCMU encoded⟩, decode_encode_projection, ?_, ?_, ?_⟩
  · intro s t h
    rw [toInt_restored, toInt_restored]
    exact MuLaw.companded_mono h
  · intro s
    have hbounds := MuLaw.companded_bounds s.toInt
    rw [rust_linearToMuLaw, ← go_linearToMuLaw, toInt_restored, go_companded]
    exact ⟨rfl, (muLawToLinear_spec _).1, by omega, by omega⟩
  · intro s h
    rw [toInt_restored]
    exact MuLaw.companded_error h

/-- The most negative sample is not restored above the most positive one. -/
theorem extremes_ordered : (restored 0x8000).toInt ≤ (restored 0x7fff).toInt :=
  pcmu_codec.2.2.2.1 0x8000 0x7fff (by decide)

end Rtvbp.Media
