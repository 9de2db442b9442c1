import Osfx.Lib.Crc
import Osfx.FusionPacket

/-!
# Bit errors in frames

The CRC16 of the code as a shift register over the bits of a frame, the most significant
bit of each byte first. A packet has the right CRC16 exactly if the register ends empty
(`crc16Ok_iff`), so an error is missed exactly if it leaves an empty register empty, which
no short burst and no odd number of errors does.
-/

namespace Osfx

open Numeral

/-- The bits of a byte in the order the CRC takes them. -/
def byteBits (b : UInt8) : List Bool := (List.range 8).map fun i => b.toBitVec.getLsbD (7 - i)

def frameBits (bytes : Bytes) : List Bool := bytes.flatMap byteBits

/-- The bytes received when these bits were flipped on the way. -/
def corrupted (frame err : Bytes) : Bytes := List.zipWith (· ^^^ ·) frame err

/-! ## The register of the code -/

theorem crc16Bit_toBitVec (poly crc : UInt16) :
    (crc16Bit poly crc).toBitVec = Crc.shift poly.toBitVec crc.toBitVec := by
  have htop : (crc &&& 0x8000 ≠ 0) ↔ crc.toBitVec.msb = true := by
    have hand : (crc &&& 0x8000).toBitVec = crc.toBitVec &&& BitVec.twoPow 16 15 := rfl
    rw [ne_eq, ← UInt16.toBitVec_inj, hand, BitVec.and_twoPow, BitVec.msb_eq_getLsbD_last]
    cases crc.toBitVec.getLsbD 15 <;> simp
  unfold crc16Bit Crc.shift
  by_cases h : crc.toBitVec.msb = true
  · rw [if_pos (htop.mpr h), if_pos h]
    rfl
  · rw [if_neg (mt htop.mp h), if_neg h]
    rfl

theorem repeat_crc16Bit (poly crc : UInt16) (k : Nat) :
    (Nat.repeat (crc16Bit poly) k crc).toBitVec =
      (Crc.shift poly.toBitVec)^[k] crc.toBitVec := by
  induction k with
  | zero => rfl
  | succ k ih => rw [Nat.repeat, crc16Bit_toBitVec, ih, Function.iterate_succ_apply']

@[simp] theorem length_byteBits (b : UInt8) : (byteBits b).length = 8 := by
  simp [byteBits]

theorem word_byteBits (b : UInt8) :
    Crc.word 15 (byteBits b) = (b.toUInt16 <<< 8).toBitVec := by
  have all : ∀ b : BitVec 8,
      Crc.word 15 (byteBits ⟨b⟩) = ((⟨b⟩ : UInt8).toUInt16 <<< 8).toBitVec := by
    decide +kernel
  exact all b.toBitVec

theorem crc16Byte_toBitVec (poly crc : UInt16) (b : UInt8) :
    (crc16Byte poly crc b).toBitVec =
      Crc.remainder poly.toBitVec crc.toBitVec (byteBits b) := by
  have hlen : (byteBits b).length ≤ 15 + 1 := by simp
  rw [Crc.remainder_short _ _ hlen, word_byteBits, length_byteBits, crc16Byte, repeat_crc16Bit]
  rfl

theorem crc16Ccitt_toBitVec (data : Bytes) (poly init : UInt16) :
    (crc16Ccitt data poly init).toBitVec =
      Crc.remainder poly.toBitVec init.toBitVec (frameBits data) := by
  induction data generalizing init with
  | nil => rfl
  | cons b data ih =>
    have hrest := ih (crc16Byte poly init b)
    rw [crc16Byte_toBitVec] at hrest
    rw [frameBits, List.flatMap_cons, Crc.remainder_append, ← frameBits, ← hrest]
    rfl

/-! ## Packets -/

/-- A byte shifted to the top of the register, as the CRC adds it. -/
theorem getLsbD_highByte (b : UInt8) (j : Nat) : (b.toUInt16 <<< 8).toBitVec.getLsbD j =
    (decide (j < 16) && !decide (j < 8) && b.toNat.testBit (j - 8)) := by
  have h : (b.toUInt16 <<< 8).toBitVec = (b.toBitVec.setWidth 16) <<< 8 := rfl
  have hb : b.toBitVec.toNat = b.toNat := rfl
  rw [h, BitVec.getLsbD_shiftLeft, BitVec.getLsbD_setWidth, BitVec.getLsbD, hb]
  by_cases hj : j < 16
  · have hj8 : j - 8 < 16 := by omega
    simp [hj, hj8]
  · simp [hj]

/-- Two bytes as the register holds them. -/
theorem word_two (hi lo : UInt8) : Crc.word 15 (frameBits [hi, lo]) =
    (UInt16.ofNat (beNat [hi, lo])).toBitVec := by
  have hbits : frameBits [hi, lo] = byteBits hi ++ byteBits lo := by simp [frameBits]
  have hval : beNat [hi, lo] = 2 ^ 8 * hi.toNat + lo.toNat := by
    simp [beNat]
    omega
  rw [hbits, Crc.word_append, word_byteBits, word_byteBits, length_byteBits, hval]
  apply BitVec.eq_of_getLsbD_eq
  intro i hi16
  have hsum : (UInt16.ofNat (2 ^ 8 * hi.toNat + lo.toNat)).toBitVec.getLsbD i =
      (2 ^ 8 * hi.toNat + lo.toNat).testBit i := by
    simp [BitVec.getLsbD, Nat.testBit_mod_two_pow _ 16, hi16]
  rw [hsum, Nat.testBit_two_pow_mul_add _ lo.toNat_lt, BitVec.getLsbD_xor,
    BitVec.getLsbD_ushiftRight, getLsbD_highByte, getLsbD_highByte]
  by_cases h8 : i < 8
  · have hin : 8 + i < 16 := by omega
    simp [h8, hin]
  · have hout : ¬ 8 + i < 16 := by omega
    simp [h8, hout, hi16]

theorem crc16_step_ok : (0x1021 : UInt16).toBitVec.getLsbD 0 = true := by decide

/-- A packet that is long enough has the right CRC16 exactly if its bits leave the register
empty. -/
theorem crc16Ok_iff {packet : Bytes} {pm : PacketMeta} (h : packetDecodeMin packet = some pm) :
    pm.crc16Ok = true ↔
      Crc.remainder (0x1021 : UInt16).toBitVec (0xFFFF : UInt16).toBitVec (frameBits packet) =
        0#16 := by
  have hlen := (decodedFrom_packet h).long
  have hok : pm.crc16Ok = (crc16Ccitt (packet.take (packet.length - 2)) 0x1021 0xFFFF ==
      UInt16.ofNat (beNat (packet.drop (packet.length - 2)))) := by
    have hslice : slice packet (packet.length - 2) 2 = packet.drop (packet.length - 2) := by
      rw [slice, List.take_of_length_le]
      rw [List.length_drop]
      omega
    rw [(decodedFrom_packet h).crc16Ok, hslice]
  obtain ⟨hi, lo, htail⟩ : ∃ hi lo, packet.drop (packet.length - 2) = [hi, lo] := by
    apply List.length_eq_two.mp
    rw [List.length_drop]
    omega
  have hsplit : frameBits packet =
      frameBits (packet.take (packet.length - 2)) ++ frameBits [hi, lo] := by
    rw [frameBits, frameBits, frameBits, ← List.flatMap_append, ← htail, List.take_append_drop]
  have hshort : (frameBits [hi, lo]).length ≤ 15 + 1 := by simp [frameBits]
  rw [hsplit, Crc.remainder_append_eq_zero _ crc16_step_ok _ _ hshort, ← crc16Ccitt_toBitVec,
    word_two, UInt16.toBitVec_inj, hok, htail, beq_iff_eq]

/-! ## Errors -/

theorem byteBits_xor (a b : UInt8) :
    byteBits (a ^^^ b) = List.zipWith xor (byteBits a) (byteBits b) := by
  simp [byteBits, List.zipWith_map, List.zipWith_self]

theorem frameBits_cons (b : UInt8) (bytes : Bytes) :
    frameBits (b :: bytes) = byteBits b ++ frameBits bytes := List.flatMap_cons

theorem frameBits_corrupted {frame err : Bytes} (h : frame.length = err.length) :
    frameBits (corrupted frame err) = List.zipWith xor (frameBits frame) (frameBits err) := by
  induction frame generalizing err with
  | nil => simp [corrupted, frameBits]
  | cons a frame ih =>
    cases err with
    | nil => cases h
    | cons b err =>
      have hrest := ih (by simpa using h : frame.length = err.length)
      have hcons : corrupted (a :: frame) (b :: err) = (a ^^^ b) :: corrupted frame err := rfl
      rw [hcons, frameBits_cons, frameBits_cons, frameBits_cons, hrest, byteBits_xor,
        List.zipWith_append (by simp)]

theorem true_mem_byteBits {b : UInt8} (h : b ≠ 0) : true ∈ byteBits b := by
  have all : ∀ b : BitVec 8, b ≠ 0#8 → true ∈ byteBits ⟨b⟩ := by decide +kernel
  apply all b.toBitVec
  intro hb
  exact h (UInt8.toBitVec_inj.mp hb)

/-- An error of the length of a frame leaves the register of the frame where it leaves an
empty one. -/
theorem remainder_corrupted (poly init : BitVec 16) {frame err : Bytes}
    (h : frame.length = err.length)
    (hframe : Crc.remainder poly init (frameBits frame) = 0#16) :
    Crc.remainder poly init (frameBits (corrupted frame err)) =
      Crc.remainder poly 0#16 (frameBits err) := by
  have hlen : (frameBits frame).length = (frameBits err).length := by
    simp [frameBits, List.length_flatMap, h]
  have hxor := Crc.remainder_xor poly hlen init 0#16
  rw [BitVec.xor_zero, hframe, BitVec.zero_xor] at hxor
  rw [frameBits_corrupted h, hxor]

/-- An error in a frame that is confined to 16 consecutive bits, or flips an odd number of
bits, makes a packet that is not decoded or has a wrong CRC16. -/
theorem frame_errors_detected (cmd : UInt8) (aid : UInt32) (tid : UInt8) (ts : UInt64)
    (body : Bytes) (outCap : Nat) (hcap : body.length + 16 ≤ outCap) (err : Bytes)
    (hlen : err.length = body.length + 16) (hne : ∃ b ∈ err, b ≠ 0)
    (herr : Crc.Burst 16 (frameBits err) ∨ (frameBits err).count true % 2 = 1) :
    ∀ pm, packetDecodeMin (corrupted (packetEncodeFull cmd aid tid ts body outCap).1 err) =
      some pm → pm.crc16Ok = false := by
  intro pm hpm
  have hfull : (packetEncodeFull cmd aid tid ts body outCap).1 =
      packetFrame cmd aid tid ts body := by
    rw [packetEncodeFull, if_neg (by omega)]
  rw [hfull] at hpm
  have hgood := (crc16Ok_iff (packetDecodeMin_frame cmd aid tid ts body)).mp rfl
  have hsame : (packetFrame cmd aid tid ts body).length = err.length := by
    rw [length_packetFrame, hlen]
  have hleft := remainder_corrupted _ _ hsame hgood
  have hset : true ∈ frameBits err := by
    obtain ⟨b, hb, hb0⟩ := hne
    exact List.mem_flatMap.mpr ⟨b, hb, true_mem_byteBits hb0⟩
  have hnot : Crc.remainder (0x1021 : UInt16).toBitVec 0#16 (frameBits err) ≠ 0#16 := by
    rcases herr with hburst | hodd
    · exact Crc.remainder_ne_zero_of_burst _ crc16_step_ok hburst hset
    · exact Crc.remainder_ne_zero_of_odd _ (by decide) hodd
  rw [← Bool.not_eq_true, crc16Ok_iff hpm, hleft]
  exact hnot

/-- Three flipped bits, one in the command, one in the route count and one in the CRC16: the
packet is decoded, with a wrong CRC16. -/
theorem threeFlips_detected : ∃ pm,
    packetDecodeMin (corrupted (packetEncodeFull Cmd.dataHeart 1 1 8 [7, 7] 512).1
      ([1, 1] ++ List.replicate 15 0 ++ [4])) = some pm ∧ pm.crc16Ok = false := by
  obtain ⟨pm, hpm⟩ := Option.isSome_iff_exists.mp (show (packetDecodeMin (corrupted
    (packetEncodeFull Cmd.dataHeart 1 1 8 [7, 7] 512).1
      ([1, 1] ++ List.replicate 15 0 ++ [4]))).isSome = true by decide +kernel)
  exact ⟨pm, hpm, frame_errors_detected _ _ _ _ _ _ (by decide) _ (by decide) (by decide)
    (Or.inr (by decide +kernel)) pm hpm⟩

end Osfx
