import Osfx.Solidity
import Osfx.HandshakeCmd

/-!
# Data frames

`osfx_fusion_packet.c`: the frame `osfx_packet_encode_full` lays out and the
fields `osfx_packet_decode_min` reads back. `packetDecodeMin_frame` is the round
trip: the fields of a frame are the arguments it was built from, the timestamp
modulo 2^48, both checksums good, and `slice` at the reported offset is the body.
-/

namespace Osfx

open Numeral

/-- `(int)` of a size: the low 32 bits, read as two's complement. -/
def castInt (n : Nat) : Int := (n : Int).bmod (2 ^ 32)

theorem castInt_of_lt {n : Nat} (h : n < 2 ^ 31) : castInt n = n := by
  unfold castInt
  rw [Int.bmod_eq_of_le] <;> omega

/-- Where the int that is returned is the length of the frame, the packet is the frame. -/
theorem take_frame {frame : Bytes} (h : frame.length < 2 ^ 31) :
    frame.take (castInt frame.length).toNat = frame := by
  rw [castInt_of_lt h, Int.toNat_natCast, List.take_length]

/-- A call that hands out a packet if its int is positive hands out the frame. -/
theorem sent_frame {frame : Bytes} (hpos : 0 < frame.length) (h : frame.length < 2 ^ 31) :
    (if castInt frame.length ≤ 0 then none else some (frame.take (castInt frame.length).toNat)) =
      some frame := by
  have hret := castInt_of_lt h
  rw [if_neg (by omega), take_frame h]

/-- The 13 bytes in front of the body. -/
def frameHead (cmd : UInt8) (sourceAid : UInt32) (tid : UInt8) (timestampRaw : UInt64) : Bytes :=
  [cmd, 1] ++ beBytes 4 sourceAid.toNat ++ [tid] ++ beBytes 6 timestampRaw.toNat

/-- Header, body and the CRC8 of the body: what the CRC16 covers. -/
def frameChecked (cmd : UInt8) (sourceAid : UInt32) (tid : UInt8) (timestampRaw : UInt64)
    (body : Bytes) : Bytes :=
  frameHead cmd sourceAid tid timestampRaw ++ body ++ [crc8 body 0x07 0x00]

/-- The frame `osfx_packet_encode_full` lays out. -/
def packetFrame (cmd : UInt8) (sourceAid : UInt32) (tid : UInt8) (timestampRaw : UInt64)
    (body : Bytes) : Bytes :=
  let checked := frameChecked cmd sourceAid tid timestampRaw body
  checked ++ beBytes 2 (crc16Ccitt checked 0x1021 0xFFFF).toNat

/-- A frame around these body bytes and this CRC8, which need not be the one of the bytes. -/
def frameAround (cmd : UInt8) (sourceAid : UInt32) (tid : UInt8) (timestampRaw : UInt64)
    (body : Bytes) (crc8v : UInt8) : Bytes :=
  let checked := frameHead cmd sourceAid tid timestampRaw ++ body ++ [crc8v]
  checked ++ beBytes 2 (crc16Ccitt checked 0x1021 0xFFFF).toNat

/-- `osfx_packet_encode_full`: the bytes written to `out` and the returned length. -/
def packetEncodeFull (cmd : UInt8) (sourceAid : UInt32) (tid : UInt8) (timestampRaw : UInt64)
    (body : Bytes) (outCap : Nat) : Bytes × Int :=
  if outCap < 13 + body.length + 3 then ([], 0)
  else
    let out := packetFrame cmd sourceAid tid timestampRaw body
    (out, castInt out.length)

/-- `osfx_packet_meta`, the nine fields of `osfx_packet_decode_min`. -/
structure PacketMeta where
  cmd : UInt8
  routeCount : UInt8
  sourceAid : UInt32
  tid : UInt8
  timestampRaw : UInt64
  bodyOffset : Nat
  bodyLen : Nat
  crc8Ok : Bool
  crc16Ok : Bool
  deriving DecidableEq, Repr

/-- `len` bytes from offset `off`. -/
def slice (p : Bytes) (off len : Nat) : Bytes := (p.drop off).take len

/-- The body of a packet, where its metadata says. -/
def PacketMeta.body (pm : PacketMeta) (packet : Bytes) : Bytes :=
  slice packet pm.bodyOffset pm.bodyLen

def packetDecodeMin (packet : Bytes) : Option PacketMeta :=
  if packet.length < 16 then none
  else
    let routeCount := packet.getD 1 0
    let tidPos := 2 + routeCount.toNat * 4
    if packet.length < tidPos + 1 + 6 + 3 then none
    else
      let bodyOff := tidPos + 7
      let bodyLen := packet.length - bodyOff - 3
      let crc8Recv := packet.getD (packet.length - 3) 0
      let crc8Calc := crc8 (slice packet bodyOff bodyLen) 0x07 0x00
      let crc16Recv := UInt16.ofNat (beNat (slice packet (packet.length - 2) 2))
      let crc16Calc := crc16Ccitt (packet.take (packet.length - 2)) 0x1021 0xFFFF
      some {
        cmd := packet.getD 0 0
        routeCount := routeCount
        sourceAid := UInt32.ofNat (beNat (slice packet 2 4))
        tid := packet.getD tidPos 0
        timestampRaw := UInt64.ofNat (beNat (slice packet (tidPos + 1) 6))
        bodyOffset := bodyOff
        bodyLen := bodyLen
        crc8Ok := crc8Calc == crc8Recv
        crc16Ok := crc16Calc == crc16Recv }

/-- `osfx_packet_decode_meta` copies the fields over. -/
def packetDecodeMeta (packet : Bytes) : Option PacketMeta := packetDecodeMin packet

/-- Everything that is said of a packet that is decoded. -/
structure DecodedFrom (packet : Bytes) (pm : PacketMeta) : Prop where
  long : 16 ≤ packet.length
  cmd : pm.cmd = packet.getD 0 0
  routeCount : pm.routeCount = packet.getD 1 0
  sourceAid : pm.sourceAid = UInt32.ofNat (beNat (slice packet 2 4))
  tid : pm.tid = packet.getD (2 + 4 * pm.routeCount.toNat) 0
  timestampRaw : pm.timestampRaw =
    UInt64.ofNat (beNat (slice packet (3 + 4 * pm.routeCount.toNat) 6))
  bodyOffset : pm.bodyOffset = 9 + 4 * pm.routeCount.toNat
  bodyLen : pm.bodyOffset + pm.bodyLen + 3 = packet.length
  crc8Ok : pm.crc8Ok = (crc8 (pm.body packet) 0x07 0x00 == packet.getD (packet.length - 3) 0)
  crc16Ok : pm.crc16Ok = (crc16Ccitt (packet.take (packet.length - 2)) 0x1021 0xFFFF ==
    UInt16.ofNat (beNat (slice packet (packet.length - 2) 2)))

theorem decodedFrom_packet {packet : Bytes} {pm : PacketMeta}
    (h : packetDecodeMin packet = some pm) : DecodedFrom packet pm := by
  unfold packetDecodeMin at h
  split at h
  · cases h
  simp only at h
  split at h
  · cases h
  · rename_i hshort hroute
    cases h
    have hbase : 2 + (packet.getD 1 0).toNat * 4 = 2 + 4 * (packet.getD 1 0).toNat := by omega
    have hstamp : 2 + (packet.getD 1 0).toNat * 4 + 1 = 3 + 4 * (packet.getD 1 0).toNat := by
      omega
    refine ⟨by omega, rfl, rfl, rfl, ?_, ?_, ?_, ?_, rfl, rfl⟩
    · simp only [hbase]
    · simp only [hstamp]
    · simp only
      omega
    · simp only
      omega

/-- The timestamp as the frame carries it: its low 48 bits. -/
def wireTimestamp (ts : UInt64) : UInt64 := UInt64.ofNat (ts.toNat % 2 ^ 48)

theorem slice_append (a b c : Bytes) {off len : Nat} (ho : off = a.length) (hl : len = b.length) :
    slice (a ++ b ++ c) off len = b := by
  subst ho hl
  simp [slice]

theorem getD_append_cons (a c : Bytes) (x : UInt8) {off : Nat} (ho : off = a.length) :
    (a ++ x :: c).getD off 0 = x := by
  subst ho
  simp

section
variable (cmd : UInt8) (aid : UInt32) (tid : UInt8) (ts : UInt64) (body : Bytes) (crc8v : UInt8)

theorem packetFrame_eq :
    packetFrame cmd aid tid ts body = frameAround cmd aid tid ts body (crc8 body 0x07 0x00) := rfl

theorem frameAround_eq : frameAround cmd aid tid ts body crc8v =
    frameHead cmd aid tid ts ++ body ++ [crc8v] ++
      beBytes 2 (crc16Ccitt (frameHead cmd aid tid ts ++ body ++ [crc8v]) 0x1021 0xFFFF).toNat :=
  rfl

@[simp] theorem length_frameHead : (frameHead cmd aid tid ts).length = 13 := by
  simp [frameHead]

@[simp] theorem length_frameAround :
    (frameAround cmd aid tid ts body crc8v).length = body.length + 16 := by
  simp [frameAround_eq]
  omega

@[simp] theorem length_packetFrame :
    (packetFrame cmd aid tid ts body).length = body.length + 16 := by
  rw [packetFrame_eq, length_frameAround]

theorem frame_body : slice (frameAround cmd aid tid ts body crc8v) 13 body.length = body := by
  rw [frameAround_eq, List.append_assoc (_ ++ _)]
  exact slice_append _ body _ (by simp) rfl

theorem frame_sourceAid :
    slice (frameAround cmd aid tid ts body crc8v) 2 4 = beBytes 4 aid.toNat := by
  simp only [frameAround_eq, frameHead, List.append_assoc]
  rw [← List.append_assoc [cmd, 1]]
  exact slice_append [cmd, 1] _ _ rfl (by simp)

theorem frame_timestamp :
    slice (frameAround cmd aid tid ts body crc8v) 7 6 = beBytes 6 ts.toNat := by
  simp only [frameAround_eq, frameHead, List.append_assoc _ body,
    List.append_assoc _ (body ++ _)]
  exact slice_append _ (beBytes 6 ts.toNat) _ (by simp) (by simp)

theorem frame_crc8 :
    (frameAround cmd aid tid ts body crc8v).getD (body.length + 13) 0 = crc8v := by
  rw [frameAround_eq, List.append_assoc (_ ++ _)]
  exact getD_append_cons _ _ _ (by simp; omega)

theorem frame_crc16 : slice (frameAround cmd aid tid ts body crc8v) (body.length + 14) 2 =
    beBytes 2
      (crc16Ccitt (frameHead cmd aid tid ts ++ body ++ [crc8v]) 0x1021 0xFFFF).toNat := by
  rw [frameAround_eq, ← List.append_nil (_ ++ beBytes 2 _)]
  exact slice_append _ _ _ (by simp; omega) (by simp)

theorem frame_take : (frameAround cmd aid tid ts body crc8v).take (body.length + 14) =
    frameHead cmd aid tid ts ++ body ++ [crc8v] := by
  rw [frameAround_eq, List.take_left' (by simp; omega)]

theorem packetDecodeMin_frameAround :
    packetDecodeMin (frameAround cmd aid tid ts body crc8v) = some {
      cmd := cmd, routeCount := 1, sourceAid := aid, tid := tid
      timestampRaw := wireTimestamp ts, bodyOffset := 13, bodyLen := body.length
      crc8Ok := crc8 body 0x07 0x00 == crc8v, crc16Ok := true } := by
  have hlen := length_frameAround cmd aid tid ts body crc8v
  have hroute : (frameAround cmd aid tid ts body crc8v).getD 1 0 = 1 := by
    simp [frameAround_eq, frameHead]
  have htid : (frameAround cmd aid tid ts body crc8v).getD 6 0 = tid := by
    simp [frameAround_eq, frameHead, beBytes]
  have hts : UInt64.ofNat (beNat (beBytes 6 ts.toNat)) = wireTimestamp ts := by
    rw [beNat_beBytes]; rfl
  have h3 : body.length + 16 - 3 = body.length + 13 := by omega
  have h2 : body.length + 16 - 2 = body.length + 14 := by omega
  have hb : body.length + 16 - (2 + 1 * 4 + 7) - 3 = body.length := by omega
  have hcmd : (frameAround cmd aid tid ts body crc8v).getD 0 0 = cmd := by
    simp [frameAround_eq, frameHead]
  unfold packetDecodeMin
  rw [hlen, hroute, if_neg (by omega)]
  simp only [UInt8.toNat_one, hb, h3, h2, Nat.reduceAdd, Nat.reduceMul]
  rw [if_neg (by omega), htid, hcmd, frame_sourceAid, u32_beBytes, frame_timestamp, hts, frame_body,
    frame_crc8, frame_crc16, u16_beBytes, frame_take]
  simp

theorem packetDecodeMin_frame :
    packetDecodeMin (packetFrame cmd aid tid ts body) = some {
      cmd := cmd, routeCount := 1, sourceAid := aid, tid := tid
      timestampRaw := wireTimestamp ts, bodyOffset := 13, bodyLen := body.length
      crc8Ok := true, crc16Ok := true } := by
  rw [packetFrame_eq, packetDecodeMin_frameAround, beq_self_eq_true]

end

end Osfx
