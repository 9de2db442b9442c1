import Osfx.FusionPacket

/-!
# Bodies of received packets

`osfx_payload_crypto.c`, `osfx_packet_encode_ex` and `osfx_packet_extract_body`: the body
of a secure frame is masked with the key and five bits of its own CRC8, and is given out
only if the CRC8 of what the key makes of it is the one the frame carries.
-/

namespace Osfx

/-- `osfx_xor_payload`. No key is an empty one. -/
def xorPayload (payload key : Bytes) (offset : UInt32) : Bytes :=
  let off := (offset &&& 31).toUInt8
  if key = [] then payload
  else payload.mapIdx fun i b => b ^^^ key.getD ((i + off.toNat) % key.length) 0 ^^^ off

/-- `osfx_packet_encode_ex`: the bytes written to `out` and the returned length. -/
def packetEncodeEx (cmd : UInt8) (sourceAid : UInt32) (tid : UInt8) (timestampRaw : UInt64)
    (body : Bytes) (secure : Bool) (key : Bytes) (outCap : Nat) : Bytes × Int :=
  if outCap < 13 + body.length + 3 then ([], 0)
  else
    let wireCmd := if secure then cmdSecureVariant cmd else cmd
    let crc8v := crc8 body 0x07 0x00
    let wireBody := if secure then xorPayload body key (crc8v &&& 31).toUInt32 else body
    let out := frameAround wireCmd sourceAid tid timestampRaw wireBody crc8v
    (out, castInt out.length)

/-- The CRC8 a packet carries. -/
def crc8Recv (packet : Bytes) : UInt8 := packet.getD (packet.length - 3) 0

/-- The body of a packet as it was before it was masked. -/
def unmaskedBody (packet : Bytes) (pm : PacketMeta) (key : Bytes) : Bytes :=
  if pm.cmd = cmdNormalizeData pm.cmd then pm.body packet
  else xorPayload (pm.body packet) key (crc8Recv packet &&& 31).toUInt32

/-- `osfx_packet_extract_body`: the body and the fields of a packet, where it returns 1. -/
def packetExtractBody (packet key : Bytes) (outBodyCap : Nat) : Option (Bytes × PacketMeta) :=
  match packetDecodeMeta packet with
  | none => none
  | some pm =>
    if pm.crc16Ok = false then none
    else if outBodyCap < pm.bodyLen then none
    else
      let body := unmaskedBody packet pm key
      if crc8 body 0x07 0x00 ≠ crc8Recv packet then none
      else some (body, { pm with crc8Ok := true })

theorem packetDecodeMeta_cmd {packet : Bytes} {pm : PacketMeta}
    (h : packetDecodeMeta packet = some pm) : pm.cmd = packet.getD 0 0 :=
  (decodedFrom_packet h).cmd

theorem packetDecodeMeta_bodyLen {packet : Bytes} {pm : PacketMeta}
    (h : packetDecodeMeta packet = some pm) : pm.bodyLen ≤ packet.length := by
  have hlen := (decodedFrom_packet h).bodyLen
  omega

/-- Into a buffer that is large enough, a body is given out if both checksums are right. -/
theorem packetExtractBody_isSome {packet key : Bytes} {pm : PacketMeta} {outBodyCap : Nat}
    (h : packetDecodeMeta packet = some pm) (hcap : pm.bodyLen ≤ outBodyCap) :
    (packetExtractBody packet key outBodyCap).isSome = true ↔
      pm.crc16Ok = true ∧ crc8 (unmaskedBody packet pm key) 0x07 0x00 = crc8Recv packet := by
  simp only [packetExtractBody, h]
  cases pm.crc16Ok with
  | false => simp
  | true =>
    simp only [Bool.true_eq_false, if_false, if_neg (Nat.not_lt.mpr hcap), true_and]
    by_cases hcrc : crc8 (unmaskedBody packet pm key) 0x07 0x00 = crc8Recv packet
    · rw [if_neg (not_not.mpr hcrc)]
      exact ⟨fun _ => hcrc, fun _ => rfl⟩
    · rw [if_pos hcrc]
      refine ⟨fun h => ?_, fun h => absurd h hcrc⟩
      cases h

end Osfx
