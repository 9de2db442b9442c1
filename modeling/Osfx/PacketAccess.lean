import Mathlib.Data.List.GetD
import Osfx.FrameCodec
import Osfx.Lib.Access

/-!
# What frame parsing reads

`osfx_packet_decode_min`, `osfx_packet_decode_meta` and `osfx_packet_extract_body`, one access
at a time: an index that is not in its buffer and a subtraction that underflows are faults.
The length of the header is up to a byte of the packet, and the two checks of the length come
before everything that depends on it. So there is no fault for any packet
(`frame_parsing_within`), and `packetDecodeMin`, `packetDecodeMeta` and `packetExtractBody`,
where a list is read with a default and a difference stops at 0, are what is computed.

The sums are those of natural numbers: with a route count of a byte the header ends at 1029,
and an index into a body is below the length of a packet.
-/

namespace Osfx

open Access Numeral

/-- The buffers `osfx_packet_extract_body` is called with. -/
inductive PacketBuffer where
  | packet
  | key
  | outBody
  deriving DecidableEq, Repr

def PacketBuffer.size (packet key : Bytes) (outBodyCap : Nat) : PacketBuffer → Nat
  | .packet => packet.length
  | .key => key.length
  | .outBody => outBodyCap

def packetDecodeMinChecked (packet : Bytes) : Access PacketBuffer (Option PacketMeta) :=
  if packet.length < 16 then pure none
  else do
    let routeCount ← readAt .packet packet 1
    let tidPos := 2 + routeCount.toNat * 4
    if packet.length < tidPos + 1 + 6 + 3 then pure none
    else do
      let bodyOff := tidPos + 7
      let bodyLen ← usub (← usub packet.length bodyOff) 3
      let crc8Recv ← readAt .packet packet (← usub packet.length 3)
      let body ← readSlice .packet packet bodyOff bodyLen
      let hi ← readAt .packet packet (← usub packet.length 2)
      let lo ← readAt .packet packet (← usub packet.length 1)
      let front ← readSlice .packet packet 0 (← usub packet.length 2)
      let ts ← readSlice .packet packet (tidPos + 1) 6
      let cmd ← readAt .packet packet 0
      let aid ← readSlice .packet packet 2 4
      let tid ← readAt .packet packet tidPos
      pure (some {
        cmd := cmd
        routeCount := routeCount
        sourceAid := UInt32.ofNat (beNat aid)
        tid := tid
        timestampRaw := UInt64.ofNat (beNat ts)
        bodyOffset := bodyOff
        bodyLen := bodyLen
        crc8Ok := crc8 body 0x07 0x00 == crc8Recv
        crc16Ok := crc16Ccitt front 0x1021 0xFFFF == UInt16.ofNat (beNat [hi, lo]) })

def packetDecodeMetaChecked (packet : Bytes) : Access PacketBuffer (Option PacketMeta) :=
  packetDecodeMinChecked packet

/-- `memcpy` of the body into `out_body`. -/
def copyBodyChecked (packet : Bytes) (off len : Nat) : Access PacketBuffer Bytes :=
  each (fun i => do
    let b ← readAt .packet packet (off + i)
    writeAt .outBody i
    pure b) len

/-- `osfx_xor_payload` of the body into `out_body`. -/
def xorPayloadChecked (packet : Bytes) (base len : Nat) (key : Bytes) (offset : UInt32) :
    Access PacketBuffer Bytes :=
  let off := (offset &&& 31).toUInt8
  if key = [] then copyBodyChecked packet base len
  else
    each (fun i => do
      let b ← readAt .packet packet (base + i)
      let k ← readAt .key key ((i + off.toNat) % key.length)
      writeAt .outBody i
      pure (b ^^^ k ^^^ off)) len

def unmaskedBodyChecked (packet : Bytes) (pm : PacketMeta) (key : Bytes) (crc8Recv : UInt8) :
    Access PacketBuffer Bytes :=
  if pm.cmd = cmdNormalizeData pm.cmd then copyBodyChecked packet pm.bodyOffset pm.bodyLen
  else xorPayloadChecked packet pm.bodyOffset pm.bodyLen key (crc8Recv &&& 31).toUInt32

/-- The CRC8 is the one of `out_body`, read back. -/
def packetExtractBodyChecked (packet key : Bytes) (outBodyCap : Nat) :
    Access PacketBuffer (Option (Bytes × PacketMeta)) := do
  match ← packetDecodeMetaChecked packet with
  | none => pure none
  | some pm =>
    if pm.crc16Ok = false then pure none
    else if outBodyCap < pm.bodyLen then pure none
    else do
      let crc8Recv ← readAt .packet packet (← usub packet.length 3)
      let body ← unmaskedBodyChecked packet pm key crc8Recv
      let written ← readSlice .outBody body 0 pm.bodyLen
      if crc8 written 0x07 0x00 ≠ crc8Recv then pure none
      else pure (some (body, { pm with crc8Ok := true }))

theorem slice_two {p : Bytes} {off : Nat} (h : off + 2 ≤ p.length) :
    slice p off 2 = [p.getD off 0, p.getD (off + 1) 0] := by
  rw [slice, List.drop_eq_getElem_cons (by omega), List.drop_eq_getElem_cons (by omega),
    List.getD_eq_getElem _ _ (by omega), List.getD_eq_getElem _ _ (by omega)]
  rfl

theorem getElem_slice {p : Bytes} {off len i : Nat} (h : off + len ≤ p.length)
    (hi : i < (slice p off len).length) : (slice p off len)[i] = p.getD (off + i) 0 := by
  rw [length_slice h] at hi
  simp only [slice]
  rw [List.getElem_take, List.getElem_drop, List.getD_eq_getElem _ _ (by omega)]

section
variable {size : PacketBuffer → Nat} {packet key : Bytes}

theorem yields_readByte {r : PacketBuffer} {buf : Bytes} (hbuf : buf.length ≤ size r) {i : Nat}
    (h : i < buf.length) : Yields size (readAt r buf i) (buf.getD i 0) := by
  apply yields_readAt
  · rw [List.getD_eq_getElem _ _ h, List.getElem?_eq_getElem h]
  · omega

theorem yields_packetDecodeMin (hpacket : packet.length ≤ size .packet) :
    Yields size (packetDecodeMinChecked packet) (packetDecodeMin packet) := by
  unfold packetDecodeMinChecked packetDecodeMin
  by_cases hshort : packet.length < 16
  · rw [if_pos hshort, if_pos hshort]
    exact yields_pure none
  rw [if_neg hshort, if_neg hshort]
  apply (yields_readByte hpacket (by omega)).bind
  generalize packet.getD 1 0 = routeCount
  by_cases hroute : packet.length < 2 + routeCount.toNat * 4 + 1 + 6 + 3
  · simp only [if_pos hroute]
    exact yields_pure none
  simp only [if_neg hroute]
  -- the length of the body
  apply (yields_usub (by omega)).bind
  apply (yields_usub (by omega)).bind
  -- the CRC8 and the body
  apply (yields_usub (by omega)).bind
  apply (yields_readByte hpacket (by omega)).bind
  apply (yields_readSlice (by omega) hpacket).bind
  -- the CRC16 and what it covers
  apply (yields_usub (by omega)).bind
  apply (yields_readByte hpacket (by omega)).bind
  apply (yields_usub (by omega)).bind
  apply (yields_readByte hpacket (by omega)).bind
  apply (yields_usub (by omega)).bind
  apply (yields_readSlice (by omega) hpacket).bind
  -- the fields of the header
  apply (yields_readSlice (by omega) hpacket).bind
  apply (yields_readByte hpacket (by omega)).bind
  apply (yields_readSlice (by omega) hpacket).bind
  apply (yields_readByte hpacket (by omega)).bind
  have hlast : packet.length - 1 = packet.length - 2 + 1 := by omega
  rw [slice_two (by omega), ← hlast]
  exact yields_pure _

theorem yields_packetDecodeMeta (hpacket : packet.length ≤ size .packet) :
    Yields size (packetDecodeMetaChecked packet) (packetDecodeMeta packet) :=
  yields_packetDecodeMin hpacket

/-- A loop over a part of the packet that makes a byte of `out_body` from each byte. -/
theorem yields_eachByte {off len : Nat} (h : off + len ≤ packet.length)
    {f : Nat → Access PacketBuffer UInt8} {g : Nat → UInt8 → UInt8}
    (hf : ∀ i < len, Yields size (f i) (g i (packet.getD (off + i) 0))) :
    Yields size (each f len) ((slice packet off len).mapIdx g) := by
  have hlen : ((slice packet off len).mapIdx g).length = len := by
    rw [List.length_mapIdx, length_slice h]
  apply yields_each hlen
  intro i hi
  rw [List.getElem_mapIdx, getElem_slice h]
  exact hf i (by omega)

theorem yields_copyBody {off len : Nat} (hpacket : packet.length ≤ size .packet)
    (h : off + len ≤ packet.length) (hout : len ≤ size .outBody) :
    Yields size (copyBodyChecked packet off len) (slice packet off len) := by
  have hsame : (slice packet off len).mapIdx (fun _ b => b) = slice packet off len := by
    apply List.ext_getElem <;> simp
  rw [← hsame]
  apply yields_eachByte h
  intro i hi
  apply (yields_readByte hpacket (by omega)).bind
  exact (yields_writeAt (by omega)).bind (yields_pure _)

theorem yields_xorPayload {base len : Nat} (offset : UInt32)
    (hpacket : packet.length ≤ size .packet) (hkey : key.length ≤ size .key)
    (h : base + len ≤ packet.length) (hout : len ≤ size .outBody) :
    Yields size (xorPayloadChecked packet base len key offset)
      (xorPayload (slice packet base len) key offset) := by
  unfold xorPayloadChecked xorPayload
  by_cases hnone : key = []
  · simp only [if_pos hnone]
    exact yields_copyBody hpacket h hout
  simp only [if_neg hnone]
  apply yields_eachByte h
  intro i hi
  have hin : (i + (offset &&& 31).toUInt8.toNat) % key.length < key.length :=
    Nat.mod_lt _ (List.length_pos_of_ne_nil hnone)
  apply (yields_readByte hpacket (by omega)).bind
  apply (yields_readByte hkey hin).bind
  exact (yields_writeAt (by omega)).bind (yields_pure _)

theorem length_unmaskedBody {pm : PacketMeta} (h : pm.bodyOffset + pm.bodyLen ≤ packet.length) :
    (unmaskedBody packet pm key).length = pm.bodyLen := by
  unfold unmaskedBody
  split
  · exact length_slice h
  · rw [length_xorPayload]
    exact length_slice h

theorem yields_unmaskedBody {pm : PacketMeta} (hpacket : packet.length ≤ size .packet)
    (hkey : key.length ≤ size .key) (h : pm.bodyOffset + pm.bodyLen ≤ packet.length)
    (hout : pm.bodyLen ≤ size .outBody) :
    Yields size (unmaskedBodyChecked packet pm key (crc8Recv packet))
      (unmaskedBody packet pm key) := by
  unfold unmaskedBodyChecked unmaskedBody
  split
  · exact yields_copyBody hpacket h hout
  · exact yields_xorPayload _ hpacket hkey h hout

/-- `out_body` has the capacity that is passed with it. -/
theorem yields_packetExtractBody {outBodyCap : Nat} (hpacket : packet.length ≤ size .packet)
    (hkey : key.length ≤ size .key) (hout : outBodyCap ≤ size .outBody) :
    Yields size (packetExtractBodyChecked packet key outBodyCap)
      (packetExtractBody packet key outBodyCap) := by
  unfold packetExtractBodyChecked packetExtractBody
  apply (yields_packetDecodeMeta hpacket).bind
  cases hmeta : packetDecodeMeta packet with
  | none => exact yields_pure none
  | some pm =>
    have hlayout := (decodedFrom_packet hmeta).bodyLen
    by_cases hcrc16 : pm.crc16Ok = false
    · simp only [if_pos hcrc16]
      exact yields_pure none
    by_cases hcap : outBodyCap < pm.bodyLen
    · simp only [if_neg hcrc16, if_pos hcap]
      exact yields_pure none
    simp only [if_neg hcrc16, if_neg hcap]
    apply (yields_usub (by omega)).bind
    apply (yields_readByte hpacket (by omega)).bind
    apply (yields_unmaskedBody hpacket hkey (by omega) (by omega)).bind
    have hlen : (unmaskedBody packet pm key).length = pm.bodyLen :=
      length_unmaskedBody (by omega)
    apply (yields_readSlice (by omega) (by omega)).bind
    rw [List.drop_zero, List.take_of_length_le (by omega), ← crc8Recv]
    split
    · exact yields_pure none
    · exact yields_pure _

end

/-- For every packet, key and capacity, the three functions get through with the results of the
model: they use indices inside the buffers only, and no subtraction underflows. A packet that is
decoded is a header of the length its route count says, the body and three bytes of checksums. -/
theorem frame_parsing_within (packet key : Bytes) (outBodyCap : Nat) :
    Yields (PacketBuffer.size packet key outBodyCap) (packetDecodeMinChecked packet)
        (packetDecodeMin packet) ∧
      Yields (PacketBuffer.size packet key outBodyCap) (packetDecodeMetaChecked packet)
        (packetDecodeMeta packet) ∧
      Yields (PacketBuffer.size packet key outBodyCap)
        (packetExtractBodyChecked packet key outBodyCap)
        (packetExtractBody packet key outBodyCap) ∧
      ∀ pm, (packetDecodeMin packet = some pm ∨ packetDecodeMeta packet = some pm ∨
          ∃ body, packetExtractBody packet key outBodyCap = some (body, pm)) →
        pm.bodyOffset + pm.bodyLen + 3 = packet.length ∧
          pm.bodyOffset = 9 + 4 * pm.routeCount.toNat := by
  have hpacket : packet.length ≤ PacketBuffer.size packet key outBodyCap .packet := Nat.le_refl _
  have hkey : key.length ≤ PacketBuffer.size packet key outBodyCap .key := Nat.le_refl _
  have hout : outBodyCap ≤ PacketBuffer.size packet key outBodyCap .outBody := Nat.le_refl _
  refine ⟨yields_packetDecodeMin hpacket, yields_packetDecodeMeta hpacket,
    yields_packetExtractBody hpacket hkey hout, ?_⟩
  rintro pm (hmin | hmeta | ⟨body, hbody⟩)
  · have hpm := decodedFrom_packet hmin
    exact ⟨hpm.bodyLen, hpm.bodyOffset⟩
  · have hpm := decodedFrom_packet hmeta
    exact ⟨hpm.bodyLen, hpm.bodyOffset⟩
  · obtain ⟨read, hmin, -, -, -, rfl⟩ := packetExtractBody_some hbody
    have hpm := decodedFrom_packet hmin
    exact ⟨hpm.bodyLen, hpm.bodyOffset⟩

end Osfx
