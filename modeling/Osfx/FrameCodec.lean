import Osfx.SecurePacket

/-!
# Frames and the packets that are accepted

`packetEncodeEx_extract` is the round trip from a frame, plain or secure. The way back has
a gap: the receiver takes the route count from the packet, and a packet it accepts is the
frame of what it reports exactly if that count is the 1 that frames have
(`accepted_is_frame_iff`).
-/

namespace Osfx

open Numeral

/-! ## From a frame -/

theorem length_xorPayload (payload key : Bytes) (offset : UInt32) :
    (xorPayload payload key offset).length = payload.length := by
  unfold xorPayload
  split <;> simp

theorem xor_twice (a k o : UInt8) : a ^^^ k ^^^ o ^^^ k ^^^ o = a := by
  have hpairs : a ^^^ k ^^^ o ^^^ k ^^^ o = a ^^^ (k ^^^ k) ^^^ (o ^^^ o) := by ac_rfl
  rw [hpairs, UInt8.xor_self, UInt8.xor_self, UInt8.xor_zero, UInt8.xor_zero]

/-- Masking twice with the same key and offset gives the body back. -/
theorem xorPayload_xorPayload (payload key : Bytes) (offset : UInt32) :
    xorPayload (xorPayload payload key offset) key offset = payload := by
  unfold xorPayload
  by_cases hk : key = []
  · simp only [if_pos hk]
  · simp only [if_neg hk]
    apply List.ext_getElem
    · simp
    · intro i h1 h2
      simp only [List.getElem_mapIdx]
      exact xor_twice _ _ _

/-- The commands of plain data frames. -/
def dataCmds : List UInt8 := [Cmd.dataFull, Cmd.dataDiff, Cmd.dataHeart]

theorem dataCmds_cases {cmd : UInt8} (h : cmd ∈ dataCmds) :
    cmd = Cmd.dataFull ∨ cmd = Cmd.dataDiff ∨ cmd = Cmd.dataHeart := by
  simpa [dataCmds] using h

theorem normalize_of_data {cmd : UInt8} (h : cmd ∈ dataCmds) : cmdNormalizeData cmd = cmd := by
  rcases dataCmds_cases h with rfl | rfl | rfl
  · rfl
  · rfl
  · rfl

theorem normalize_secureVariant {cmd : UInt8} (h : cmd ∈ dataCmds) :
    cmdSecureVariant cmd ≠ cmdNormalizeData (cmdSecureVariant cmd) := by
  rcases dataCmds_cases h with rfl | rfl | rfl
  · decide
  · decide
  · decide

section
variable {cmd : UInt8} (aid : UInt32) (tid : UInt8) (ts : UInt64) (body key : Bytes)
  (secure : Bool)

/-- The command and the body as they stand in the frame. -/
def wireCmd (cmd : UInt8) (secure : Bool) : UInt8 := if secure then cmdSecureVariant cmd else cmd

def wireBody (body key : Bytes) (secure : Bool) : Bytes :=
  if secure then xorPayload body key (crc8 body 0x07 0x00 &&& 31).toUInt32 else body

theorem length_wireBody : (wireBody body key secure).length = body.length := by
  unfold wireBody
  split
  · exact length_xorPayload body key _
  · rfl

/-- A frame of a data command hands out its body and its fields. -/
theorem extract_frameAround (hcmd : cmd ∈ dataCmds) {outBodyCap : Nat}
    (hbody : body.length ≤ outBodyCap) :
    packetExtractBody (frameAround (wireCmd cmd secure) aid tid ts (wireBody body key secure)
        (crc8 body 0x07 0x00)) key outBodyCap = some (body, {
      cmd := wireCmd cmd secure, routeCount := 1, sourceAid := aid, tid := tid
      timestampRaw := wireTimestamp ts, bodyOffset := 13, bodyLen := body.length
      crc8Ok := true, crc16Ok := true }) := by
  have hmeta := packetDecodeMin_frameAround (wireCmd cmd secure) aid tid ts
    (wireBody body key secure) (crc8 body 0x07 0x00)
  have hslice := frame_body (wireCmd cmd secure) aid tid ts (wireBody body key secure)
    (crc8 body 0x07 0x00)
  have hrecv : crc8Recv (frameAround (wireCmd cmd secure) aid tid ts (wireBody body key secure)
      (crc8 body 0x07 0x00)) = crc8 body 0x07 0x00 := by
    have hlast := frame_crc8 (wireCmd cmd secure) aid tid ts (wireBody body key secure)
      (crc8 body 0x07 0x00)
    rw [crc8Recv, length_frameAround]
    exact hlast
  rw [length_wireBody] at hmeta hslice
  have hunmask : ∀ pm : PacketMeta, pm.cmd = wireCmd cmd secure → pm.bodyOffset = 13 →
      pm.bodyLen = body.length → unmaskedBody (frameAround (wireCmd cmd secure) aid tid ts
        (wireBody body key secure) (crc8 body 0x07 0x00)) pm key = body := by
    intro pm hc ho hl
    have hpm : pm.body (frameAround (wireCmd cmd secure) aid tid ts
        (wireBody body key secure) (crc8 body 0x07 0x00)) = wireBody body key secure := by
      rw [PacketMeta.body, ho, hl, hslice]
    unfold unmaskedBody
    rw [hpm, hrecv, hc]
    cases secure with
    | false => exact if_pos (normalize_of_data hcmd).symm
    | true =>
      exact (if_neg (normalize_secureVariant hcmd)).trans (xorPayload_xorPayload body key _)
  unfold packetExtractBody
  simp only [packetDecodeMeta, hmeta, Bool.true_eq_false, if_false, if_neg (Nat.not_lt.mpr hbody)]
  rw [hunmask _ rfl rfl rfl, hrecv]
  simp

/-- What is framed with a key is extracted with it; and a plain frame is the one of
`osfx_packet_encode_full`. -/
theorem packetEncodeEx_extract (hcmd : cmd ∈ dataCmds) {outCap outBodyCap : Nat}
    (hcap : body.length + 16 ≤ outCap) (hbody : body.length ≤ outBodyCap) :
    packetExtractBody (packetEncodeEx cmd aid tid ts body secure key outCap).1 key outBodyCap =
      some (body, {
        cmd := if secure then cmdSecureVariant cmd else cmd, routeCount := 1, sourceAid := aid
        tid := tid, timestampRaw := UInt64.ofNat (ts.toNat % 2 ^ 48), bodyOffset := 13
        bodyLen := body.length, crc8Ok := true, crc16Ok := true }) ∧
    packetEncodeEx cmd aid tid ts body false key outCap =
      packetEncodeFull cmd aid tid ts body outCap := by
  have hroom : ¬ outCap < 13 + body.length + 3 := by omega
  constructor
  · rw [packetEncodeEx, if_neg hroom]
    exact extract_frameAround aid tid ts body key secure hcmd hbody
  · rw [packetEncodeEx, packetEncodeFull, if_neg hroom, if_neg hroom]
    rfl

theorem secureDiff_extract :
    packetExtractBody (packetEncodeEx Cmd.dataDiff 7 2 8 (ascii "abc") true [1, 2] 64).1 [1, 2] 3 =
      some (ascii "abc", {
        cmd := if true then cmdSecureVariant Cmd.dataDiff else Cmd.dataDiff, routeCount := 1
        sourceAid := 7, tid := 2, timestampRaw := UInt64.ofNat ((8 : UInt64).toNat % 2 ^ 48)
        bodyOffset := 13, bodyLen := 3, crc8Ok := true, crc16Ok := true }) ∧
    packetEncodeEx Cmd.dataDiff 7 2 8 (ascii "abc") false [1, 2] 64 =
      packetEncodeFull Cmd.dataDiff 7 2 8 (ascii "abc") 64 :=
  packetEncodeEx_extract 7 2 8 (ascii "abc") [1, 2] true (by decide) (by decide) (by decide)

end

/-! ## From an accepted packet -/

theorem drop_eq_slice (p : Bytes) (off len : Nat) :
    p.drop off = slice p off len ++ p.drop (off + len) := by
  rw [slice, ← List.drop_drop, List.take_append_drop]

theorem slice_one {p : Bytes} {off : Nat} (h : off < p.length) :
    slice p off 1 = [p.getD off 0] := by
  have hget : p.getD off 0 = p[off] := by simp [h]
  rw [slice, List.drop_eq_getElem_cons h, hget]
  rfl

theorem length_slice {p : Bytes} {off len : Nat} (h : off + len ≤ p.length) :
    (slice p off len).length = len := by
  rw [slice, List.length_take, List.length_drop]
  omega

/-- What a packet that is given out has been checked for. -/
theorem packetExtractBody_some {packet key body : Bytes} {cap : Nat} {pm : PacketMeta}
    (h : packetExtractBody packet key cap = some (body, pm)) :
    ∃ read, packetDecodeMin packet = some read ∧ read.crc16Ok = true ∧
      body = unmaskedBody packet read key ∧ crc8 body 0x07 0x00 = crc8Recv packet ∧
      pm = { read with crc8Ok := true } := by
  unfold packetExtractBody at h
  split at h
  · cases h
  · rename_i read hread
    split at h
    · cases h
    rename_i h16
    split at h
    · cases h
    simp only at h
    split at h
    · cases h
    rename_i h8
    cases h
    exact ⟨read, hread, by simpa using h16, rfl, not_not.mp h8, rfl⟩

/-- The fields of a packet whose route count is 1. -/
theorem packetDecodeMin_routeOne {packet : Bytes} {pm : PacketMeta}
    (h : packetDecodeMin packet = some pm) (hroute : packet.getD 1 0 = 1) :
    16 ≤ packet.length ∧ pm.cmd = packet.getD 0 0 ∧
    pm.sourceAid = UInt32.ofNat (beNat (slice packet 2 4)) ∧ pm.tid = packet.getD 6 0 ∧
    pm.timestampRaw = UInt64.ofNat (beNat (slice packet 7 6)) ∧ pm.bodyOffset = 13 ∧
    pm.bodyLen = packet.length - 16 ∧
    pm.crc16Ok = (crc16Ccitt (packet.take (packet.length - 2)) 0x1021 0xFFFF ==
      UInt16.ofNat (beNat (slice packet (packet.length - 2) 2))) := by
  have hpm := decodedFrom_packet h
  have hone : pm.routeCount.toNat = 1 := by
    rw [hpm.routeCount, hroute]
    rfl
  have htid := hpm.tid
  have hts := hpm.timestampRaw
  have hoff := hpm.bodyOffset
  have hlen := hpm.bodyLen
  rw [hone] at htid hts hoff
  exact ⟨hpm.long, hpm.cmd, hpm.sourceAid, htid, hts, hoff, by omega, hpm.crc16Ok⟩

theorem beBytes_u32_slice {l : Bytes} (h : l.length = 4) :
    beBytes 4 (UInt32.ofNat (beNat l)).toNat = l := by
  have hlt := beNat_lt l
  have hback := beBytes_beNat l
  rw [h] at hlt hback
  rw [UInt32.toNat_ofNat', Nat.mod_eq_of_lt (by omega), hback]

theorem beBytes_u48_slice {l : Bytes} (h : l.length = 6) :
    beBytes 6 (UInt64.ofNat (beNat l)).toNat = l := by
  have hlt := beNat_lt l
  have hback := beBytes_beNat l
  rw [h] at hlt hback
  rw [UInt64.toNat_ofNat', Nat.mod_eq_of_lt (by omega), hback]

theorem beBytes_u16_slice {l : Bytes} (h : l.length = 2) :
    beBytes 2 (UInt16.ofNat (beNat l)).toNat = l := by
  have hlt := beNat_lt l
  have hback := beBytes_beNat l
  rw [h] at hlt hback
  rw [UInt16.toNat_ofNat', Nat.mod_eq_of_lt (by omega), hback]

/-- A packet of route count 1, cut at its fields. -/
theorem packet_split {packet : Bytes} (hlen : 16 ≤ packet.length)
    (hroute : packet.getD 1 0 = 1) :
    packet = [packet.getD 0 0, 1] ++ slice packet 2 4 ++ [packet.getD 6 0] ++ slice packet 7 6 ++
      slice packet 13 (packet.length - 16) ++ [packet.getD (packet.length - 3) 0] ++
      slice packet (packet.length - 2) 2 := by
  have hbody : 13 + (packet.length - 16) = packet.length - 3 := by omega
  have hcrc8 : packet.length - 3 + 1 = packet.length - 2 := by omega
  have hcrc16 : packet.length - 2 + 2 = packet.length := by omega
  have hend := drop_eq_slice packet (packet.length - 2) 2
  rw [hcrc16, List.drop_length, List.append_nil] at hend
  have h3 := drop_eq_slice packet (packet.length - 3) 1
  rw [slice_one (by omega), hcrc8, hend] at h3
  have h13 := drop_eq_slice packet 13 (packet.length - 16)
  rw [hbody, h3] at h13
  have h7 := drop_eq_slice packet 7 6
  rw [h13] at h7
  have h6 := drop_eq_slice packet 6 1
  rw [slice_one (by omega), h7] at h6
  have h2 := drop_eq_slice packet 2 4
  rw [h6] at h2
  have h1 := drop_eq_slice packet 1 1
  rw [slice_one (by omega), hroute, h2] at h1
  have h0 := drop_eq_slice packet 0 1
  rw [slice_one (by omega), h1, List.drop_zero] at h0
  simpa using h0

/-- A plain packet of route count 1 that is given out is the frame of what it reports. -/
theorem packet_eq_frame {packet key body : Bytes} {cap : Nat} {pm : PacketMeta}
    (h : packetExtractBody packet key cap = some (body, pm)) (hcmd : pm.cmd ∈ dataCmds)
    (hroute : packet.getD 1 0 = 1) :
    packetFrame pm.cmd pm.sourceAid pm.tid pm.timestampRaw body = packet := by
  obtain ⟨read, hread, h16, hbody, h8, rfl⟩ := packetExtractBody_some h
  obtain ⟨hlen, hc, ha, ht, hs, ho, hl, hcrc⟩ := packetDecodeMin_routeOne hread hroute
  have hplain : body = slice packet 13 (packet.length - 16) := by
    rw [hbody, unmaskedBody, if_pos (normalize_of_data hcmd).symm, PacketMeta.body, ho, hl]
  have hsplit := packet_split hlen hroute
  have hhead : frameHead read.cmd read.sourceAid read.tid read.timestampRaw ++ body ++
      [crc8 body 0x07 0x00] = [packet.getD 0 0, 1] ++ slice packet 2 4 ++ [packet.getD 6 0] ++
      slice packet 7 6 ++ slice packet 13 (packet.length - 16) ++
      [packet.getD (packet.length - 3) 0] := by
    rw [frameHead, hc, ha, ht, hs, beBytes_u32_slice (length_slice (by omega)),
      beBytes_u48_slice (length_slice (by omega)), h8, crc8Recv, hplain]
  have htail : (slice packet (packet.length - 2) 2).length = 2 := length_slice (by omega)
  have htake : packet.take (packet.length - 2) =
      frameHead read.cmd read.sourceAid read.tid read.timestampRaw ++ body ++
        [crc8 body 0x07 0x00] := by
    have hsum := congrArg List.length hsplit
    have hfront := congrArg (List.take (packet.length - 2)) hsplit
    rw [List.length_append, htail] at hsum
    rw [List.take_left' (by omega)] at hfront
    rw [hhead, hfront]
  have hseal : beBytes 2 (crc16Ccitt (frameHead read.cmd read.sourceAid read.tid
      read.timestampRaw ++ body ++ [crc8 body 0x07 0x00]) 0x1021 0xFFFF).toNat =
      slice packet (packet.length - 2) 2 := by
    rw [h16, htake, eq_comm, beq_iff_eq] at hcrc
    rw [hcrc, beBytes_u16_slice htail]
  rw [packetFrame_eq, frameAround_eq, hseal, hhead]
  exact hsplit.symm

/-- The places of `source_aid`, `tid` and the timestamp in a packet. -/
def aidPlaces : List Nat := List.range' 2 4
def tidPlaces (packet : Bytes) : List Nat := [2 + (packet.getD 1 0).toNat * 4]
def timestampPlaces (packet : Bytes) : List Nat :=
  List.range' (2 + (packet.getD 1 0).toNat * 4 + 1) 6

/-- The reported fields come from disjoint bytes, and framing them gives the packet back. -/
structure Canonical (packet body : Bytes) (pm : PacketMeta) : Prop where
  disjoint : (aidPlaces ++ tidPlaces packet ++ timestampPlaces packet).Nodup
  frame : ∀ outCap, packet.length ≤ outCap →
    (packetEncodeFull pm.cmd pm.sourceAid pm.tid pm.timestampRaw body outCap).1 = packet

theorem places_disjoint {packet : Bytes} (hroute : packet.getD 1 0 = 1) :
    (aidPlaces ++ tidPlaces packet ++ timestampPlaces packet).Nodup := by
  rw [tidPlaces, timestampPlaces, hroute]
  decide

/-- A plain packet that is given out is the frame of what it reports exactly if its route
count is 1. -/
theorem accepted_is_frame_iff {packet body : Bytes} {cap : Nat} {pm : PacketMeta}
    (h : packetExtractBody packet [] cap = some (body, pm)) (hcmd : pm.cmd ∈ dataCmds) :
    Canonical packet body pm ↔ packet.getD 1 0 = 1 := by
  constructor
  · intro hcan
    have hframe := hcan.frame (packet.length + body.length + 16) (by omega)
    rw [packetEncodeFull, if_neg (by omega)] at hframe
    rw [← hframe]
    rfl
  · intro hroute
    have hframe := packet_eq_frame h hcmd hroute
    refine ⟨places_disjoint hroute, fun outCap hcap => ?_⟩
    have hlen := congrArg List.length hframe
    rw [length_packetFrame] at hlen
    rw [packetEncodeFull, if_neg (by omega)]
    exact hframe

/-- Checked bytes and their CRC16. -/
def sealBytes (checked : Bytes) : Bytes :=
  checked ++ beBytes 2 (crc16Ccitt checked 0x1021 0xFFFF).toNat

/-- A FULL of route count 0, whose `tid` is the first byte of its `source_aid`. -/
def routeZeroPacket : Bytes :=
  sealBytes [63, 0, 1, 2, 3, 4, 5, 6, 7, 8, 9, 10, 11, crc8 [8, 9, 10, 11] 0x07 0x00]

def routeZeroMeta : PacketMeta :=
  { cmd := 63, routeCount := 0, sourceAid := 0x01020304, tid := 1
    timestampRaw := 0x020304050607, bodyOffset := 9, bodyLen := 4, crc8Ok := true
    crc16Ok := true }

theorem routeZero_accepted :
    packetExtractBody routeZeroPacket [] 64 = some ([8, 9, 10, 11], routeZeroMeta) := by
  decide +kernel

theorem routeZero_is_frame_iff :
    Canonical routeZeroPacket [8, 9, 10, 11] routeZeroMeta ↔ routeZeroPacket.getD 1 0 = 1 :=
  accepted_is_frame_iff routeZero_accepted (by decide)

theorem routeZero_not_canonical :
    packetExtractBody routeZeroPacket [] 64 = some ([8, 9, 10, 11], routeZeroMeta) ∧
    routeZeroMeta.cmd ∈ dataCmds ∧ ¬ Canonical routeZeroPacket [8, 9, 10, 11] routeZeroMeta := by
  refine ⟨routeZero_accepted, by decide, fun h => ?_⟩
  have hframe := h.frame 64 (by decide)
  revert hframe
  decide +kernel

end Osfx
