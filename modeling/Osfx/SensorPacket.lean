import Osfx.Base62
import Osfx.FrameCodec
import Osfx.SecureSession
import Osfx.TemplateGrammar
import Osfx.Tokens

/-!
# Packets of one sensor

The calls of `osfx_core_facade.c` for a single sensor: plain, secure and automatic. What
`osfx_standardize_value` makes of a value and a unit before it copies the unit out, the
value scaled to a `long long`, is a parameter.

A plain packet is read back as the sensor it was encoded from (`sensor_packet_read_back`).
A secure one is so exactly if its body has at most the 192 bytes of the decoder's buffer,
the encoder's having 256 (`secure_packet_read_back_iff`).
-/

namespace Osfx

open Numeral Text

/-- The arguments of an encode call. -/
structure SensorCall (V : Type) where
  sourceAid : UInt32
  tid : UInt8
  timestampRaw : UInt64
  sensorId : Bytes
  inputValue : V
  inputUnit : Bytes
  outPacketCap : Nat
  deriving DecidableEq, Repr

section
variable {V : Type} (resolve : V → Bytes → Int64 × Bytes)

/-- `osfx_standardize_value` with a unit buffer of `cap` bytes. -/
def standardizeValue (cap : Nat) (inputValue : V) (inputUnit : Bytes) : Option (Int64 × Bytes) :=
  let std := resolve inputValue inputUnit
  (copyText cap std.2).map fun stdUnit => (std.1, stdUnit)

/-- The body of the plain and the secure packet, if it fits its 256 bytes. -/
def sensorPacketBody (call : SensorCall V) : Option Bytes := do
  let (scaled, stdUnit) ← standardizeValue resolve 16 call.inputValue call.inputUnit
  let valueB62 ← b62EncodeI64 scaled 64
  let aidStr ← u32toa call.sourceAid 11
  let body := aidStr ++ ascii ".U." ++ b64urlTs6 call.timestampRaw ++ [bar] ++ call.sensorId ++
    ascii ">U." ++ stdUnit ++ [colon] ++ valueB62 ++ [bar]
  if 256 < body.length + 1 then none else some body

/-- `osfx_core_encode_sensor_packet`: the packet, where it returns 1. -/
def coreEncodeSensorPacket (call : SensorCall V) : Option Bytes := do
  let body ← sensorPacketBody resolve call
  let pkt := packetEncodeFull Cmd.dataFull call.sourceAid call.tid call.timestampRaw body
    call.outPacketCap
  if pkt.2 ≤ 0 then none else some (pkt.1.take pkt.2.toNat)

/-- `osfx_core_encode_sensor_packet_secure`: the packet, where it returns 1. -/
def coreEncodeSensorPacketSecure (store : SecureStore) (call : SensorCall V) : Option Bytes := do
  let key ← store.getKey call.sourceAid
  let body ← sensorPacketBody resolve call
  let pkt := packetEncodeEx Cmd.dataFull call.sourceAid call.tid call.timestampRaw body true
    key.toList call.outPacketCap
  if pkt.2 ≤ 0 then none else some (pkt.1.take pkt.2.toNat)

end

/-- What a decode hands out: `scaled` stands for the value computed from it. -/
structure SensorReading where
  sensorId : Bytes
  scaled : Int64
  unit : Bytes
  deriving DecidableEq, Repr

structure SensorCaps where
  sensorId : Nat
  unit : Nat
  deriving DecidableEq, Repr

/-- `osfx_core_decode_sensor_body`. -/
def coreDecodeSensorBody (body : Bytes) (caps : SensorCaps) : Option SensorReading := do
  let (_, p) ← cutFirst bar body
  let (sensorId, p) ← cutFirst gt p
  if sensorId = [] ∨ caps.sensorId < sensorId.length + 1 then none
  else
    let (_, p) ← cutFirst dot p
    let (unit, p) ← cutFirst colon p
    if unit = [] ∨ caps.unit < unit.length + 1 then none
    else
      let value := p.takeWhile (· ≠ bar)
      if value = [] ∨ 64 ≤ value.length then none
      else
        let scaled ← b62DecodeI64 (cString value)
        return ⟨sensorId, scaled, unit⟩

/-- `osfx_core_decode_sensor_packet_secure`. -/
def coreDecodeSensorPacketSecure (store : SecureStore) (packet : Bytes) (caps : SensorCaps) :
    Option (SensorReading × PacketMeta) := do
  let pm ← packetDecodeMeta packet
  let key ← store.getKey pm.sourceAid
  let (body, pm) ← packetExtractBody packet key.toList 192
  let reading ← coreDecodeSensorBody body caps
  return (reading, pm)

/-! ## The body -/

section
variable {V : Type} (resolve : V → Bytes → Int64 × Bytes) (call : SensorCall V)

/-- The scaled value and the standardised unit of a call. -/
def SensorCall.scaled : Int64 := (resolve call.inputValue call.inputUnit).1
def SensorCall.stdUnit : Bytes := (resolve call.inputValue call.inputUnit).2

/-- The body of a call, whatever its length. -/
def SensorCall.body : Bytes :=
  decimal call.sourceAid.toNat ++ ascii ".U." ++ b64urlTs6 call.timestampRaw ++ [bar] ++
    call.sensorId ++ ascii ">U." ++ call.stdUnit resolve ++ [colon] ++
    b62Numeral (call.scaled resolve) ++ [bar]

/-- What a decode is to hand out for the call. -/
def SensorCall.reading : SensorReading := ⟨call.sensorId, call.scaled resolve, call.stdUnit resolve⟩

/-- The sensor id and the unit are the ones the reader can find, and its buffers hold them. -/
structure SensorCall.Readable (caps : SensorCaps) : Prop where
  id_ne : call.sensorId ≠ []
  id_free : gt ∉ call.sensorId
  unit_ne : call.stdUnit resolve ≠ []
  unit_free : colon ∉ call.stdUnit resolve
  id_lt : call.sensorId.length < caps.sensorId
  unit_lt : (call.stdUnit resolve).length < caps.unit

variable {resolve call}

theorem standardizeValue_some {cap : Nat} {value : V} {unit : Bytes} {std : Int64 × Bytes}
    (h : standardizeValue resolve cap value unit = some std) :
    std = resolve value unit ∧ std.2.length < cap := by
  obtain ⟨stdUnit, hcopy, rfl⟩ := Option.map_eq_some_iff.mp h
  obtain ⟨rfl, hlen⟩ := copyText_some hcopy
  exact ⟨rfl, hlen⟩

theorem sensorPacketBody_some {body : Bytes} (h : sensorPacketBody resolve call = some body) :
    body = call.body resolve ∧ body.length ≤ 255 := by
  obtain ⟨std, hstd, h⟩ := Option.bind_eq_some_iff.mp h
  obtain ⟨valueB62, hvalue, h⟩ := Option.bind_eq_some_iff.mp h
  obtain ⟨aidStr, haid, h⟩ := Option.bind_eq_some_iff.mp h
  obtain ⟨rfl, -⟩ := standardizeValue_some hstd
  rw [b62EncodeI64_eq _ (by decide)] at hvalue
  rw [u32toa_eq] at haid
  cases hvalue
  cases haid
  simp only at h
  split at h
  · cases h
  · rename_i hroom
    cases h
    exact ⟨rfl, by omega⟩

theorem bar_not_mem_b64urlTs6 (timestampRaw : UInt64) : bar ∉ b64urlTs6 timestampRaw :=
  fun hb => absurd (mem_b64urlTs6 hb) (by decide)

/-- No header has a '|' in it. -/
theorem bar_not_mem_sensorHeader (n : Nat) (timestampRaw : UInt64) :
    bar ∉ decimal n ++ ascii ".U." ++ b64urlTs6 timestampRaw := by
  simp only [List.mem_append, not_or]
  exact ⟨⟨bar_not_mem_decimal n, by decide⟩, bar_not_mem_b64urlTs6 timestampRaw⟩

theorem bar_not_mem_numeral (value : Int64) : bar ∉ b62Numeral value :=
  fun hb => absurd (mem_b62Numeral hb) (by decide)

theorem nul_not_mem_numeral (value : Int64) : 0 ∉ b62Numeral value :=
  fun hb => absurd (mem_b62Numeral hb) (by decide)

/-- A token that is not empty and fits its buffer passes the check of its length. -/
theorem not_refused {cap : Nat} {token : Bytes} (hne : token ≠ []) (hlt : token.length < cap) :
    ¬ (token = [] ∨ cap < token.length + 1) := by
  rintro (hnil | hlong)
  · exact hne hnil
  · omega

/-- Each scan of the decoder stops at the separator the encoder has put there: the tokens
before it do not have it, whatever other separators are in the sensor id and the unit. -/
theorem coreDecodeSensorBody_body {caps : SensorCaps} (h : call.Readable resolve caps) :
    coreDecodeSensorBody (call.body resolve) caps = some (call.reading resolve) := by
  have hbody : call.body resolve =
      (decimal call.sourceAid.toNat ++ ascii ".U." ++ b64urlTs6 call.timestampRaw) ++ bar ::
        (call.sensorId ++ gt :: (ascii "U" ++ dot :: (call.stdUnit resolve ++ colon ::
          (b62Numeral (call.scaled resolve) ++ [bar])))) := by
    have hmiddle : ascii ">U." = gt :: (ascii "U" ++ [dot]) := rfl
    simp [SensorCall.body, hmiddle]
  have hheader := cutFirst_append (bar_not_mem_sensorHeader call.sourceAid.toNat call.timestampRaw)
    (call.sensorId ++ gt :: (ascii "U" ++ dot :: (call.stdUnit resolve ++ colon ::
      (b62Numeral (call.scaled resolve) ++ [bar]))))
  have hid := cutFirst_append h.id_free (ascii "U" ++ dot :: (call.stdUnit resolve ++ colon ::
    (b62Numeral (call.scaled resolve) ++ [bar])))
  have hstate := cutFirst_append (by decide : dot ∉ ascii "U") (call.stdUnit resolve ++ colon ::
    (b62Numeral (call.scaled resolve) ++ [bar]))
  have hunit := cutFirst_append h.unit_free (b62Numeral (call.scaled resolve) ++ [bar])
  have hvalue : (b62Numeral (call.scaled resolve) ++ [bar]).takeWhile (· ≠ bar) =
      b62Numeral (call.scaled resolve) := by
    rw [List.takeWhile_append_of_pos]
    · simp
    · intro b hb
      exact decide_eq_true fun hbar => bar_not_mem_numeral _ (hbar ▸ hb)
  have hlen := length_b62Numeral (call.scaled resolve)
  have hidok := not_refused h.id_ne h.id_lt
  have hunitok := not_refused h.unit_ne h.unit_lt
  have hvalueok : ¬ (b62Numeral (call.scaled resolve) = [] ∨
      64 ≤ (b62Numeral (call.scaled resolve)).length) := by
    rintro (hnil | hlt)
    · exact b62Numeral_ne_nil _ hnil
    · omega
  simp only [coreDecodeSensorBody, hbody, hheader, hid, hstate, hunit, hvalue, if_neg hidok,
    if_neg hunitok, if_neg hvalueok, cString_eq_self (nul_not_mem_numeral _),
    b62DecodeI64_numeral, Option.bind_eq_bind, Option.bind_some]
  rfl

/-! ## Plain packets -/

/-- What a call with a body does with it. -/
theorem coreEncodeSensorPacket_eq
    (hbody : sensorPacketBody resolve call = some (call.body resolve)) :
    coreEncodeSensorPacket resolve call =
      if call.outPacketCap < (call.body resolve).length + 16 then none
      else some (packetFrame Cmd.dataFull call.sourceAid call.tid call.timestampRaw
        (call.body resolve)) := by
  have hlen := (sensorPacketBody_some hbody).2
  have hframe := length_packetFrame Cmd.dataFull call.sourceAid call.tid call.timestampRaw
    (call.body resolve)
  simp only [coreEncodeSensorPacket, hbody, Option.bind_eq_bind, Option.bind_some]
  by_cases hroom : call.outPacketCap < 13 + (call.body resolve).length + 3
  · rw [if_pos (by omega : call.outPacketCap < (call.body resolve).length + 16)]
    simp only [packetEncodeFull, if_pos hroom, Int.le_refl, if_true]
  · have hsent := sent_frame (by omega : 0 < (packetFrame Cmd.dataFull call.sourceAid call.tid
      call.timestampRaw (call.body resolve)).length) (by omega)
    rw [if_neg (by omega : ¬ call.outPacketCap < (call.body resolve).length + 16), ← hsent]
    simp only [packetEncodeFull, if_neg hroom]

/-- A call that returns 1 has framed its body. -/
theorem coreEncodeSensorPacket_some {packet : Bytes}
    (h : coreEncodeSensorPacket resolve call = some packet) :
    packet = packetFrame Cmd.dataFull call.sourceAid call.tid call.timestampRaw
      (call.body resolve) ∧ (call.body resolve).length ≤ 255 := by
  have hsucceeds := h
  obtain ⟨body, hbody, -⟩ := Option.bind_eq_some_iff.mp h
  obtain ⟨rfl, hlen⟩ := sensorPacketBody_some hbody
  rw [coreEncodeSensorPacket_eq hbody, Option.ite_none_left_eq_some] at hsucceeds
  exact ⟨(Option.some.inj hsucceeds.2).symm, hlen⟩

/-- A plain packet is read back as the sensor it was encoded from. -/
theorem sensor_packet_read_back {packet : Bytes}
    (h : coreEncodeSensorPacket resolve call = some packet) {caps : SensorCaps}
    (hread : call.Readable resolve caps) (key : Bytes) {outBodyCap : Nat}
    (hcap : (call.body resolve).length ≤ outBodyCap) :
    ∃ body pm, packetExtractBody packet key outBodyCap = some (body, pm) ∧
      coreDecodeSensorBody body caps = some (call.reading resolve) := by
  obtain ⟨rfl, -⟩ := coreEncodeSensorPacket_some h
  have hextract := extract_frameAround call.sourceAid call.tid call.timestampRaw
    (call.body resolve) key false (by decide : Cmd.dataFull ∈ dataCmds) hcap
  exact ⟨_, _, hextract, coreDecodeSensorBody_body hread⟩

/-- A value in whole pascals, and a unit that is standardised already. -/
def pascals (value : Int64) (unit : Bytes) : Int64 × Bytes := (value * 10000, unit)

/-- A sensor whose id has every separator but '>'. -/
def separatorsCall : SensorCall Int64 :=
  ⟨77, 3, 1710000103, ascii "P.1|a:U.b|", 101325, ascii "Pa", 128⟩

theorem separatorsCall_readable : separatorsCall.Readable pascals ⟨32, 16⟩ := by
  constructor <;> decide +kernel

theorem separatorsCall_body :
    sensorPacketBody pascals separatorsCall = some (separatorsCall.body pascals) := by
  decide +kernel

theorem length_separatorsCall_body : (separatorsCall.body pascals).length = 37 := by
  decide +kernel

theorem separators_read_back :
    ∃ body pm, packetExtractBody (packetFrame Cmd.dataFull 77 3 1710000103
        (separatorsCall.body pascals)) [] 256 = some (body, pm) ∧
      coreDecodeSensorBody body ⟨32, 16⟩ = some (separatorsCall.reading pascals) := by
  have hencode := coreEncodeSensorPacket_eq separatorsCall_body
  have hlen := length_separatorsCall_body
  rw [hlen] at hencode
  exact sensor_packet_read_back hencode separatorsCall_readable [] (by omega)

/-! ## Secure packets -/

/-- The frame of a secure packet. -/
def SensorCall.secureFrame (resolve : V → Bytes → Int64 × Bytes) (call : SensorCall V)
    (key : Key) : Bytes :=
  frameAround (wireCmd Cmd.dataFull true) call.sourceAid call.tid call.timestampRaw
    (wireBody (call.body resolve) key.toList true) (crc8 (call.body resolve) 0x07 0x00)

theorem length_secureFrame (key : Key) :
    (call.secureFrame resolve key).length = (call.body resolve).length + 16 := by
  rw [SensorCall.secureFrame, length_frameAround, length_wireBody]

/-- What a call with a key and a body does with them. -/
theorem coreEncodeSensorPacketSecure_eq {store : SecureStore} {key : Key}
    (hkey : store.getKey call.sourceAid = some key)
    (hbody : sensorPacketBody resolve call = some (call.body resolve)) :
    coreEncodeSensorPacketSecure resolve store call =
      if call.outPacketCap < (call.body resolve).length + 16 then none
      else some (call.secureFrame resolve key) := by
  have hlen := (sensorPacketBody_some hbody).2
  have hframe : (call.secureFrame resolve key).length = (call.body resolve).length + 16 :=
    length_secureFrame key
  simp only [coreEncodeSensorPacketSecure, hkey, hbody, Option.bind_eq_bind, Option.bind_some]
  by_cases hroom : call.outPacketCap < 13 + (call.body resolve).length + 3
  · rw [if_pos (by omega : call.outPacketCap < (call.body resolve).length + 16)]
    simp only [packetEncodeEx, if_pos hroom, Int.le_refl, if_true]
  · have hpkt : packetEncodeEx Cmd.dataFull call.sourceAid call.tid call.timestampRaw
        (call.body resolve) true key.toList call.outPacketCap =
        (call.secureFrame resolve key, castInt (call.secureFrame resolve key).length) := by
      rw [packetEncodeEx, if_neg hroom]
      rfl
    have hsent := sent_frame (by omega : 0 < (call.secureFrame resolve key).length) (by omega)
    rw [if_neg (by omega : ¬ call.outPacketCap < (call.body resolve).length + 16), hpkt, ← hsent]

theorem coreEncodeSensorPacketSecure_some {store : SecureStore} {packet : Bytes}
    (h : coreEncodeSensorPacketSecure resolve store call = some packet) :
    ∃ key, store.getKey call.sourceAid = some key ∧ packet = call.secureFrame resolve key := by
  have hsucceeds := h
  obtain ⟨key, hkey, h⟩ := Option.bind_eq_some_iff.mp h
  obtain ⟨body, hbody, -⟩ := Option.bind_eq_some_iff.mp h
  obtain ⟨rfl, -⟩ := sensorPacketBody_some hbody
  rw [coreEncodeSensorPacketSecure_eq hkey hbody, Option.ite_none_left_eq_some] at hsucceeds
  exact ⟨key, hkey, (Option.some.inj hsucceeds.2).symm⟩

/-- What the decoder makes of a secure frame: it has the key, so only the body is left. -/
theorem coreDecodeSensorPacketSecure_secureFrame {store : SecureStore} {key : Key}
    (hkey : store.getKey call.sourceAid = some key) {caps : SensorCaps}
    (hread : call.Readable resolve caps) :
    (coreDecodeSensorPacketSecure store (call.secureFrame resolve key) caps).map Prod.fst =
      if 192 < (call.body resolve).length then none else some (call.reading resolve) := by
  have hmeta := packetDecodeMin_frameAround (wireCmd Cmd.dataFull true) call.sourceAid call.tid
    call.timestampRaw (wireBody (call.body resolve) key.toList true)
    (crc8 (call.body resolve) 0x07 0x00)
  rw [length_wireBody] at hmeta
  simp only [coreDecodeSensorPacketSecure, packetDecodeMeta, SensorCall.secureFrame, hmeta,
    Option.bind_eq_bind, Option.bind_some, hkey]
  by_cases hlong : 192 < (call.body resolve).length
  · have hrefused : packetExtractBody (call.secureFrame resolve key) key.toList 192 = none := by
      simp only [packetExtractBody, packetDecodeMeta, SensorCall.secureFrame, hmeta,
        Bool.true_eq_false, if_false, if_pos hlong]
    rw [SensorCall.secureFrame] at hrefused
    rw [if_pos hlong, hrefused]
    rfl
  · have hextract := extract_frameAround call.sourceAid call.tid call.timestampRaw
      (call.body resolve) key.toList true (by decide : Cmd.dataFull ∈ dataCmds)
      (Nat.le_of_not_lt hlong)
    simp only [if_neg hlong, hextract, Option.bind_some, coreDecodeSensorBody_body hread]
    rfl

/-- A secure packet is read back as the sensor it was encoded from exactly if its body fits
the buffer of the decoder. -/
theorem secure_packet_read_back_iff {store : SecureStore} {packet : Bytes}
    (h : coreEncodeSensorPacketSecure resolve store call = some packet) {caps : SensorCaps}
    (hread : call.Readable resolve caps) :
    (coreDecodeSensorPacketSecure store packet caps).map Prod.fst = some (call.reading resolve) ↔
      (call.body resolve).length ≤ 192 := by
  obtain ⟨key, hkey, rfl⟩ := coreEncodeSensorPacketSecure_some h
  rw [coreDecodeSensorPacketSecure_secureFrame hkey hread, Option.ite_none_left_eq_some]
  simp only [and_true, Nat.not_lt]

/-- The store after a plaintext frame of `77` and its confirmation. -/
def pairedStore : SecureStore :=
  (((secureStoreInit 3600).notePlaintextSent 77 1710000100 1710000101).1.confirmDict 77
    1710000100 1710000102).1

def pairedKey : Key := deriveKey 77 1710000100

theorem pairedStore_key : pairedStore.getKey 77 = some pairedKey := by decide +kernel

theorem separators_encoded :
    coreEncodeSensorPacketSecure pascals pairedStore separatorsCall =
      some (separatorsCall.secureFrame pascals pairedKey) := by
  rw [coreEncodeSensorPacketSecure_eq pairedStore_key separatorsCall_body,
    length_separatorsCall_body]
  rfl

theorem separators_secure_iff :
    (coreDecodeSensorPacketSecure pairedStore (separatorsCall.secureFrame pascals pairedKey)
        ⟨32, 16⟩).map Prod.fst = some (separatorsCall.reading pascals) ↔
      (separatorsCall.body pascals).length ≤ 192 :=
  secure_packet_read_back_iff separators_encoded separatorsCall_readable

/-- A sensor id that leaves a body of 200 bytes. -/
def longIdCall : SensorCall Int64 :=
  ⟨77, 3, 1710000103, List.replicate 173 120, 101325, ascii "Pa", 256⟩

theorem longIdCall_readable : longIdCall.Readable pascals ⟨256, 16⟩ := by
  constructor <;> decide +kernel

/-- The encoder lets the id through, and no caller's buffer helps the decoder. -/
theorem long_id_not_read_back :
    coreEncodeSensorPacketSecure pascals pairedStore longIdCall =
      some (longIdCall.secureFrame pascals pairedKey) ∧
    longIdCall.Readable pascals ⟨256, 16⟩ ∧
    (coreDecodeSensorPacketSecure pairedStore (longIdCall.secureFrame pascals pairedKey)
      ⟨256, 16⟩).map Prod.fst = none := by
  have hbody : sensorPacketBody pascals longIdCall = some (longIdCall.body pascals) := by
    decide +kernel
  have hlen : (longIdCall.body pascals).length = 200 := by decide +kernel
  have hcap : longIdCall.outPacketCap = 256 := rfl
  refine ⟨?_, longIdCall_readable, ?_⟩
  · rw [coreEncodeSensorPacketSecure_eq pairedStore_key hbody, hlen, hcap]
    rfl
  · rw [coreDecodeSensorPacketSecure_secureFrame pairedStore_key longIdCall_readable, hlen]
    rfl

end

end Osfx
