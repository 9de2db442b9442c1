import Osfx.CoreFacade
import Osfx.Fusion.Bounds
import Osfx.SensorPacket

/-!
# The automatic path of one sensor

`osfx_core_encode_sensor_packet_auto` of `osfx_core_facade.c` writes its body with the
template renderer and sends it through the fusion layer. The body is the one the plain path
puts together byte by byte (`sensorAutoBody_some`), so the first packet of a stream is the
plain packet (`auto_starts_like_plain`).
-/

namespace Osfx

open Numeral Text

section
variable {V : Type} {c : FusionSizes} (exts : Extensions) (maxSensors : Nat)
variable (resolve : V → Bytes → Int64 × Bytes)

/-- The body of an automatic packet, where none of the checks before `osfx_fusion_encode`
fails. -/
def sensorAutoBody (call : SensorCall V) : Option Bytes := do
  let (scaled, stdUnit) ← standardizeValue resolve tmplUnitMax call.inputValue call.inputUnit
  let valueB62 ← b62EncodeI64 scaled tmplValueMax
  let aidStr ← u32toa call.sourceAid 11
  let sensorId ← copyText tmplIdMax call.sensorId
  let sensorState ← copyText tmplStateMax (ascii "U")
  let sensorUnit ← copyText tmplUnitMax stdUnit
  let sensorValue ← copyText tmplValueMax valueB62
  templateEncode exts maxSensors
    { nodeId := aidStr
      nodeState := ascii "U"
      tsToken := b64urlTs6 call.timestampRaw
      sensors := [⟨sensorId, sensorState, sensorUnit, sensorValue, [], [], []⟩] } 256

/-- The call of `osfx_fusion_encode` with that body. -/
def SensorCall.fusionCall (call : SensorCall V) (body : Bytes) : FusionCall :=
  ⟨call.sourceAid, call.tid, call.timestampRaw, body, call.outPacketCap⟩

/-- `osfx_core_encode_sensor_packet_auto`. -/
def coreEncodeSensorPacketAuto (st : FusionState c) (call : SensorCall V) (out : EncodeOut) :
    Option (EncodeResult c) :=
  match sensorAutoBody exts maxSensors resolve call with
  | none => some ⟨false, st, out⟩
  | some body => fusionEncode st (call.fusionCall body) out

variable {exts maxSensors resolve} {call : SensorCall V}

/-- The renderer's text of the one slot: no extension is set, so the build's do not matter. -/
theorem oneSlot_text (exts : Extensions) (aidStr sensorId stdUnit valueB62 tsToken : Bytes) :
    (⟨aidStr, ascii "U", tsToken, [⟨sensorId, ascii "U", stdUnit, valueB62, [], [], []⟩]⟩ :
      TemplateMsg).text exts = aidStr ++ ascii ".U." ++ tsToken ++ [bar] ++ sensorId ++
        ascii ">U." ++ stdUnit ++ [colon] ++ valueB62 ++ [bar] := by
  have hstatus : ascii ".U." = dot :: (ascii "U" ++ [dot]) := rfl
  have hstate : ascii ">U." = gt :: (ascii "U" ++ [dot]) := rfl
  simp [TemplateMsg.text, TemplateMsg.header, SensorSlot.text, SensorSlot.valueText,
    extensionItems, itemsText, ended, hstatus, hstate]

/-- The fusion call of a body that passes the checks. -/
def SensorCall.fullCall (resolve : V → Bytes → Int64 × Bytes) (call : SensorCall V) : FusionCall :=
  call.fusionCall (call.body resolve)

/-- Both paths write the same body. -/
theorem sensorAutoBody_some {body : Bytes}
    (h : sensorAutoBody exts maxSensors resolve call = some body) :
    body = call.body resolve ∧ body.length ≤ 255 := by
  obtain ⟨std, hstd, h⟩ := Option.bind_eq_some_iff.mp h
  obtain ⟨valueB62, hvalue, h⟩ := Option.bind_eq_some_iff.mp h
  obtain ⟨aidStr, haid, h⟩ := Option.bind_eq_some_iff.mp h
  obtain ⟨sensorId, hid, h⟩ := Option.bind_eq_some_iff.mp h
  obtain ⟨sensorState, hstate, h⟩ := Option.bind_eq_some_iff.mp h
  obtain ⟨sensorUnit, hunit, h⟩ := Option.bind_eq_some_iff.mp h
  obtain ⟨sensorValue, hcopied, hencode⟩ := Option.bind_eq_some_iff.mp h
  obtain ⟨rfl, -⟩ := standardizeValue_some hstd
  obtain ⟨rfl, -⟩ := copyText_some hid
  obtain ⟨rfl, -⟩ := copyText_some hstate
  obtain ⟨rfl, -⟩ := copyText_some hunit
  obtain ⟨rfl, -⟩ := copyText_some hcopied
  rw [b62EncodeI64_eq _ (by decide)] at hvalue
  rw [u32toa_eq] at haid
  cases hvalue
  cases haid
  rw [templateEncode_eq, oneSlot_text] at hencode
  split at hencode
  · rename_i hfits
    cases hencode
    exact ⟨rfl, by omega⟩
  · cases hencode

/-- A call that returns 1 has encoded the body of the plain path. -/
theorem coreEncodeSensorPacketAuto_some {st : FusionState c} {out : EncodeOut}
    {r : EncodeResult c}
    (h : coreEncodeSensorPacketAuto exts maxSensors resolve st call out = some r)
    (hret : r.ret = true) :
    fusionEncode st (call.fullCall resolve) out = some r ∧
      (call.body resolve).length ≤ 255 := by
  unfold coreEncodeSensorPacketAuto at h
  cases hbody : sensorAutoBody exts maxSensors resolve call with
  | none =>
    rw [hbody] at h
    cases h
    cases hret
  | some body =>
    rw [hbody] at h
    obtain ⟨rfl, hlen⟩ := sensorAutoBody_some hbody
    exact ⟨h, hlen⟩

/-- The first packet of a stream is the packet of the plain path. -/
theorem auto_starts_like_plain {st : FusionState c}
    (hnew : findEntry st call.sourceAid call.tid = none) {packet : Bytes}
    (hplain : coreEncodeSensorPacket resolve call = some packet) {out : EncodeOut}
    {r : EncodeResult c}
    (hauto : coreEncodeSensorPacketAuto exts maxSensors resolve st call out = some r)
    (hret : r.ret = true) :
    r.out.packet = packet ∧ r.out.outCmd = Cmd.dataFull := by
  obtain ⟨rfl, hlen⟩ := coreEncodeSensorPacket_some hplain
  obtain ⟨hencode, -⟩ := coreEncodeSensorPacketAuto_some hauto hret
  obtain ⟨st', rfl⟩ := fusionEncode_newStream hnew hencode hret
  have hint : (call.body resolve).length + 16 < 2 ^ 31 := by omega
  exact ⟨sendFrame_frame hret hint, sendFrame_outCmd hret⟩

end

/-- A body of which the slot parser can cache nothing. -/
theorem separators_start_alike : ∃ r, coreEncodeSensorPacketAuto
      CoreConfig.headerDefault.exts CoreConfig.headerDefault.tmplMaxSensors pascals
      (fusionStateInit FusionSizes.headerDefault) separatorsCall ⟨[], 0, 0⟩ = some r ∧
    r.out.packet = packetFrame Cmd.dataFull 77 3 1710000103 (separatorsCall.body pascals) ∧
    r.out.outCmd = Cmd.dataFull := by
  have hnew : findEntry (fusionStateInit FusionSizes.headerDefault) separatorsCall.sourceAid
      separatorsCall.tid = none := by decide +kernel
  have hplain := coreEncodeSensorPacket_eq separatorsCall_body
  rw [length_separatorsCall_body] at hplain
  have hauto : (coreEncodeSensorPacketAuto CoreConfig.headerDefault.exts
      CoreConfig.headerDefault.tmplMaxSensors pascals
      (fusionStateInit FusionSizes.headerDefault) separatorsCall ⟨[], 0, 0⟩).map
        EncodeResult.ret = some true := by decide +kernel
  obtain ⟨r, hr, hret⟩ := Option.map_eq_some_iff.mp hauto
  exact ⟨r, hr, auto_starts_like_plain hnew hplain hr hret⟩

end Osfx
