import Osfx.Base62
import Osfx.TemplateGrammar

/-!
# Multi-sensor packets

`osfx_core_encode_multi_sensor_packet_auto` and the decode that goes with it, of
`osfx_core_facade.c`, under the payload switches of the build. What
`osfx_standardize_value` makes of a value and a unit, scaled to a `long long`, is a
parameter; the decoder's outputs carry the scaled integer they are computed from.
-/

namespace Osfx

open Numeral Text

/-- `OSFX_CFG_PAYLOAD_DEVICE_ID` ... `OSFX_CFG_PAYLOAD_RESOURCE_URL`,
`OSFX_TMPL_MAX_SENSORS` and `OSFX_CFG_MULTI_SENSOR_BODY_CAP`. -/
structure CoreConfig where
  deviceId : Bool
  deviceStatus : Bool
  timestamp : Bool
  subTemplateId : Bool
  sensorId : Bool
  sensorStatus : Bool
  physicalAttribute : Bool
  normalizedValue : Bool
  exts : Extensions
  tmplMaxSensors : Nat
  bodyCap : Nat
  deriving DecidableEq, Repr

/-- `osfx_user_config.h`, and `osfx_build_config.h` for what it leaves open. -/
def CoreConfig.headerDefault : CoreConfig where
  deviceId := true
  deviceStatus := true
  timestamp := true
  subTemplateId := true
  sensorId := true
  sensorStatus := true
  physicalAttribute := false
  normalizedValue := true
  exts := ⟨false, true, false⟩
  tmplMaxSensors := 4
  bodyCap := 512

/-- An optional text is a pointer that may be NULL. -/
structure SensorInput (V : Type) where
  sensorId : Bytes
  sensorState : Bytes
  value : V
  unit : Bytes
  geohashId : Option Bytes
  supplementaryMessage : Option Bytes
  resourceUrl : Option Bytes
  deriving DecidableEq, Repr

structure MultiSensorCall (V : Type) where
  sourceAid : UInt32
  tid : UInt8
  timestampRaw : UInt64
  nodeId : Bytes
  nodeState : Bytes
  sensors : List (SensorInput V)
  outPacketCap : Nat
  deriving DecidableEq, Repr

section
variable {V : Type} (cfg : CoreConfig) (standardize : V → Bytes → Option (Int64 × Bytes))
variable {c : FusionSizes}

/-! ## osfx_core_encode_multi_sensor_packet_auto -/

/-- The text of a field that the build may not have. -/
def copyExtension (enabled : Bool) (cap : Nat) (src : Bytes) : Option Bytes :=
  if enabled then copyText cap src else some []

theorem copyExtension_some {enabled : Bool} {cap : Nat} {src text : Bytes}
    (h : copyExtension enabled cap src = some text) :
    text = (if enabled then src else []) ∧ (enabled = true → src.length < cap) := by
  unfold copyExtension at h
  cases enabled with
  | true =>
    obtain ⟨rfl, hlen⟩ := copyText_some h
    exact ⟨rfl, fun _ => hlen⟩
  | false =>
    cases h
    exact ⟨rfl, fun hoff => absurd hoff (by decide)⟩

/-- A text that is empty where the build does not have the field is handed on. -/
theorem copyExtension_of_lt {enabled : Bool} {cap : Nat} {src : Bytes} (h : src.length < cap)
    (hoff : enabled = false → src = []) : copyExtension enabled cap src = some src := by
  cases enabled with
  | true => exact copyText_of_lt h
  | false => rw [hoff rfl]; rfl

/-- The value token of a slot. -/
def valueToken (scaled : Int64) : Option Bytes :=
  if cfg.normalizedValue then
    (b62EncodeI64 scaled tmplValueMax).bind fun valB62 => copyText tmplValueMax valB62
  else copyText tmplValueMax (ascii "0")

/-- One turn of the sensor loop. -/
def fillSlot (s : SensorInput V) : Option SensorSlot := do
  let sensorId ← copyText tmplIdMax (if cfg.sensorId then s.sensorId else ascii "S")
  let sensorState ← copyText tmplStateMax (if cfg.sensorStatus then s.sensorState else ascii "NA")
  let (scaled, stdUnit) ← standardize s.value s.unit
  let sensorUnit ← copyText tmplUnitMax (if cfg.physicalAttribute then stdUnit else ascii "NA")
  let sensorValue ← valueToken cfg scaled
  let geohashId ← copyExtension cfg.exts.geohashId tmplGeohashMax (s.geohashId.getD [])
  let supplementaryMessage ←
    copyExtension cfg.exts.supplementaryMessage tmplMsgMax (s.supplementaryMessage.getD [])
  let resourceUrl ← copyExtension cfg.exts.resourceUrl tmplUrlMax (s.resourceUrl.getD [])
  return ⟨sensorId, sensorState, sensorUnit, sensorValue, geohashId, supplementaryMessage,
    resourceUrl⟩

/-- The copies of a turn that does not return 0. -/
structure SlotFilled (s : SensorInput V) (slot : SensorSlot) : Prop where
  id : copyText tmplIdMax (if cfg.sensorId then s.sensorId else ascii "S") = some slot.sensorId
  state : copyText tmplStateMax (if cfg.sensorStatus then s.sensorState else ascii "NA") =
    some slot.sensorState
  value : ∃ v, standardize s.value s.unit = some v ∧
    copyText tmplUnitMax (if cfg.physicalAttribute then v.2 else ascii "NA") =
      some slot.sensorUnit ∧
    valueToken cfg v.1 = some slot.sensorValue
  geohash : copyExtension cfg.exts.geohashId tmplGeohashMax (s.geohashId.getD []) =
    some slot.geohashId
  message : copyExtension cfg.exts.supplementaryMessage tmplMsgMax
    (s.supplementaryMessage.getD []) = some slot.supplementaryMessage
  url : copyExtension cfg.exts.resourceUrl tmplUrlMax (s.resourceUrl.getD []) =
    some slot.resourceUrl

theorem fillSlot_eq_some {s : SensorInput V} {slot : SensorSlot} :
    fillSlot cfg standardize s = some slot ↔ SlotFilled cfg standardize s slot := by
  constructor
  · intro h
    obtain ⟨id, hid, h⟩ := Option.bind_eq_some_iff.mp h
    obtain ⟨state, hstate, h⟩ := Option.bind_eq_some_iff.mp h
    obtain ⟨v, hv, h⟩ := Option.bind_eq_some_iff.mp h
    obtain ⟨unit, hunit, h⟩ := Option.bind_eq_some_iff.mp h
    obtain ⟨value, hvalue, h⟩ := Option.bind_eq_some_iff.mp h
    obtain ⟨geohash, hgeohash, h⟩ := Option.bind_eq_some_iff.mp h
    obtain ⟨message, hmessage, h⟩ := Option.bind_eq_some_iff.mp h
    obtain ⟨url, hurl, h⟩ := Option.bind_eq_some_iff.mp h
    cases h
    exact ⟨hid, hstate, ⟨v, hv, hunit, hvalue⟩, hgeohash, hmessage, hurl⟩
  · rintro ⟨hid, hstate, ⟨v, hv, hunit, hvalue⟩, hgeohash, hmessage, hurl⟩
    simp only [fillSlot, hid, hstate, hv, hunit, hvalue, hgeohash, hmessage, hurl,
      Option.bind_eq_bind, Option.bind_some]
    rfl

/-- The message a call writes, from the slots its sensors fill. -/
def effectiveMsg (call : MultiSensorCall V) (slots : List SensorSlot) : TemplateMsg where
  nodeId := if cfg.deviceId then call.nodeId else ascii "NODE"
  nodeState := if cfg.deviceStatus then call.nodeState else ascii "NA"
  tsToken := if cfg.timestamp then decimal call.timestampRaw.toNat else ascii "0"
  sensors := slots

/-- The body of a call, where none of the checks before `osfx_fusion_encode` fails. -/
def multiSensorBody (call : MultiSensorCall V) : Option Bytes :=
  if call.sensors.length = 0 ∨ cfg.tmplMaxSensors < call.sensors.length then none
  else do
    let slots ← call.sensors.mapM (fillSlot cfg standardize)
    templateEncode cfg.exts cfg.tmplMaxSensors (effectiveMsg cfg call slots) cfg.bodyCap

/-- The call of `osfx_fusion_encode` with that body. -/
def multiSensorFusionCall (call : MultiSensorCall V) (body : Bytes) : FusionCall where
  sourceAid := call.sourceAid
  tid := if cfg.subTemplateId then call.tid else 0
  timestampRaw := call.timestampRaw
  fullBody := body
  outPacketCap := call.outPacketCap

def coreEncodeMultiSensorPacketAuto (st : FusionState c) (call : MultiSensorCall V)
    (out : EncodeOut) : Option (EncodeResult c) :=
  match multiSensorBody cfg standardize call with
  | none => some ⟨false, st, out⟩
  | some body => fusionEncode st (multiSensorFusionCall cfg call body) out

/-! ## osfx_core_decode_multi_sensor_packet_auto -/

/-- `scaled` stands for the `value` computed from it. -/
structure SensorOutput where
  sensorId : Bytes
  sensorState : Bytes
  scaled : Int64
  unit : Bytes
  geohashId : Bytes
  supplementaryMessage : Bytes
  resourceUrl : Bytes
  deriving DecidableEq, Repr

/-- `out_node_id`, `out_node_state` and `out_sensors` up to `*out_sensor_count`. -/
structure MultiSensorOut where
  nodeId : Bytes
  nodeState : Bytes
  sensors : List SensorOutput
  deriving DecidableEq, Repr

/-- The capacities of the three outputs. -/
structure MultiSensorCaps where
  nodeId : Nat
  nodeState : Nat
  sensors : Nat
  deriving DecidableEq, Repr

/-- One turn of the loop over the decoded slots. -/
def readSlot (s : SensorSlot) : Option SensorOutput := do
  let scaled ← b62DecodeI64 s.sensorValue
  let sensorId ← copyText tmplIdMax s.sensorId
  let sensorState ← copyText tmplStateMax s.sensorState
  let unit ← copyText tmplUnitMax s.sensorUnit
  let geohashId ← copyExtension cfg.exts.geohashId tmplGeohashMax s.geohashId
  let supplementaryMessage ←
    copyExtension cfg.exts.supplementaryMessage tmplMsgMax s.supplementaryMessage
  let resourceUrl ← copyExtension cfg.exts.resourceUrl tmplUrlMax s.resourceUrl
  return ⟨sensorId, sensorState, scaled, unit, geohashId, supplementaryMessage, resourceUrl⟩

/-- The copies of a turn that does not return 0. -/
structure SlotCopied (s : SensorSlot) (out : SensorOutput) : Prop where
  scaled : b62DecodeI64 s.sensorValue = some out.scaled
  id : copyText tmplIdMax s.sensorId = some out.sensorId
  state : copyText tmplStateMax s.sensorState = some out.sensorState
  unit : copyText tmplUnitMax s.sensorUnit = some out.unit
  geohash : copyExtension cfg.exts.geohashId tmplGeohashMax s.geohashId = some out.geohashId
  message : copyExtension cfg.exts.supplementaryMessage tmplMsgMax s.supplementaryMessage =
    some out.supplementaryMessage
  url : copyExtension cfg.exts.resourceUrl tmplUrlMax s.resourceUrl = some out.resourceUrl

theorem readSlot_eq_some {s : SensorSlot} {out : SensorOutput} :
    readSlot cfg s = some out ↔ SlotCopied cfg s out := by
  constructor
  · intro h
    obtain ⟨scaled, hscaled, h⟩ := Option.bind_eq_some_iff.mp h
    obtain ⟨id, hid, h⟩ := Option.bind_eq_some_iff.mp h
    obtain ⟨state, hstate, h⟩ := Option.bind_eq_some_iff.mp h
    obtain ⟨unit, hunit, h⟩ := Option.bind_eq_some_iff.mp h
    obtain ⟨geohash, hgeohash, h⟩ := Option.bind_eq_some_iff.mp h
    obtain ⟨message, hmessage, h⟩ := Option.bind_eq_some_iff.mp h
    obtain ⟨url, hurl, h⟩ := Option.bind_eq_some_iff.mp h
    cases h
    exact ⟨hscaled, hid, hstate, hunit, hgeohash, hmessage, hurl⟩
  · rintro ⟨hscaled, hid, hstate, hunit, hgeohash, hmessage, hurl⟩
    simp only [readSlot, hscaled, hid, hstate, hunit, hgeohash, hmessage, hurl,
      Option.bind_eq_bind, Option.bind_some]
    rfl

/-- What is read from a body that `osfx_fusion_decode_apply` hands out. -/
def readMultiSensorBody (caps : MultiSensorCaps) (body : Bytes) : Option MultiSensorOut := do
  if cfg.bodyCap < body.length + 1 then none
  else
    let msg ← templateDecode cfg.exts cfg.tmplMaxSensors (cString body)
    let nodeId ← copyText caps.nodeId msg.nodeId
    let nodeState ← copyText caps.nodeState msg.nodeState
    if caps.sensors < msg.sensors.length then none
    else
      let sensors ← msg.sensors.mapM (readSlot cfg)
      return ⟨nodeId, nodeState, sensors⟩

/-- The state afterwards, and the outputs with the metadata on a return of 1. -/
structure MultiSensorResult (c : FusionSizes) where
  state : FusionState c
  out : Option (MultiSensorOut × PacketMeta)
  deriving DecidableEq

def coreDecodeMultiSensorPacketAuto (st : FusionState c) (packet : Bytes)
    (caps : MultiSensorCaps) : Option (MultiSensorResult c) :=
  (fusionDecodeApply st packet cfg.bodyCap).map fun d =>
    ⟨d.state, d.out.bind fun (body, pm) =>
      (readMultiSensorBody cfg caps body).map fun out => (out, pm)⟩

end

end Osfx
