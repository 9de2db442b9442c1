import Osfx.MultiSensor
import Osfx.SlotAgreement
import Osfx.TemplateDecoded

/-!
# Messages that forge other fields

The supplementary message of a sensor stands between separators in the text of the packet,
and `osfx_core_encode_multi_sensor_packet_auto` checks no more than its length. Two calls
that differ in one message are compared by what the other side reads. Where nothing but
that message can differ, and it arrives as it was given, none of the two has a '|', '#', '!'
or '@'; and where the rest of the call is readable, that is enough (`message_not_forging_iff`).
-/

namespace Osfx

open Collect Numeral Text

/-! ## Two calls that differ in a message -/

section
variable {V : Type}

/-- A sensor with another message. -/
def SensorInput.withMessage (message : Option Bytes) (s : SensorInput V) : SensorInput V :=
  { s with supplementaryMessage := message }

/-- The call with this message of sensor `i`. -/
def MultiSensorCall.withMessage (call : MultiSensorCall V) (i : Nat) (message : Option Bytes) :
    MultiSensorCall V :=
  { call with sensors := call.sensors.modify i (SensorInput.withMessage message) }

def SensorSlot.withoutMessage (s : SensorSlot) : SensorSlot :=
  { s with supplementaryMessage := [] }

def SensorOutput.withoutMessage (s : SensorOutput) : SensorOutput :=
  { s with supplementaryMessage := [] }

/-- What is read, all but the message of sensor `i`. -/
def MultiSensorOut.withoutMessage (i : Nat) (out : MultiSensorOut) : MultiSensorOut :=
  { out with sensors := out.sensors.modify i SensorOutput.withoutMessage }

/-- The message read for sensor `i`. -/
def MultiSensorOut.message (i : Nat) (out : MultiSensorOut) : Option Bytes :=
  out.sensors[i]?.map SensorOutput.supplementaryMessage

/-- Two packets are read alike up to the message of sensor `i`, and that one, where the
build has it, as it was given. -/
structure NotForging (cfg : CoreConfig) (i : Nat) (message message' : Option Bytes)
    (out out' : Option MultiSensorOut) : Prop where
  rest : out.map (MultiSensorOut.withoutMessage i) = out'.map (MultiSensorOut.withoutMessage i)
  carried : cfg.exts.supplementaryMessage = true →
    out.bind (MultiSensorOut.message i) = some (message.getD []) ∧
      out'.bind (MultiSensorOut.message i) = some (message'.getD [])

/-- Neither message has a character that ends one. -/
def BothUnmarked (cfg : CoreConfig) (message message' : Option Bytes) : Prop :=
  cfg.exts.supplementaryMessage = true →
    Unmarked (message.getD []) ∧ Unmarked (message'.getD [])

/-- What a receiver reads from a packet. -/
def readFrom {c : FusionSizes} (cfg : CoreConfig) (rx : FusionState c) (packet : Bytes)
    (caps : MultiSensorCaps) : Option MultiSensorOut :=
  (coreDecodeMultiSensorPacketAuto cfg rx packet caps).bind fun d => d.out.map Prod.fst

/-- The limits of a build fit what the code keeps them in: a `uint8_t` count of sensors, and
an `int` for the length of a packet. -/
structure CoreConfig.FieldsFit (cfg : CoreConfig) : Prop where
  sensors_le : cfg.tmplMaxSensors ≤ 255
  body_le : cfg.bodyCap + 16 ≤ 2 ^ 31

/-- The texts a call writes are free of the separators that end them, and the outputs of the
receiver hold them. -/
structure MultiSensorCall.Readable (cfg : CoreConfig)
    (standardize : V → Bytes → Option (Int64 × Bytes)) (call : MultiSensorCall V)
    (caps : MultiSensorCaps) : Prop where
  id : FitsToken tmplIdMax (dot :: textEnds) (effectiveMsg cfg call []).nodeId
  state : FitsToken tmplStateMax (dot :: textEnds) (effectiveMsg cfg call []).nodeState
  id_lt : (effectiveMsg cfg call []).nodeId.length < caps.nodeId
  state_lt : (effectiveMsg cfg call []).nodeState.length < caps.nodeState
  count : call.sensors.length ≤ caps.sensors
  slots : ∀ s ∈ call.sensors, ∀ slot, fillSlot cfg standardize s = some slot → slot.Ok cfg.exts

/-! ## One turn of the loops -/

variable {cfg : CoreConfig} {standardize : V → Bytes → Option (Int64 × Bytes)}

/-- The message goes into the slot as it is and nowhere else. -/
theorem SlotFilled.withoutMessage {s : SensorInput V} {message : Option Bytes} {slot : SensorSlot}
    (h : SlotFilled cfg standardize (s.withMessage message) slot) :
    SlotFilled cfg standardize (s.withMessage none) slot.withoutMessage where
  id := h.id
  state := h.state
  value := h.value
  geohash := h.geohash
  message := copyExtension_of_lt (show ([] : Bytes).length < tmplMsgMax by decide) (fun _ => rfl)
  url := h.url

/-- The message of the slot is handed out as it is and has no part in the rest. -/
theorem SlotCopied.withoutMessage {slot : SensorSlot} {out : SensorOutput}
    (h : SlotCopied cfg slot out) : SlotCopied cfg slot.withoutMessage out.withoutMessage where
  scaled := h.scaled
  id := h.id
  state := h.state
  unit := h.unit
  geohash := h.geohash
  message := copyExtension_of_lt (show ([] : Bytes).length < tmplMsgMax by decide) (fun _ => rfl)
  url := h.url

/-- A value token is one the reader takes. -/
theorem valueToken_some {scaled : Int64} {value : Bytes} (h : valueToken cfg scaled = some value) :
    ∃ read, b62DecodeI64 value = some read := by
  unfold valueToken at h
  split at h
  · rw [b62EncodeI64_eq _ (by decide)] at h
    obtain ⟨rfl, -⟩ := copyText_some h
    exact ⟨scaled, b62DecodeI64_numeral scaled⟩
  · obtain ⟨rfl, -⟩ := copyText_some h
    exact ⟨0, by decide⟩

/-- A slot that is filled and can be carried is one the reader takes. -/
theorem SlotFilled.copied {s : SensorInput V} {slot : SensorSlot}
    (h : SlotFilled cfg standardize s slot) (hok : slot.Ok cfg.exts) :
    ∃ out, SlotCopied cfg slot out := by
  obtain ⟨v, -, -, hvalue⟩ := h.value
  obtain ⟨scaled, hscaled⟩ := valueToken_some hvalue
  exact ⟨⟨slot.sensorId, slot.sensorState, scaled, slot.sensorUnit, slot.geohashId,
    slot.supplementaryMessage, slot.resourceUrl⟩, {
      scaled := hscaled
      id := copyText_of_lt hok.id.1
      state := copyText_of_lt hok.state.1
      unit := copyText_of_lt hok.unit.1
      geohash := copyExtension_of_lt hok.geohash.1 hok.geohash_off
      message := copyExtension_of_lt hok.message.1 hok.message_off
      url := copyExtension_of_lt hok.url.1 hok.url_off }⟩

/-! ## What is read has no marks -/

/-- A message that is read ends at the first character that ends one. -/
theorem readFrom_unmarked {c : FusionSizes} {rx : FusionState c} {packet : Bytes}
    {caps : MultiSensorCaps} {i : Nat} {message : Bytes}
    (hon : cfg.exts.supplementaryMessage = true)
    (h : (readFrom cfg rx packet caps).bind (MultiSensorOut.message i) = some message) :
    Unmarked message := by
  obtain ⟨out, hout, hmessage⟩ := Option.bind_eq_some_iff.mp h
  obtain ⟨d, hd, hout⟩ := Option.bind_eq_some_iff.mp hout
  obtain ⟨⟨out', pm⟩, hout', rfl⟩ := Option.map_eq_some_iff.mp hout
  obtain ⟨d', -, rfl⟩ := Option.map_eq_some_iff.mp hd
  obtain ⟨⟨body, pm'⟩, -, hbody⟩ := Option.bind_eq_some_iff.mp hout'
  obtain ⟨out'', hread, hpair⟩ := Option.map_eq_some_iff.mp hbody
  cases hpair
  obtain ⟨reading, hreading, rfl⟩ := Option.map_eq_some_iff.mp hmessage
  unfold readMultiSensorBody at hread
  split at hread
  · cases hread
  obtain ⟨msg, hmsg, hread⟩ := Option.bind_eq_some_iff.mp hread
  obtain ⟨id, -, hread⟩ := Option.bind_eq_some_iff.mp hread
  obtain ⟨state, -, hread⟩ := Option.bind_eq_some_iff.mp hread
  split at hread
  · cases hread
  obtain ⟨readings, hreadings, hread⟩ := Option.bind_eq_some_iff.mp hread
  cases hread
  rw [mapM_getElem? hreadings] at hreading
  obtain ⟨slot, hslot, hcopied⟩ := Option.bind_eq_some_iff.mp hreading
  have hok := (templateDecode_ok (nul_not_mem_cString body) hmsg).sensors slot
    (List.mem_of_getElem? hslot)
  have hcopy := (copyExtension_some ((readSlot_eq_some cfg).mp hcopied).message).1
  rw [hon] at hcopy
  rw [hcopy]
  exact hok.message.2

/-! ## The first packet of a stream -/

/-- The first packet of a call is read as the text of its slots, by any receiver. -/
theorem multiSensor_first {c : FusionSizes} (hc : c.Small) (hcfg : cfg.FieldsFit)
    {call : MultiSensorCall V} {out : EncodeOut} {r : EncodeResult c}
    (hr : coreEncodeMultiSensorPacketAuto cfg standardize (fusionStateInit c) call out = some r)
    (hret : r.ret = true) :
    ∃ slots, call.sensors.mapM (fillSlot cfg standardize) = some slots ∧
      slots.length ≤ cfg.tmplMaxSensors ∧
      ((effectiveMsg cfg call slots).text cfg.exts).length < cfg.bodyCap ∧
      ∀ (rx : FusionState c) (caps : MultiSensorCaps), readFrom cfg rx r.out.packet caps =
        readMultiSensorBody cfg caps ((effectiveMsg cfg call slots).text cfg.exts) := by
  obtain ⟨body, hbody, hencode⟩ := coreEncode_some hr hret
  unfold multiSensorBody at hbody
  split at hbody
  · cases hbody
  obtain ⟨slots, hslots, hwritten⟩ := Option.bind_eq_some_iff.mp hbody
  rw [templateEncode_eq] at hwritten
  split at hwritten
  case isFalse => cases hwritten
  rename_i hfits
  cases hwritten
  refine ⟨slots, hslots, hfits.1, hfits.2, fun rx caps => ?_⟩
  have hne : (effectiveMsg cfg call slots).text cfg.exts ≠ [] :=
    List.append_ne_nil_of_right_ne_nil _ (List.cons_ne_nil _ _)
  have hint : ((effectiveMsg cfg call slots).text cfg.exts).length + 16 < 2 ^ 31 := by
    have hcap := hcfg.body_le
    omega
  obtain ⟨st', rfl⟩ := fusionEncode_newStream (findEntry_init _ _) hencode hret
  have hcap : (multiSensorFusionCall cfg call
      ((effectiveMsg cfg call slots).text cfg.exts)).fullBody.length ≤ cfg.bodyCap :=
    Nat.le_of_lt hfits.2
  obtain ⟨pm, hdec⟩ := decode_full hc rx (slotsFit_of_encode hne hencode) hint hret hcap
  simp only [readFrom, coreDecodeMultiSensorPacketAuto, hdec, Option.map_some, Option.bind_some,
    Option.map_map]
  exact Option.map_id'

/-- Only the message can keep a slot from being carried. -/
theorem SensorSlot.Ok.withMessage {exts : Extensions} {slot : SensorSlot}
    (h : slot.withoutMessage.Ok exts)
    (hmessage : FitsToken tmplMsgMax valueSeps slot.supplementaryMessage)
    (hoff : exts.supplementaryMessage = false → slot.supplementaryMessage = []) :
    slot.Ok exts :=
  { id := h.id, state := h.state, unit := h.unit, value := h.value, geohash := h.geohash
    message := hmessage, url := h.url, geohash_off := h.geohash_off, message_off := hoff
    url_off := h.url_off }

section
variable {call : MultiSensorCall V} {i : Nat} {message : Option Bytes} {caps : MultiSensorCaps}

/-- The sensors of the call, one by one. -/
theorem MultiSensorCall.sensor_withMessage (call : MultiSensorCall V) (i : Nat)
    (message : Option Bytes) (j : Nat) : (call.withMessage i message).sensors[j]? =
      call.sensors[j]?.map fun s => if i = j then s.withMessage message else s :=
  List.getElem?_modify _ _ _ _

/-- The slots of a readable call are read, if the message has no marks. -/
theorem slots_read (hread : (call.withMessage i none).Readable cfg standardize caps)
    (hmark : cfg.exts.supplementaryMessage = true → Unmarked (message.getD []))
    {slots : List SensorSlot}
    (hslots : (call.withMessage i message).sensors.mapM (fillSlot cfg standardize) = some slots) :
    ∀ slot ∈ slots, slot.Ok cfg.exts ∧ ∃ out, readSlot cfg slot = some out := by
  intro slot hmem
  obtain ⟨j, hj⟩ := List.mem_iff_getElem?.mp hmem
  rw [mapM_getElem? hslots, MultiSensorCall.sensor_withMessage] at hj
  obtain ⟨s', hs', hfill⟩ := Option.bind_eq_some_iff.mp hj
  obtain ⟨s, hs, rfl⟩ := Option.map_eq_some_iff.mp hs'
  have hplain : (if i = j then s.withMessage none else s) ∈ (call.withMessage i none).sensors := by
    apply List.mem_of_getElem?
    rw [MultiSensorCall.sensor_withMessage, hs, Option.map_some]
  have hfilled := (fillSlot_eq_some cfg standardize).mp hfill
  have hok : slot.Ok cfg.exts := by
    by_cases hij : i = j
    · simp only [if_pos hij] at hplain hfilled
      have hwithout := hread.slots _ hplain _
        ((fillSlot_eq_some cfg standardize).mpr hfilled.withoutMessage)
      obtain ⟨hcopy, hlen⟩ := copyExtension_some hfilled.message
      refine hwithout.withMessage ?_ fun hoff => by rw [hcopy, hoff]; rfl
      by_cases hon : cfg.exts.supplementaryMessage = true
      · rw [hcopy, if_pos hon]
        exact ⟨hlen hon, hmark hon⟩
      · rw [hcopy, if_neg hon]
        exact fitsToken_nil (by decide) _
    · simp only [if_neg hij] at hplain hfill
      exact hread.slots _ hplain _ hfill
  obtain ⟨out, hout⟩ := hfilled.copied hok
  exact ⟨hok, out, (readSlot_eq_some cfg).mpr hout⟩

/-- The message of the sensor is handed out as it was given. -/
theorem message_read (hi : i < call.sensors.length) {slots : List SensorSlot}
    (hslots : (call.withMessage i message).sensors.mapM (fillSlot cfg standardize) = some slots)
    {readings : List SensorOutput} (hreadings : slots.mapM (readSlot cfg) = some readings)
    (hon : cfg.exts.supplementaryMessage = true) :
    readings[i]?.map SensorOutput.supplementaryMessage = some (message.getD []) := by
  have hfew : i < slots.length := by
    rw [length_mapM hslots, MultiSensorCall.withMessage, List.length_modify]
    exact hi
  have hread : i < readings.length := by
    rw [length_mapM hreadings]
    exact hfew
  have hfill := mapM_getElem? hslots i
  have hcopied := mapM_getElem? hreadings i
  rw [MultiSensorCall.sensor_withMessage, List.getElem?_eq_getElem hi, Option.map_some,
    if_pos rfl, Option.bind_some, List.getElem?_eq_getElem hfew] at hfill
  rw [List.getElem?_eq_getElem hfew, Option.bind_some, List.getElem?_eq_getElem hread] at hcopied
  have hslot := (copyExtension_some ((fillSlot_eq_some _ _).mp hfill.symm).message).1
  have hhanded := (copyExtension_some ((readSlot_eq_some cfg).mp hcopied.symm).message).1
  rw [if_pos hon] at hslot hhanded
  rw [List.getElem?_eq_getElem hread, Option.map_some, hhanded, hslot]
  rfl

/-- The first packet of a readable call whose message has no marks is read as the call
without it, and the message. -/
theorem first_read {c : FusionSizes} (hc : c.Small) (hcfg : cfg.FieldsFit)
    (hi : i < call.sensors.length)
    (hread : (call.withMessage i none).Readable cfg standardize caps)
    (hmark : cfg.exts.supplementaryMessage = true → Unmarked (message.getD []))
    {out : EncodeOut} {r : EncodeResult c}
    (hr : coreEncodeMultiSensorPacketAuto cfg standardize (fusionStateInit c)
      (call.withMessage i message) out = some r) (hret : r.ret = true) (rx : FusionState c) :
    ∃ readings, readFrom cfg rx r.out.packet caps = some
        ⟨(effectiveMsg cfg call []).nodeId, (effectiveMsg cfg call []).nodeState, readings⟩ ∧
      ((call.withMessage i none).sensors.mapM (fillSlot cfg standardize)).bind
        (fun slots => slots.mapM (readSlot cfg)) =
          some (readings.modify i SensorOutput.withoutMessage) ∧
      (cfg.exts.supplementaryMessage = true →
        readings[i]?.map SensorOutput.supplementaryMessage = some (message.getD [])) := by
  obtain ⟨slots, hslots, hcount, hlen, hreceived⟩ := multiSensor_first hc hcfg hr hret
  have hgood := slots_read hread hmark hslots
  obtain ⟨readings, hreadings⟩ := mapM_exists fun slot hslot => (hgood slot hslot).2
  have hok : (effectiveMsg cfg (call.withMessage i message) slots).Ok cfg.exts
      cfg.tmplMaxSensors :=
    ⟨hread.id, hread.state, tsToken_fits _ _ _, fun slot hslot => (hgood slot hslot).1, hcount⟩
  have hroom : slots.length ≤ caps.sensors := by
    have hcalled := hread.count
    have hlength := length_mapM hslots
    simp only [MultiSensorCall.withMessage, List.length_modify] at hcalled hlength
    omega
  refine ⟨readings, ?_, ?_, fun hon => ?_⟩
  · rw [hreceived rx caps]
    exact readMultiSensorBody_text hok hlen hread.id_lt hread.state_lt hroom hreadings
  · have hwithout : (call.withMessage i none).sensors.mapM (fillSlot cfg standardize) =
        some (slots.modify i SensorSlot.withoutMessage) :=
      mapM_modify (fun s slot hfill => (fillSlot_eq_some cfg standardize).mpr
        ((fillSlot_eq_some cfg standardize).mp hfill).withoutMessage) hslots
    have hsame : (slots.modify i id).mapM (readSlot cfg) = some readings := by
      rw [List.modify_id]
      exact hreadings
    rw [hwithout, Option.bind_some]
    exact mapM_modify (fun slot out hcopied => (readSlot_eq_some cfg).mpr
      ((readSlot_eq_some cfg).mp hcopied).withoutMessage) hsame
  · exact message_read hi hslots hreadings hon

end

/-- In every size configuration the repository ships, two first packets of calls that differ
in the message of one sensor: where the other texts are readable, neither message forges
another field exactly if none has a '|', '#', '!' or '@', and whatever the other texts are,
no message with one of these is carried. -/
theorem message_not_forging_iff {c : FusionSizes} (hc : c ∈ FusionSizes.shipped)
    (hcfg : cfg.FieldsFit) {call : MultiSensorCall V} {i : Nat} (hi : i < call.sensors.length)
    {message message' : Option Bytes} {out out' : EncodeOut} {r r' : EncodeResult c}
    (hr : coreEncodeMultiSensorPacketAuto cfg standardize (fusionStateInit c)
      (call.withMessage i message) out = some r) (hret : r.ret = true)
    (hr' : coreEncodeMultiSensorPacketAuto cfg standardize (fusionStateInit c)
      (call.withMessage i message') out' = some r') (hret' : r'.ret = true)
    (rx rx' : FusionState c) (caps : MultiSensorCaps) :
    ((call.withMessage i none).Readable cfg standardize caps →
      BothUnmarked cfg message message' →
      NotForging cfg i message message' (readFrom cfg rx r.out.packet caps)
        (readFrom cfg rx' r'.out.packet caps)) ∧
    (NotForging cfg i message message' (readFrom cfg rx r.out.packet caps)
        (readFrom cfg rx' r'.out.packet caps) → BothUnmarked cfg message message') := by
  have hsmall := FusionSizes.shipped_small hc
  constructor
  · intro hread hmark
    obtain ⟨readings, hout, hwithout, hcarried⟩ := first_read hsmall hcfg hi hread
      (fun hon => (hmark hon).1) hr hret rx
    obtain ⟨readings', hout', hwithout', hcarried'⟩ := first_read hsmall hcfg hi hread
      (fun hon => (hmark hon).2) hr' hret' rx'
    have hsame : readings.modify i SensorOutput.withoutMessage =
        readings'.modify i SensorOutput.withoutMessage :=
      Option.some.inj (hwithout.symm.trans hwithout')
    rw [hout, hout']
    refine ⟨?_, fun hon => ⟨hcarried hon, hcarried' hon⟩⟩
    simp only [Option.map_some, MultiSensorOut.withoutMessage, hsame]
  · intro hkept hon
    obtain ⟨hcarried, hcarried'⟩ := hkept.carried hon
    exact ⟨readFrom_unmarked hon hcarried, readFrom_unmarked hon hcarried'⟩

end

/-- A node with one sensor. -/
def noteCall : MultiSensorCall Int where
  sourceAid := 42
  tid := 1
  timestampRaw := 1710000010
  nodeId := ascii "N"
  nodeState := ascii "U"
  sensors := [⟨ascii "T", ascii "OK", 1, ascii "kPa", none, none, none⟩]
  outPacketCap := 128

def noteCaps : MultiSensorCaps := ⟨32, 16, 4⟩

/-- The first packet of the call with this message, in the default build. -/
def notePacket (message : Option Bytes) : Option (EncodeResult FusionSizes.headerDefault) :=
  coreEncodeMultiSensorPacketAuto .headerDefault standardizeWhole
    (fusionStateInit FusionSizes.headerDefault) (noteCall.withMessage 0 message) ⟨[], 0, 0⟩

/-- What another node reads from a packet. -/
def noteRead (packet : Bytes) : Option MultiSensorOut :=
  readFrom .headerDefault (fusionStateInit FusionSizes.headerDefault) packet noteCaps

/-- A message that ends its own segment and goes on with a sensor. -/
def forgedSensor : Bytes := ascii "x|FORGED>OK.NA:1"

theorem noteCall_readable :
    (noteCall.withMessage 0 none).Readable .headerDefault standardizeWhole noteCaps where
  id := by decide
  state := by decide
  id_lt := by decide
  state_lt := by decide
  count := by decide
  slots := by
    intro s hs slot hslot
    have hfill : fillSlot .headerDefault standardizeWhole
        ⟨ascii "T", ascii "OK", 1, ascii "kPa", none, none, none⟩ =
          some ⟨ascii "T", ascii "OK", ascii "NA", ascii "FXsk", [], [], []⟩ := by decide +kernel
    obtain rfl := List.mem_singleton.mp hs
    cases hfill.symm.trans hslot
    constructor <;> decide

theorem note_not_forging : ∃ r r', notePacket none = some r ∧
    notePacket (some (ascii "wet")) = some r' ∧
    NotForging .headerDefault 0 none (some (ascii "wet")) (noteRead r.out.packet)
      (noteRead r'.out.packet) := by
  have hplain : (notePacket none).map EncodeResult.ret = some true := by decide +kernel
  have hwet : (notePacket (some (ascii "wet"))).map EncodeResult.ret = some true := by
    decide +kernel
  obtain ⟨r, hr, hret⟩ := Option.map_eq_some_iff.mp hplain
  obtain ⟨r', hr', hret'⟩ := Option.map_eq_some_iff.mp hwet
  have hiff := message_not_forging_iff (by decide) ⟨by decide, by decide⟩
    (by decide : 0 < noteCall.sensors.length) hr hret hr' hret' (fusionStateInit _)
    (fusionStateInit _) noteCaps
  exact ⟨r, r', hr, hr', hiff.1 noteCall_readable fun _ => ⟨by decide, by decide⟩⟩

/-- The second packet is read as two sensors, and its message as the text up to the '|'. -/
theorem message_forges_sensor : ∃ r r', notePacket none = some r ∧ r.ret = true ∧
    notePacket (some forgedSensor) = some r' ∧ r'.ret = true ∧
    noteRead r.out.packet = some ⟨ascii "N", ascii "U",
      [⟨ascii "T", ascii "OK", 10000000, ascii "NA", [], [], []⟩]⟩ ∧
    noteRead r'.out.packet = some ⟨ascii "N", ascii "U",
      [⟨ascii "T", ascii "OK", 10000000, ascii "NA", [], ascii "x", []⟩,
       ⟨ascii "FORGED", ascii "OK", 1, ascii "NA", [], [], []⟩]⟩ ∧
    ¬ NotForging .headerDefault 0 none (some forgedSensor) (noteRead r.out.packet)
      (noteRead r'.out.packet) := by
  have hplain : (notePacket none).map (fun r => (r.ret, noteRead r.out.packet)) =
      some (true, some ⟨ascii "N", ascii "U",
        [⟨ascii "T", ascii "OK", 10000000, ascii "NA", [], [], []⟩]⟩) := by decide +kernel
  have hforged : (notePacket (some forgedSensor)).map (fun r => (r.ret, noteRead r.out.packet)) =
      some (true, some ⟨ascii "N", ascii "U",
        [⟨ascii "T", ascii "OK", 10000000, ascii "NA", [], ascii "x", []⟩,
         ⟨ascii "FORGED", ascii "OK", 1, ascii "NA", [], [], []⟩]⟩) := by decide +kernel
  obtain ⟨r, hr, hread⟩ := Option.map_eq_some_iff.mp hplain
  obtain ⟨r', hr', hread'⟩ := Option.map_eq_some_iff.mp hforged
  obtain ⟨hret, hout⟩ := Prod.mk.inj hread
  obtain ⟨hret', hout'⟩ := Prod.mk.inj hread'
  refine ⟨r, r', hr, hret, hr', hret', hout, hout', fun hkept => ?_⟩
  have hrest := hkept.rest
  rw [hout, hout'] at hrest
  have hcount := congrArg (fun out => out.map fun o => o.sensors.length) hrest
  revert hcount
  decide

end Osfx
