import Mathlib.Data.List.TakeWhile
import Mathlib.Tactic.MkIffOfInductiveProp
import Osfx.CoreFacade
import Osfx.Fusion.Lockstep
import Osfx.Lib.Collect

/-!
# Multi-sensor packets end to end

A message whose tokens avoid the grammar's separators and fit the rows of the cache
goes through the fusion layer without loss (`expectedBody_text`): whatever the
command of its packet, the body on the other side is the text of the same message,
at most with another timestamp. `multi_sensor_delivered` composes this with the
lockstep of the two tables and with the template grammar: over whole runs, every
packet is decoded as the readings it was encoded from.
-/

namespace Osfx

open Collect EventSystem Numeral Text

/-! ## What the cache takes of a message -/

/-- TAG, META and VAL of the segment of a slot. -/
def SensorSlot.sensor (exts : Extensions) (s : SensorSlot) : Sensor :=
  (s.sensorId, s.sensorState ++ dot :: s.sensorUnit, s.valueText exts)

theorem SensorSlot.segmentText_sensor (exts : Extensions) (s : SensorSlot) :
    segmentText (s.sensor exts) = s.text exts := by
  simp [segmentText, SensorSlot.sensor, SensorSlot.text]

/-- A slot whose segment the cache takes as it stands. -/
structure SensorSlot.Cached (c : FusionSizes) (exts : Extensions) (s : SensorSlot) : Prop where
  ok : s.Ok exts
  colon_free : colon ∉ s.valueText exts
  fits : SensorFits c (s.sensor exts)

theorem SensorSlot.Cached.parseSegment {c : FusionSizes} {exts : Extensions} {s : SensorSlot}
    (h : s.Cached c exts) : parseSegment c (s.text exts) = some (s.sensor exts) :=
  parseSegment_eq_some.mpr ⟨(s.segmentText_sensor exts).symm, h.ok.id.not_mem (by decide),
    h.colon_free, h.fits⟩

/-- A message the cache takes all sensors of. -/
structure TemplateMsg.Cached (c : FusionSizes) (exts : Extensions) (maxSensors : Nat)
    (msg : TemplateMsg) : Prop where
  ok : msg.Ok exts maxSensors
  ts_dot_free : dot ∉ msg.tsToken
  prefix_fits : msg.nodeId.length + msg.nodeState.length + 3 ≤ c.maxPrefix
  sensors : ∀ s ∈ msg.sensors, s.Cached c exts
  kept : msg.sensors.length ≤ c.maxSensors

section
variable {c : FusionSizes} {exts : Extensions} {maxSensors : Nat} {msg : TemplateMsg}

/-- The header up to the last dot. -/
def TemplateMsg.sig (msg : TemplateMsg) : Bytes := msg.nodeId ++ dot :: msg.nodeState ++ [dot]

theorem TemplateMsg.Cached.bodyHeader (h : msg.Cached c exts maxSensors) :
    bodyHeader c (msg.text exts) =
      some (msg.sig, ended bar (msg.sensors.map (SensorSlot.text exts))) := by
  have hbar : cutFirst bar (msg.text exts) =
      some (msg.header, ended bar (msg.sensors.map (SensorSlot.text exts))) :=
    cutFirst_eq_some.mpr ⟨rfl, h.ok.not_mem_header (by decide)⟩
  have hdot : cutLast dot msg.header = some (msg.nodeId ++ dot :: msg.nodeState, msg.tsToken) :=
    cutLast_eq_some.mpr ⟨by simp [TemplateMsg.header], h.ts_dot_free⟩
  have hroom := h.prefix_fits
  have hlen : ¬ c.maxPrefix < (msg.nodeId ++ dot :: msg.nodeState).length + 2 := by
    simp only [List.length_append, List.length_cons]
    omega
  simp only [Osfx.bodyHeader, hbar, hdot, Option.bind_eq_bind, Option.bind_some, if_neg hlen,
    TemplateMsg.sig]

theorem TemplateMsg.Cached.headerPrefix (h : msg.Cached c exts maxSensors) :
    headerPrefix c (msg.text exts) = msg.sig := by
  simp [Osfx.headerPrefix, h.bodyHeader]

theorem TemplateMsg.Cached.keptSensors (h : msg.Cached c exts maxSensors) :
    keptSensors c (msg.text exts) = msg.sensors.map (SensorSlot.sensor exts) := by
  have hempty : Osfx.parseSegment c [] = none := rfl
  have hparse : (msg.sensors.map (SensorSlot.text exts)).filterMap (Osfx.parseSegment c) =
      msg.sensors.map (SensorSlot.sensor exts) := by
    rw [List.filterMap_map]
    apply List.filterMap_eq_map_iff_forall_eq_some.mpr
    intro s hs
    exact (h.sensors s hs).parseSegment
  have hkept := h.kept
  simp only [Osfx.keptSensors, h.bodyHeader, h.ok.splitOn_segments, List.filterMap_append, hparse,
    List.filterMap_cons, hempty, List.filterMap_nil, List.append_nil]
  exact List.take_of_length_le (by simpa using hkept)

/-- Rebuilt with another timestamp, the text is that of the message with it. -/
theorem TemplateMsg.Cached.templateText (h : msg.Cached c exts maxSensors) (ts : Nat) :
    templateText (Osfx.headerPrefix c (msg.text exts)) ts (Osfx.keptSensors c (msg.text exts)) =
      ({ msg with tsToken := decimal ts } : TemplateMsg).text exts := by
  have hsegments : (msg.sensors.map (SensorSlot.sensor exts)).map segmentText =
      msg.sensors.map (SensorSlot.text exts) := by
    rw [List.map_map]
    exact List.map_congr_left fun s _ => s.segmentText_sensor exts
  rw [h.headerPrefix, h.keptSensors, Osfx.templateText, hsegments]
  simp [TemplateMsg.text, TemplateMsg.header, TemplateMsg.sig]

end

/-- Neither a NUL nor a '|' is in a numeral. -/
theorem decimal_not_ends {n : Nat} : ∀ b ∈ decimal n, b ∉ textEnds := by
  intro b hb hend
  obtain ⟨hlo, hhi⟩ := decimal_digits hb
  obtain rfl | rfl := mem_textEnds.mp hend
  · exact absurd hlo (by decide)
  · exact absurd hhi (by decide)

/-- Whatever its command, a packet of a message stands for the message, at most with
another timestamp. -/
theorem expectedBody_text {c : FusionSizes} {exts : Extensions} {maxSensors : Nat}
    {msg : TemplateMsg} (h : msg.Cached c exts maxSensors) (call : FusionCall)
    (hbody : call.fullBody = msg.text exts)
    (hts : (decimal call.timestampRaw.toNat).length ≤ msg.tsToken.length) (cmd : UInt8) :
    ∃ msg' : TemplateMsg, expectedBody c call cmd = msg'.text exts ∧ msg'.Ok exts maxSensors ∧
      (msg'.text exts).length ≤ (msg.text exts).length ∧
      msg'.nodeId = msg.nodeId ∧ msg'.nodeState = msg.nodeState ∧ msg'.sensors = msg.sensors := by
  unfold expectedBody
  split
  · exact ⟨msg, hbody, h.ok, Nat.le_refl _, rfl, rfl, rfl⟩
  · have hle : (decimal (call.timestampRaw.toNat % 2 ^ 48)).length ≤ msg.tsToken.length :=
      Nat.le_trans (decimal_length_mono (Nat.mod_le _ _)) hts
    have hfits : FitsToken tmplTsMax textEnds (decimal (call.timestampRaw.toNat % 2 ^ 48)) :=
      ⟨Nat.lt_of_le_of_lt hle h.ok.ts.1, decimal_not_ends⟩
    refine ⟨{ msg with tsToken := decimal (call.timestampRaw.toNat % 2 ^ 48) }, ?_, ?_, ?_, rfl,
      rfl, rfl⟩
    · rw [hbody]
      exact h.templateText _
    · exact ⟨h.ok.id, h.ok.state, hfits, h.ok.sensors, h.ok.count⟩
    · simp only [TemplateMsg.text, TemplateMsg.header, List.length_append, List.length_cons]
      omega

/-! ## A call in the default build -/

/-- NUL, and the characters the grammar separates tokens with. -/
def grammarChars : Bytes := [0, dot, bar, gt, colon, hash, bang, atSign]

def Plain (text : Bytes) : Prop := ∀ b ∈ text, b ∉ grammarChars

instance (text : Bytes) : Decidable (Plain text) := List.decidableBAll _ text

/-- The unit token of a build without the physical attribute. -/
def unitToken : Bytes := ascii "NA"

section
variable {V : Type} (standardize : V → Bytes → Option (Int64 × Bytes))

def SensorInput.message (s : SensorInput V) : Bytes := s.supplementaryMessage.getD []

/-- The slot of a sensor with this scaled value. -/
def SensorInput.slot (s : SensorInput V) (scaled : Int64) : SensorSlot :=
  ⟨s.sensorId, s.sensorState, unitToken, b62Numeral scaled, [], s.message, []⟩

/-- What a decode hands out for a sensor: its texts and the scaled value. -/
def SensorInput.reading (s : SensorInput V) : Option SensorOutput :=
  (standardize s.value s.unit).map fun v =>
    ⟨s.sensorId, s.sensorState, v.1, unitToken, [], s.message, []⟩

/-- The texts of a sensor are plain and short enough for the cache. -/
@[mk_iff]
structure SensorInput.WellFormed (s : SensorInput V) : Prop where
  id_plain : Plain s.sensorId
  id_ne : s.sensorId ≠ []
  id_le : s.sensorId.length ≤ 11
  state_plain : Plain s.sensorState
  meta_le : (s.sensorState ++ dot :: unitToken).length ≤ 15
  message_plain : Plain s.message
  value_le : ∀ v ∈ standardize s.value s.unit,
    ((s.slot v.1).valueText CoreConfig.headerDefault.exts).length ≤ 15

@[mk_iff]
structure MultiSensorCall.WellFormed (call : MultiSensorCall V) : Prop where
  id_plain : Plain call.nodeId
  id_le : call.nodeId.length ≤ 31
  state_plain : Plain call.nodeState
  state_le : call.nodeState.length ≤ 15
  sensors : ∀ s ∈ call.sensors, s.WellFormed standardize

instance (s : SensorInput V) : Decidable (s.WellFormed standardize) :=
  decidable_of_iff _ (SensorInput.wellFormed_iff standardize s).symm

instance (call : MultiSensorCall V) : Decidable (call.WellFormed standardize) :=
  decidable_of_iff _ (MultiSensorCall.wellFormed_iff standardize call).symm

variable {standardize}

theorem textEnds_subset : textEnds ⊆ grammarChars := by
  simp [textEnds, grammarChars]

theorem cons_ends_subset {b : UInt8} (hb : b ∈ grammarChars) : b :: textEnds ⊆ grammarChars :=
  List.cons_subset.mpr ⟨hb, textEnds_subset⟩

theorem valueSeps_subset : valueSeps ⊆ grammarChars := by
  simp [valueSeps, textEnds, grammarChars]

theorem Plain.fitsToken {text : Bytes} (h : Plain text) {cap : Nat} (hlen : text.length < cap)
    {seps : Bytes} (hseps : seps ⊆ grammarChars) : FitsToken cap seps text :=
  ⟨hlen, fun b hb hsep => h b hb (hseps hsep)⟩

theorem Plain.not_mem {text : Bytes} (h : Plain text) {b : UInt8} (hb : b ∈ grammarChars) :
    b ∉ text :=
  fun hmem => h b hmem hb

theorem plain_b62Numeral (value : Int64) : Plain (b62Numeral value) := by
  intro b hb
  have hall : Plain (45 :: b62Table) := by decide
  exact hall b (mem_b62Numeral hb)

/-- A slot that is filled is that of the standardized value, and its message fits. -/
theorem fillSlot_some {s : SensorInput V} {slot : SensorSlot}
    (h : fillSlot .headerDefault standardize s = some slot) :
    ∃ v, standardize s.value s.unit = some v ∧ slot = s.slot v.1 ∧
      s.message.length < tmplMsgMax := by
  obtain ⟨hid, hstate, ⟨v, hv, hunit, hvalue⟩, hgeohash, hmessage, hurl⟩ :=
    (fillSlot_eq_some _ _).mp h
  obtain ⟨id, state, unit, value, geohash, message, url⟩ := slot
  cases hgeohash
  cases hurl
  obtain ⟨rfl, -⟩ := copyText_some hid
  obtain ⟨rfl, -⟩ := copyText_some hstate
  obtain ⟨rfl, -⟩ := copyText_some hunit
  obtain ⟨rfl, hlen⟩ := copyText_some hmessage
  have henc : b62EncodeI64 v.1 tmplValueMax = some (b62Numeral v.1) :=
    b62EncodeI64_eq v.1 (by decide)
  have hon : CoreConfig.headerDefault.normalizedValue = true := rfl
  rw [valueToken, if_pos hon, henc, Option.bind_some] at hvalue
  obtain ⟨rfl, -⟩ := copyText_some hvalue
  exact ⟨v, hv, rfl, hlen⟩

/-- Value and message of a slot. -/
theorem valueText_slot (s : SensorInput V) (scaled : Int64) :
    (s.slot scaled).valueText CoreConfig.headerDefault.exts =
      b62Numeral scaled ++ if s.message = [] then [] else bang :: s.message := by
  by_cases hm : s.message = [] <;>
    simp [SensorSlot.valueText, extensionItems, itemsText, SensorInput.slot,
      CoreConfig.headerDefault, hm]

theorem plain_unitToken : Plain unitToken := by decide

theorem SensorInput.WellFormed.ok {s : SensorInput V} (h : s.WellFormed standardize)
    (scaled : Int64) (hmessage : s.message.length < tmplMsgMax) :
    (s.slot scaled).Ok CoreConfig.headerDefault.exts where
  id := h.id_plain.fitsToken (Nat.lt_of_le_of_lt h.id_le (by decide)) (cons_ends_subset (by decide))
  state := by
    have hmeta := h.meta_le
    have hstate : s.sensorState.length < tmplStateMax := by
      rw [List.length_append] at hmeta
      exact Nat.lt_of_le_of_lt (Nat.le_trans (Nat.le_add_right _ _) hmeta) (by decide)
    exact h.state_plain.fitsToken hstate (cons_ends_subset (by decide))
  unit := plain_unitToken.fitsToken (by decide) (cons_ends_subset (by decide))
  value := (plain_b62Numeral scaled).fitsToken
    (Nat.lt_of_le_of_lt (length_b62Numeral scaled) (by decide)) valueSeps_subset
  geohash := fitsToken_nil (by decide) _
  message := h.message_plain.fitsToken hmessage valueSeps_subset
  url := fitsToken_nil (by decide) _
  geohash_off := fun _ => rfl
  message_off := fun hoff => absurd hoff (by decide)
  url_off := fun _ => rfl

theorem SensorInput.WellFormed.fits {s : SensorInput V} (h : s.WellFormed standardize)
    {v : Int64 × Bytes} (hv : standardize s.value s.unit = some v) :
    SensorFits FusionSizes.headerDefault
      ((s.slot v.1).sensor CoreConfig.headerDefault.exts) where
  tag_ne := h.id_ne
  tag_lt := Nat.lt_of_le_of_lt h.id_le (by decide)
  meta_ne := List.append_ne_nil_of_right_ne_nil _ (List.cons_ne_nil _ _)
  meta_lt := Nat.lt_of_le_of_lt h.meta_le (by decide)
  val_ne := by
    rw [SensorSlot.sensor, valueText_slot]
    exact List.append_ne_nil_of_left_ne_nil (b62Numeral_ne_nil v.1) _
  val_lt := Nat.lt_of_le_of_lt (h.value_le v hv) (by decide)

theorem SensorInput.WellFormed.cached {s : SensorInput V} (h : s.WellFormed standardize)
    {v : Int64 × Bytes} (hv : standardize s.value s.unit = some v)
    (hmessage : s.message.length < tmplMsgMax) :
    (s.slot v.1).Cached FusionSizes.headerDefault CoreConfig.headerDefault.exts where
  ok := h.ok v.1 hmessage
  colon_free := by
    rw [valueText_slot, List.mem_append, not_or]
    refine ⟨(plain_b62Numeral v.1).not_mem (by decide), ?_⟩
    split
    · exact List.not_mem_nil
    · rw [List.mem_cons, not_or]
      exact ⟨by decide, h.message_plain.not_mem (by decide)⟩
  fits := h.fits hv

/-- A slot is read back as the texts and the value it was filled with. -/
theorem readSlot_slot {s : SensorInput V} {v : Int64 × Bytes}
    (hv : standardize s.value s.unit = some v)
    (hok : (s.slot v.1).Ok CoreConfig.headerDefault.exts) :
    readSlot .headerDefault (s.slot v.1) = s.reading standardize := by
  rw [SensorInput.reading, hv, Option.map_some, readSlot_eq_some]
  exact {
    scaled := b62DecodeI64_numeral v.1
    id := copyText_of_lt hok.id.1
    state := copyText_of_lt hok.state.1
    unit := copyText_of_lt hok.unit.1
    geohash := rfl
    message := copyText_of_lt hok.message.1
    url := rfl }

/-- The loop over the sensors fills slots the cache takes, and the loop over the
slots reads what the sensors stand for. -/
theorem fillSlots_some {sensors : List (SensorInput V)}
    (h : ∀ s ∈ sensors, s.WellFormed standardize) {slots : List SensorSlot}
    (hfill : sensors.mapM (fillSlot .headerDefault standardize) = some slots) :
    slots.length = sensors.length ∧
      (∀ slot ∈ slots, slot.Cached FusionSizes.headerDefault CoreConfig.headerDefault.exts) ∧
      ∃ readings, sensors.mapM (SensorInput.reading standardize) = some readings ∧
        slots.mapM (readSlot .headerDefault) = some readings := by
  have hfilled : ∀ slot ∈ slots, ∃ s ∈ sensors, ∃ v, standardize s.value s.unit = some v ∧
      slot = s.slot v.1 ∧ s.message.length < tmplMsgMax := by
    intro slot hslot
    obtain ⟨s, hs, hone⟩ := mapM_mem hfill hslot
    exact ⟨s, hs, fillSlot_some hone⟩
  have hsame : slots.mapM (readSlot .headerDefault) =
      sensors.mapM (SensorInput.reading standardize) := by
    apply mapM_mapM hfill
    intro s hs slot hone
    obtain ⟨v, hv, rfl, hmessage⟩ := fillSlot_some hone
    exact readSlot_slot hv ((h s hs).ok v.1 hmessage)
  obtain ⟨readings, hread⟩ : ∃ readings, slots.mapM (readSlot .headerDefault) =
      some readings := by
    apply mapM_exists
    intro slot hslot
    obtain ⟨s, hs, v, hv, rfl, hmessage⟩ := hfilled slot hslot
    rw [readSlot_slot hv ((h s hs).ok v.1 hmessage), SensorInput.reading, hv]
    exact ⟨_, rfl⟩
  refine ⟨length_mapM hfill, ?_, readings, hsame.symm.trans hread, hread⟩
  intro slot hslot
  obtain ⟨s, hs, v, hv, rfl, hmessage⟩ := hfilled slot hslot
  exact (h s hs).cached hv hmessage

/-- The timestamp token is one the reader takes. -/
theorem tsToken_fits (cfg : CoreConfig) (call : MultiSensorCall V) (slots : List SensorSlot) :
    FitsToken tmplTsMax textEnds (effectiveMsg cfg call slots).tsToken := by
  simp only [effectiveMsg]
  split
  · have hlen := decimal_u64_length call.timestampRaw
    exact ⟨Nat.lt_of_le_of_lt hlen (by decide), decimal_not_ends⟩
  · decide

/-- The body of a well-formed call is the text of a message the cache takes, and the
readings of its slots are those of the call. -/
theorem multiSensorBody_some {call : MultiSensorCall V} (h : call.WellFormed standardize)
    {body : Bytes} (hbody : multiSensorBody .headerDefault standardize call = some body) :
    ∃ slots, body = (effectiveMsg .headerDefault call slots).text CoreConfig.headerDefault.exts ∧
      body.length < CoreConfig.headerDefault.bodyCap ∧
      (effectiveMsg .headerDefault call slots).Cached FusionSizes.headerDefault
        CoreConfig.headerDefault.exts CoreConfig.headerDefault.tmplMaxSensors ∧
      slots.length = call.sensors.length ∧
      ∃ readings, call.sensors.mapM (SensorInput.reading standardize) = some readings ∧
        slots.mapM (readSlot .headerDefault) = some readings := by
  unfold multiSensorBody at hbody
  split at hbody
  · cases hbody
  obtain ⟨slots, hfill, hencode⟩ := Option.bind_eq_some_iff.mp hbody
  obtain ⟨hlen, hcached, hreadings⟩ := fillSlots_some h.sensors hfill
  rw [templateEncode_eq] at hencode
  split at hencode
  · rename_i hfits
    cases hencode
    have hid := h.id_le
    have hstate := h.state_le
    have hok : (effectiveMsg .headerDefault call slots).Ok CoreConfig.headerDefault.exts
        CoreConfig.headerDefault.tmplMaxSensors :=
      ⟨h.id_plain.fitsToken (Nat.lt_of_le_of_lt hid (by decide)) (cons_ends_subset (by decide)),
        h.state_plain.fitsToken (Nat.lt_of_le_of_lt hstate (by decide))
          (cons_ends_subset (by decide)),
        tsToken_fits _ _ _, fun slot hslot => (hcached slot hslot).ok, hfits.1⟩
    refine ⟨slots, rfl, hfits.2, ⟨hok, ?_, ?_, hcached, hfits.1⟩, hlen, hreadings⟩
    · exact dot_not_mem_decimal _
    · have hroom : 31 + 15 + 3 ≤ FusionSizes.headerDefault.maxPrefix := by decide
      exact Nat.le_trans (Nat.add_le_add_right (Nat.add_le_add hid hstate) 3) hroom
  · cases hencode

/-! ## The other side -/

/-- The outputs of a decode hold what a call sends. -/
@[mk_iff]
structure MultiSensorCaps.Fit (caps : MultiSensorCaps) (call : MultiSensorCall V) : Prop where
  nodeId : call.nodeId.length < caps.nodeId
  nodeState : call.nodeState.length < caps.nodeState
  sensors : call.sensors.length ≤ caps.sensors

instance (caps : MultiSensorCaps) (call : MultiSensorCall V) : Decidable (caps.Fit call) :=
  decidable_of_iff _ (MultiSensorCaps.fit_iff caps call).symm

/-- The text of a message is decoded into its node and the readings of its slots. -/
theorem readMultiSensorBody_text {cfg : CoreConfig} {msg : TemplateMsg}
    (hok : msg.Ok cfg.exts cfg.tmplMaxSensors) (hlen : (msg.text cfg.exts).length < cfg.bodyCap)
    {caps : MultiSensorCaps} (hid : msg.nodeId.length < caps.nodeId)
    (hstate : msg.nodeState.length < caps.nodeState) (hcount : msg.sensors.length ≤ caps.sensors)
    {readings : List SensorOutput} (hread : msg.sensors.mapM (readSlot cfg) = some readings) :
    readMultiSensorBody cfg caps (msg.text cfg.exts) =
      some ⟨msg.nodeId, msg.nodeState, readings⟩ := by
  unfold readMultiSensorBody
  rw [if_neg (by omega), cString_eq_self hok.nul_not_mem_text, templateDecode_text hok]
  simp only [Option.bind_eq_bind, Option.bind_some, copyText_of_lt hid, copyText_of_lt hstate,
    if_neg (Nat.not_lt.mpr hcount), hread]
  rfl

/-- A decode gave back node and sensors of a call. -/
def MultiSensorCall.DeliveredAs (standardize : V → Bytes → Option (Int64 × Bytes))
    (call : MultiSensorCall V) (out : Option MultiSensorOut) : Prop :=
  ∃ readings, call.sensors.mapM (SensorInput.reading standardize) = some readings ∧
    out = some ⟨call.nodeId, call.nodeState, readings⟩

/-- A call that returns 1 has encoded its body. -/
theorem coreEncode_some {c : FusionSizes} {cfg : CoreConfig} {st : FusionState c}
    {call : MultiSensorCall V} {out : EncodeOut} {r : EncodeResult c}
    (hr : coreEncodeMultiSensorPacketAuto cfg standardize st call out = some r)
    (hret : r.ret = true) : ∃ body, multiSensorBody cfg standardize call = some body ∧
      fusionEncode st (multiSensorFusionCall cfg call body) out = some r := by
  unfold coreEncodeMultiSensorPacketAuto at hr
  cases hbody : multiSensorBody cfg standardize call with
  | none =>
    rw [hbody] at hr
    cases hr
    cases hret
  | some body =>
    rw [hbody] at hr
    exact ⟨body, rfl, hr⟩

/-- The packet of a well-formed call takes the table it was encoded from to the table
the encoder is left with, and is decoded as the call. -/
theorem multiSensor_step {st : FusionState FusionSizes.headerDefault} (hok : StateOk st)
    {call : MultiSensorCall V} (hcall : call.WellFormed standardize) {caps : MultiSensorCaps}
    (hcaps : caps.Fit call) {out : EncodeOut} {r : EncodeResult FusionSizes.headerDefault}
    (hr : coreEncodeMultiSensorPacketAuto .headerDefault standardize st call out = some r)
    (hret : r.ret = true) :
    StateOk r.state ∧ ∃ d, coreDecodeMultiSensorPacketAuto .headerDefault st r.out.packet caps =
      some ⟨r.state, d⟩ ∧ call.DeliveredAs standardize (d.map Prod.fst) := by
  have hc : FusionSizes.headerDefault.Small := FusionSizes.shipped_small (by decide)
  obtain ⟨body, hbody, henc⟩ := coreEncode_some hr hret
  obtain ⟨slots, htext, hlen, hcached, hslots, readings, hreadings, hread⟩ :=
    multiSensorBody_some hcall hbody
  obtain ⟨msg, hexpect, hmsg, hle, hid, hstate, hsensors⟩ := expectedBody_text hcached
    (multiSensorFusionCall .headerDefault call body) htext (Nat.le_refl _) r.out.outCmd
  rw [htext] at hlen
  have hmsglen : (msg.text CoreConfig.headerDefault.exts).length <
      CoreConfig.headerDefault.bodyCap := Nat.lt_of_le_of_lt hle hlen
  have hint : FullFitsInt st (multiSensorFusionCall .headerDefault call body) := by
    intro _
    rw [← htext] at hlen
    exact Nat.lt_of_le_of_lt (Nat.add_le_add_right (Nat.le_of_lt hlen) 16) (by decide)
  have hcap := Nat.le_of_lt hmsglen
  rw [← hexpect] at hcap
  obtain ⟨pm, hdec⟩ := lockstep_step hc hok henc hret hint hcap
  have hidroom : msg.nodeId.length < caps.nodeId := by
    rw [hid]
    exact hcaps.nodeId
  have hstateroom : msg.nodeState.length < caps.nodeState := by
    rw [hstate]
    exact hcaps.nodeState
  have hcount : msg.sensors.length ≤ caps.sensors := by
    rw [hsensors]
    exact Nat.le_trans (Nat.le_of_eq hslots) hcaps.sensors
  have hslotread : msg.sensors.mapM (readSlot .headerDefault) = some readings := by
    rw [hsensors]
    exact hread
  have hreadBody := readMultiSensorBody_text hmsg hmsglen hidroom hstateroom hcount hslotread
  refine ⟨?_, some (⟨msg.nodeId, msg.nodeState, readings⟩, pm), ?_, readings, hreadings, ?_⟩
  · exact fusionStep_stateOk hc st (.encode _ out) r.state hok (by rw [fusionStep, henc]; rfl)
  · rw [coreDecodeMultiSensorPacketAuto, hdec, hexpect]
    simp only [Option.map_some, Option.bind_some, hreadBody]
  · rw [hid, hstate]
    rfl

end

/-! ## Runs of a linked pair -/

section
variable {V : Type} (standardize : V → Bytes → Option (Int64 × Bytes))

/-- One call whose packet is handed over at once, and the receiver's outputs. -/
structure MultiSensorSend (V : Type) where
  call : MultiSensorCall V
  out : EncodeOut
  caps : MultiSensorCaps

/-- The last exchange: the call, and what its packet was decoded as. -/
structure MultiSensorExchange (V : Type) where
  call : MultiSensorCall V
  decoded : Option MultiSensorOut

structure MultiSensorLink (V : Type) where
  sender : FusionState FusionSizes.headerDefault
  receiver : FusionState FusionSizes.headerDefault
  last : Option (MultiSensorExchange V)

def MultiSensorLink.init : MultiSensorLink V :=
  ⟨fusionStateInit FusionSizes.headerDefault, fusionStateInit FusionSizes.headerDefault, none⟩

/-- An encode call that returns 1 and the decode of its packet. A decode that leaves
the arrays hands out nothing. -/
def multiSensorStep (l : MultiSensorLink V) (s : MultiSensorSend V) :
    Option (MultiSensorLink V) := do
  let r ← coreEncodeMultiSensorPacketAuto .headerDefault standardize l.sender s.call s.out
  if r.ret = true then
    let d := (coreDecodeMultiSensorPacketAuto .headerDefault l.receiver r.out.packet s.caps).getD
      ⟨l.receiver, none⟩
    some ⟨r.state, d.state, some ⟨s.call, d.out.map Prod.fst⟩⟩
  else none

/-- The last packet was decoded as the call it was encoded from. -/
def LastDelivered (l : MultiSensorLink V) : Prop :=
  ∀ x, l.last = some x → x.call.DeliveredAs standardize x.decoded

@[mk_iff]
structure MultiSensorSend.WellFormed (s : MultiSensorSend V) : Prop where
  call : s.call.WellFormed standardize
  caps : s.caps.Fit s.call

instance (s : MultiSensorSend V) : Decidable (s.WellFormed standardize) :=
  decidable_of_iff _ (MultiSensorSend.wellFormed_iff standardize s).symm

/-- Both tables are the same, and the last packet arrived. -/
structure MultiSensorLink.Ok (l : MultiSensorLink V) : Prop where
  state : StateOk l.sender
  same : l.sender = l.receiver
  delivered : LastDelivered standardize l

theorem multiSensorStep_keeps (l : MultiSensorLink V) (s : MultiSensorSend V)
    (l' : MultiSensorLink V) (hl : l.Ok standardize) (hs : s.WellFormed standardize)
    (h : multiSensorStep standardize l s = some l') : l'.Ok standardize := by
  obtain ⟨r, hr, h⟩ := Option.bind_eq_some_iff.mp h
  split at h
  · rename_i hret
    obtain ⟨hstate, d, hdec, hdelivered⟩ := multiSensor_step hl.state hs.call hs.caps hr hret
    rw [← hl.same, hdec, Option.getD_some] at h
    cases h
    refine ⟨hstate, rfl, ?_⟩
    intro x hx
    cases hx
    exact hdelivered
  · cases h

/-- In the default build, over every run of well-formed calls that return 1, each
packet is decoded as the node, the states and the readings it was encoded from. -/
theorem multi_sensor_delivered {sends : List (MultiSensorSend V)}
    (hsends : ∀ s ∈ sends, s.WellFormed standardize) :
    Always (multiSensorStep standardize) (LastDelivered standardize) MultiSensorLink.init
      sends := by
  have hc : FusionSizes.headerDefault.Small := FusionSizes.shipped_small (by decide)
  have hinit : (MultiSensorLink.init : MultiSensorLink V).Ok standardize := by
    refine ⟨stateOk_init hc, rfl, ?_⟩
    intro x hx
    cases hx
  have hrun := always_of_each (multiSensorStep standardize) (multiSensorStep_keeps standardize)
    hinit (each_of_forall _ _ hsends)
  exact always_mono _ (fun l hl => hl.delivered) hrun

end

/-- `osfx_standardize_value` on whole numbers of percent and of kilopascals. -/
def standardizeWhole (value : Int) (unit : Bytes) : Option (Int64 × Bytes) :=
  if unit = ascii "kPa" then some (Int64.ofInt (value * 1000 * 10000), ascii "Pa")
  else some (Int64.ofInt (value * 10000), unit)

/-- Pressure and humidity of a node. -/
def twoReadings (tid : UInt8) (timestampRaw : UInt64) (humidity : Int) :
    MultiSensorSend Int where
  call :=
    { sourceAid := 42
      tid := tid
      timestampRaw := timestampRaw
      nodeId := ascii "NODE_A"
      nodeState := ascii "ONLINE"
      sensors :=
        [⟨ascii "TEMP", ascii "OK", 1, ascii "kPa", none, none, none⟩,
         ⟨ascii "HUM", ascii "OK", humidity, ascii "%", none, some (ascii "wet"), none⟩]
      outPacketCap := 256 }
  out := ⟨[], 0, 0⟩
  caps := ⟨32, 16, 2⟩

/-- Two streams, with a FULL, a DIFF and a HEART on one of them. -/
def twoStreams : List (MultiSensorSend Int) :=
  [twoReadings 2 1710000010 55, twoReadings 3 1710000010 70, twoReadings 2 1710000011 56,
   twoReadings 2 1710000012 56]

theorem twoStreams_delivered :
    (run (multiSensorStep standardizeWhole) MultiSensorLink.init twoStreams).isSome = true ∧
      Always (multiSensorStep standardizeWhole) (LastDelivered standardizeWhole)
        MultiSensorLink.init twoStreams :=
  ⟨by decide +kernel, multi_sensor_delivered standardizeWhole (by decide +kernel)⟩

end Osfx
