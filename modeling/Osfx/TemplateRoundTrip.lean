import Osfx.TemplateGrammar

/-!
# The round trip of the template grammar

For tokens that avoid the separators behind them, `template_round_trip` says when a
message is written and that its text is read back as it was, under any payload switches:
a build without an extension has no field for it.
-/

namespace Osfx

/-- The tokens of a slot, each without the separators that can follow it and short enough
for its field. -/
structure SensorSlot.Fits (s : SensorSlot) : Prop where
  id : FitsToken tmplIdMax (gt :: textEnds) s.sensorId
  state : FitsToken tmplStateMax (dot :: textEnds) s.sensorState
  unit : FitsToken tmplUnitMax (colon :: textEnds) s.sensorUnit
  value : FitsToken tmplValueMax valueSeps s.sensorValue
  geohash : FitsToken tmplGeohashMax valueSeps s.geohashId
  message : FitsToken tmplMsgMax valueSeps s.supplementaryMessage
  url : FitsToken tmplUrlMax valueSeps s.resourceUrl

structure TemplateMsg.Fits (maxSensors : Nat) (msg : TemplateMsg) : Prop where
  id : FitsToken tmplIdMax (dot :: textEnds) msg.nodeId
  state : FitsToken tmplStateMax (dot :: textEnds) msg.nodeState
  ts : FitsToken tmplTsMax textEnds msg.tsToken
  sensors : ∀ s ∈ msg.sensors, s.Fits
  count : msg.sensors.length ≤ maxSensors

/-- The fields of a slot that the build has. -/
def SensorSlot.fields (exts : Extensions) (s : SensorSlot) : SensorSlot :=
  { s with
    geohashId := if exts.geohashId then s.geohashId else []
    supplementaryMessage := if exts.supplementaryMessage then s.supplementaryMessage else []
    resourceUrl := if exts.resourceUrl then s.resourceUrl else [] }

def TemplateMsg.fields (exts : Extensions) (msg : TemplateMsg) : TemplateMsg :=
  { msg with sensors := msg.sensors.map (SensorSlot.fields exts) }

/-- The slots a caller of the decoder sees: `sensor_count` is a `uint8_t`. -/
def TemplateMsg.seenSensors (msg : TemplateMsg) : List SensorSlot :=
  msg.sensors.take (UInt8.ofNat msg.sensors.length).toNat

/-- A field the build has is as it was, one it does not have is empty. -/
theorem fitsToken_field {cap : Nat} {seps token : Bytes} (h : FitsToken cap seps token)
    (enabled : Bool) : FitsToken cap seps (if enabled then token else []) := by
  cases enabled with
  | true => exact h
  | false => exact fitsToken_nil (Nat.zero_lt_of_lt h.1) seps

theorem SensorSlot.Fits.ok {s : SensorSlot} (h : s.Fits) (exts : Extensions) :
    (s.fields exts).Ok exts where
  id := h.id
  state := h.state
  unit := h.unit
  value := h.value
  geohash := fitsToken_field h.geohash exts.geohashId
  message := fitsToken_field h.message exts.supplementaryMessage
  url := fitsToken_field h.url exts.resourceUrl
  geohash_off := fun hoff => by simp [fields, hoff]
  message_off := fun hoff => by simp [fields, hoff]
  url_off := fun hoff => by simp [fields, hoff]

theorem TemplateMsg.Fits.ok {maxSensors : Nat} {msg : TemplateMsg} (h : msg.Fits maxSensors)
    (exts : Extensions) : (msg.fields exts).Ok exts maxSensors where
  id := h.id
  state := h.state
  ts := h.ts
  sensors := by
    intro s hs
    obtain ⟨t, ht, rfl⟩ := List.mem_map.mp hs
    exact (h.sensors t ht).ok exts
  count := by simpa [fields] using h.count

/-- The text shows only the fields the build has. -/
theorem SensorSlot.text_fields (exts : Extensions) (s : SensorSlot) :
    (s.fields exts).text exts = s.text exts := by
  have hitems : extensionItems exts (s.fields exts) = extensionItems exts s := by
    obtain ⟨geohashId, supplementaryMessage, resourceUrl⟩ := exts
    cases geohashId <;> cases supplementaryMessage <;> cases resourceUrl <;>
      simp [extensionItems, fields]
  simp only [text, valueText, hitems]
  rfl

theorem TemplateMsg.text_fields (exts : Extensions) (msg : TemplateMsg) :
    (msg.fields exts).text exts = msg.text exts := by
  have hsensors : (msg.fields exts).sensors.map (SensorSlot.text exts) =
      msg.sensors.map (SensorSlot.text exts) := by
    simp [fields, Function.comp_def, SensorSlot.text_fields]
  rw [text, text, hsensors]
  rfl

/-- A message that fits is written exactly if its text and a NUL do, and its text is read
back token by token and slot by slot. -/
theorem template_round_trip (exts : Extensions) {maxSensors : Nat} (hmax : maxSensors ≤ 255)
    {msg : TemplateMsg} (h : msg.Fits maxSensors) (outCap : Nat) :
    ((templateEncode exts maxSensors msg outCap).isSome = true ↔
      (msg.text exts).length + 1 ≤ outCap) ∧
    ∀ text, templateEncode exts maxSensors msg outCap = some text →
      ∃ read, templateDecode exts maxSensors text = some read ∧ read.nodeId = msg.nodeId ∧
        read.nodeState = msg.nodeState ∧ read.tsToken = msg.tsToken ∧
        read.seenSensors = msg.sensors.map (SensorSlot.fields exts) := by
  rw [templateEncode_eq]
  constructor
  · split
    · rename_i hfit
      simpa using hfit.2
    · rename_i hfit
      have hcount := h.count
      simp only [Option.isSome_none, Bool.false_eq_true, false_iff]
      omega
  · intro text htext
    split at htext
    · cases htext
      have hread := templateDecode_text (h.ok exts)
      rw [msg.text_fields] at hread
      refine ⟨msg.fields exts, hread, rfl, rfl, rfl, ?_⟩
      have hlen : (msg.fields exts).sensors.length ≤ 255 := Nat.le_trans (h.ok exts).count hmax
      rw [TemplateMsg.seenSensors, UInt8.toNat_ofNat', Nat.mod_eq_of_lt (by omega),
        List.take_length]
      rfl
    · cases htext

/-- A slot with a message and a URL, in a build that has no message. -/
def probeSlot : SensorSlot :=
  ⟨ascii "T.1", ascii "O>K", ascii "C", ascii "21.5:7", [], ascii "hot", ascii "u/1"⟩

def probeMsg : TemplateMsg := ⟨ascii "N>1", ascii "U", ascii "1.5", [probeSlot, probeSlot]⟩

theorem probe_round_trip :
    ((templateEncode ⟨true, false, true⟩ 4 probeMsg 64).isSome = true ↔
      (probeMsg.text ⟨true, false, true⟩).length + 1 ≤ 64) ∧
    ∀ text, templateEncode ⟨true, false, true⟩ 4 probeMsg 64 = some text →
      ∃ read, templateDecode ⟨true, false, true⟩ 4 text = some read ∧
        read.nodeId = probeMsg.nodeId ∧ read.nodeState = probeMsg.nodeState ∧
        read.tsToken = probeMsg.tsToken ∧
        read.seenSensors = probeMsg.sensors.map (SensorSlot.fields ⟨true, false, true⟩) := by
  have hslot : probeSlot.Fits := by
    constructor <;> decide
  have hmsg : probeMsg.Fits 4 := by
    refine ⟨by decide, by decide, by decide, fun s hs => ?_, by decide⟩
    have hs' : s = probeSlot := by simpa [probeMsg] using hs
    rw [hs']
    exact hslot
  exact template_round_trip ⟨true, false, true⟩ (by decide) hmsg 64

end Osfx
