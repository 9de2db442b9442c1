import Osfx.Fusion.Readings
import Osfx.MultiSensor
import Osfx.SensorAuto
import Osfx.TemplateDecoded

/-!
# Readings of one sensor end to end

`osfx_core_decode_sensor_packet_auto` of `osfx_core_facade.c` reads the first sensor of the
body that the fusion layer hands out. A body of the automatic path stands for its sensor in
whatever form it comes out, as sent or rebuilt (`readAutoBody_expected`), so the readings of
a stream are delivered as soon as its FULL has been (`auto_readings_recovered`). The same is
proved of the multi-sensor calls (`multi_readings_recovered`).
-/

namespace Osfx

open EventSystem Numeral SlotTable Streams Text

/-! ## osfx_core_decode_sensor_packet_auto -/

/-- What is asked for: a capacity of 0 stands for no buffer as well. -/
structure AutoWant where
  sensorId : Nat
  value : Bool
  unit : Nat
  deriving DecidableEq, Repr

/-- What is handed out of it: `scaled` stands for the value computed from it. -/
structure AutoReading where
  sensorId : Option Bytes
  scaled : Option Int64
  unit : Option Bytes
  deriving DecidableEq, Repr

def copyWanted (cap : Nat) (src : Bytes) : Option (Option Bytes) :=
  if cap = 0 then some none else (copyText cap src).map some

def decodeWanted (value : Bool) (src : Bytes) : Option (Option Int64) :=
  if value then (b62DecodeI64 src).map some else some none

section
variable (exts : Extensions) (maxSensors : Nat)

/-- What is read from a body that `osfx_fusion_decode_apply` hands out. -/
def readAutoBody (want : AutoWant) (body : Bytes) : Option AutoReading :=
  if 256 < body.length + 1 then none
  else do
    let msg ← templateDecode exts maxSensors (cString body)
    if msg.sensorCount = 0 then none
    else
      let s ← msg.sensors.head?
      let sensorId ← copyWanted want.sensorId s.sensorId
      let unit ← copyWanted want.unit s.sensorUnit
      let scaled ← decodeWanted want.value s.sensorValue
      return ⟨sensorId, scaled, unit⟩

structure AutoResult (c : FusionSizes) where
  state : FusionState c
  out : Option (AutoReading × PacketMeta)
  deriving DecidableEq

def coreDecodeSensorPacketAuto {c : FusionSizes} (st : FusionState c) (packet : Bytes)
    (want : AutoWant) : Option (AutoResult c) :=
  (fusionDecodeApply st packet 256).map fun d =>
    ⟨d.state, d.out.bind fun (body, pm) =>
      (readAutoBody exts maxSensors want body).map fun out => (out, pm)⟩

end

/-! ## One message -/

section
variable {c : FusionSizes} {exts : Extensions} {maxSensors : Nat} {msg : TemplateMsg}
  {s : SensorSlot}

/-- What the cache reads in the segment of a slot is the slot. -/
theorem sensorFits_of_parse (hid : gt ∉ s.sensorId) (hvalue : colon ∉ s.valueText exts)
    {sensor : Sensor} (h : parseSegment c (s.text exts) = some sensor) :
    SensorFits c (s.sensor exts) := by
  obtain ⟨htext, hgt, hcolon, hfits⟩ := parseSegment_eq_some.mp h
  rw [← s.segmentText_sensor] at htext
  have hcut := cutFirst_append hid ((s.sensor exts).2.1 ++ colon :: (s.sensor exts).2.2)
  have hcut' := cutFirst_append hgt (sensor.2.1 ++ colon :: sensor.2.2)
  have hlast : cutLast colon ((s.sensor exts).2.1 ++ colon :: (s.sensor exts).2.2) =
      some ((s.sensor exts).2.1, (s.sensor exts).2.2) := cutLast_eq_some.mpr ⟨rfl, hvalue⟩
  have hlast' : cutLast colon (sensor.2.1 ++ colon :: sensor.2.2) =
      some (sensor.2.1, sensor.2.2) := cutLast_eq_some.mpr ⟨rfl, hcolon⟩
  have hsame : s.sensorId ++ gt :: ((s.sensor exts).2.1 ++ colon :: (s.sensor exts).2.2) =
      sensor.1 ++ gt :: (sensor.2.1 ++ colon :: sensor.2.2) := htext
  rw [hsame, hcut', Option.some.injEq, Prod.mk.injEq] at hcut
  obtain ⟨htag, hrest⟩ := hcut
  rw [← hrest, hlast', Option.some.injEq, Prod.mk.injEq] at hlast
  have heq : s.sensor exts = sensor := Prod.ext htag.symm (Prod.ext hlast.1.symm hlast.2.symm)
  rw [heq]
  exact hfits

/-- A message of one sensor is cached as it is, if the cache takes anything of its body. -/
theorem cached_of_kept (hok : msg.Ok exts maxSensors) (hts : dot ∉ msg.tsToken)
    (hone : msg.sensors = [s]) (hvalue : colon ∉ s.valueText exts)
    (hk : keptSensors c (msg.text exts) ≠ []) : msg.Cached c exts maxSensors := by
  have hs : s.Ok exts := hok.sensors s (by rw [hone]; exact List.mem_cons_self)
  have hbar : cutFirst bar (msg.text exts) =
      some (msg.header, ended bar (msg.sensors.map (SensorSlot.text exts))) :=
    cutFirst_eq_some.mpr ⟨rfl, hok.not_mem_header (by decide)⟩
  have hdot : cutLast dot msg.header = some (msg.nodeId ++ dot :: msg.nodeState, msg.tsToken) :=
    cutLast_eq_some.mpr ⟨by simp [TemplateMsg.header], hts⟩
  have hroom : ¬ c.maxPrefix < (msg.nodeId ++ dot :: msg.nodeState).length + 2 := by
    intro hlong
    apply hk
    simp only [keptSensors, bodyHeader, hbar, hdot, Option.bind_eq_bind, Option.bind_some,
      if_pos hlong]
  have hsplit := hok.splitOn_segments
  rw [hone] at hsplit
  have hkept : ∃ x rest, (([s].map (SensorSlot.text exts) ++ [[]]).filterMap (parseSegment c)).take
      c.maxSensors = x :: rest := by
    apply List.exists_cons_of_ne_nil
    intro hnil
    apply hk
    simp only [keptSensors, bodyHeader, hbar, hdot, Option.bind_eq_bind, Option.bind_some,
      if_neg hroom, hone, hsplit]
    exact hnil
  obtain ⟨x, rest, hkept⟩ := hkept
  have hx : x ∈ ([s].map (SensorSlot.text exts) ++ [[]]).filterMap (parseSegment c) := by
    apply List.mem_of_mem_take (i := c.maxSensors)
    rw [hkept]
    exact List.mem_cons_self
  have hmax : c.maxSensors ≠ 0 := by
    intro hz
    rw [hz, List.take_zero] at hkept
    cases hkept
  have hempty : parseSegment c [] = none := rfl
  have hparse : parseSegment c (s.text exts) = some x := by
    cases hp : parseSegment c (s.text exts) with
    | none => simp [hp, hempty] at hx
    | some y =>
      have hxy : x = y := by simpa [hp, hempty] using hx
      rw [hxy]
  have hfits := sensorFits_of_parse (hs.id.not_mem (by decide)) hvalue hparse
  refine ⟨hok, hts, ?_, ?_, ?_⟩
  · simp only [List.length_append, List.length_cons] at hroom
    omega
  · rw [hone]
    exact List.forall_mem_singleton.mpr ⟨hs, hvalue, hfits⟩
  · rw [hone, List.length_singleton]
    omega

end

/-! ## The automatic path -/

section
variable {V : Type} {c : FusionSizes} (exts : Extensions) (maxSensors : Nat)
variable (resolve : V → Bytes → Int64 × Bytes)

/-- The message a call writes, with this timestamp token. -/
def SensorCall.msg (call : SensorCall V) (ts : Bytes) : TemplateMsg :=
  ⟨decimal call.sourceAid.toNat, ascii "U", ts,
    [⟨call.sensorId, ascii "U", call.stdUnit resolve, b62Numeral (call.scaled resolve), [], [],
      []⟩]⟩

/-- Sensor id and unit are told from what follows them. -/
structure SensorCall.Sendable (call : SensorCall V) : Prop where
  id_free : ∀ b ∈ call.sensorId, b ∉ gt :: textEnds
  unit_free : ∀ b ∈ call.stdUnit resolve, b ∉ colon :: textEnds

/-- The reading of a call, as far as it is asked for. -/
def SensorCall.autoReading (call : SensorCall V) (want : AutoWant) : AutoReading where
  sensorId := if want.sensorId = 0 then none else some call.sensorId
  scaled := if want.value then some (call.scaled resolve) else none
  unit := if want.unit = 0 then none else some (call.stdUnit resolve)

/-- The buffers hold the texts they are there for. -/
structure AutoWant.Fit (want : AutoWant) (call : SensorCall V) : Prop where
  sensorId : want.sensorId = 0 ∨ call.sensorId.length < want.sensorId
  unit : want.unit = 0 ∨ (call.stdUnit resolve).length < want.unit

variable {exts maxSensors resolve} {call : SensorCall V}

theorem sensorAutoBody_fits {body : Bytes}
    (h : sensorAutoBody exts maxSensors resolve call = some body) :
    call.sensorId.length < tmplIdMax ∧ (call.stdUnit resolve).length < tmplUnitMax ∧
      1 ≤ maxSensors := by
  obtain ⟨std, hstd, h⟩ := Option.bind_eq_some_iff.mp h
  obtain ⟨valueB62, -, h⟩ := Option.bind_eq_some_iff.mp h
  obtain ⟨aidStr, -, h⟩ := Option.bind_eq_some_iff.mp h
  obtain ⟨sensorId, hid, h⟩ := Option.bind_eq_some_iff.mp h
  obtain ⟨sensorState, -, h⟩ := Option.bind_eq_some_iff.mp h
  obtain ⟨sensorUnit, -, h⟩ := Option.bind_eq_some_iff.mp h
  obtain ⟨sensorValue, -, hencode⟩ := Option.bind_eq_some_iff.mp h
  obtain ⟨rfl, hunit⟩ := standardizeValue_some hstd
  refine ⟨(copyText_some hid).2, hunit, ?_⟩
  rw [templateEncode_eq] at hencode
  split at hencode
  · rename_i hfits
    exact hfits.1
  · cases hencode

theorem SensorCall.text_msg (call : SensorCall V) :
    (call.msg resolve (b64urlTs6 call.timestampRaw)).text exts = call.body resolve :=
  oneSlot_text exts _ _ _ _ _

theorem SensorCall.Sendable.ok (h : call.Sendable resolve) {body : Bytes}
    (hbody : sensorAutoBody exts maxSensors resolve call = some body) :
    (call.msg resolve (b64urlTs6 call.timestampRaw)).Ok exts maxSensors := by
  obtain ⟨hid, hunit, hmax⟩ := sensorAutoBody_fits hbody
  have hvalue : FitsToken tmplValueMax valueSeps (b62Numeral (call.scaled resolve)) :=
    (plain_b62Numeral _).fitsToken
      (Nat.lt_of_le_of_lt (length_b62Numeral _) (by decide)) valueSeps_subset
  have haid : FitsToken tmplIdMax (dot :: textEnds) (decimal call.sourceAid.toNat) := by
    refine ⟨Nat.lt_of_le_of_lt (decimal_u32_length _) (by decide), fun b hb hsep => ?_⟩
    rcases List.mem_cons.mp hsep with rfl | hend
    · exact dot_not_mem_decimal _ hb
    · exact decimal_not_ends b hb hend
  have hts : FitsToken tmplTsMax textEnds (b64urlTs6 call.timestampRaw) := by
    refine ⟨by rw [length_b64urlTs6]; decide, fun b hb hend => ?_⟩
    rcases mem_textEnds.mp hend with rfl | rfl
    · exact absurd (mem_b64urlTs6 hb) (by decide)
    · exact bar_not_mem_b64urlTs6 _ hb
  have hstate : FitsToken tmplStateMax (dot :: textEnds) (ascii "U") := by decide
  refine ⟨haid, hstate, hts, List.forall_mem_singleton.mpr ?_, hmax⟩
  exact ⟨⟨hid, h.id_free⟩, hstate, ⟨hunit, h.unit_free⟩, hvalue, fitsToken_nil (by decide) _,
    fitsToken_nil (by decide) _, fitsToken_nil (by decide) _, fun _ => rfl, fun _ => rfl,
    fun _ => rfl⟩

/-- The message with another timestamp has a text that fits the decoder's buffer. -/
theorem SensorCall.length_msg_le (hid : call.sensorId.length < tmplIdMax)
    (hunit : (call.stdUnit resolve).length < tmplUnitMax) {ts : Bytes} (hts : ts.length ≤ 20) :
    ((call.msg resolve ts).text exts).length ≤ 255 := by
  have haid := decimal_u32_length call.sourceAid
  have hvalue := length_b62Numeral (call.scaled resolve)
  have htext : (call.msg resolve ts).text exts =
      decimal call.sourceAid.toNat ++ ascii ".U." ++ ts ++ [bar] ++ call.sensorId ++
        ascii ">U." ++ call.stdUnit resolve ++ [colon] ++ b62Numeral (call.scaled resolve) ++
        [bar] := oneSlot_text exts _ _ _ _ _
  have hid' : call.sensorId.length < 32 := hid
  have hunit' : (call.stdUnit resolve).length < 24 := hunit
  have hstatus : (ascii ".U.").length = 3 := rfl
  have hstate : (ascii ">U.").length = 3 := rfl
  rw [htext]
  simp only [List.length_append, List.length_singleton, hstatus, hstate]
  omega

/-- In whatever form it comes out, the body of a call is the text of a message with its
sensor, and fits the decoder's buffer. -/
theorem expectedBody_auto (h : call.Sendable resolve) {body : Bytes}
    (hbody : sensorAutoBody exts maxSensors resolve call = some body) {cmd : UInt8}
    (hcmd : cmd ≠ Cmd.dataFull → keptSensors c body ≠ []) :
    ∃ ts : Bytes, expectedBody c (call.fusionCall body) cmd =
        (call.msg resolve ts).text exts ∧
      (call.msg resolve ts).Ok exts maxSensors ∧
      ts.length ≤ 20 := by
  have hok := h.ok hbody
  obtain ⟨rfl, -⟩ := sensorAutoBody_some hbody
  by_cases hfull : cmd = Cmd.dataFull
  · refine ⟨b64urlTs6 call.timestampRaw, ?_, hok, by simp⟩
    rw [expectedBody, if_pos hfull]
    exact (call.text_msg).symm
  · have hk := hcmd hfull
    have htext : call.body resolve = (call.msg resolve (b64urlTs6 call.timestampRaw)).text exts :=
      call.text_msg.symm
    rw [htext] at hk
    have hts : dot ∉ b64urlTs6 call.timestampRaw :=
      fun hb => absurd (mem_b64urlTs6 hb) (by decide)
    have hvalue : colon ∉ SensorSlot.valueText exts ⟨call.sensorId, ascii "U",
        call.stdUnit resolve, b62Numeral (call.scaled resolve), [], [], []⟩ := by
      have hitems : SensorSlot.valueText exts ⟨call.sensorId, ascii "U", call.stdUnit resolve,
          b62Numeral (call.scaled resolve), [], [], []⟩ = b62Numeral (call.scaled resolve) := by
        simp [SensorSlot.valueText, extensionItems, itemsText]
      rw [hitems]
      exact (plain_b62Numeral _).not_mem (by decide)
    have hcached := cached_of_kept hok hts rfl hvalue hk
    have hlen : (decimal (call.timestampRaw.toNat % 2 ^ 48)).length ≤ 20 :=
      decimal_length_le (by decide) (Nat.lt_trans (Nat.mod_lt _ (by decide)) (by decide))
    refine ⟨decimal (call.timestampRaw.toNat % 2 ^ 48), ?_, ?_, hlen⟩
    · rw [expectedBody, if_neg hfull]
      have htext := hcached.templateText (call.timestampRaw.toNat % 2 ^ 48)
      rw [call.text_msg] at htext
      exact htext
    · exact ⟨hok.id, hok.state, ⟨Nat.lt_of_le_of_lt hlen (by decide), decimal_not_ends⟩,
        hok.sensors, hok.count⟩

/-- Sensor, unit and value are read from the text of such a message. -/
theorem readAutoBody_msg {ts : Bytes}
    (hok : (call.msg resolve ts).Ok exts maxSensors)
    (hlen : ((call.msg resolve ts).text exts).length ≤ 255)
    {want : AutoWant} (hwant : want.Fit resolve call) :
    readAutoBody exts maxSensors want
        ((call.msg resolve ts).text exts) =
      some (call.autoReading resolve want) := by
  have hcount : (call.msg resolve ts).sensorCount ≠ 0 := by
    rw [TemplateMsg.sensorCount, SensorCall.msg, List.length_singleton]
    decide
  have hid : copyWanted want.sensorId call.sensorId =
      some (call.autoReading resolve want).sensorId := by
    simp only [copyWanted, SensorCall.autoReading]
    split
    · rfl
    · rename_i hne
      rw [copyText_of_lt (hwant.sensorId.resolve_left hne)]
      rfl
  have hunit : copyWanted want.unit (call.stdUnit resolve) =
      some (call.autoReading resolve want).unit := by
    simp only [copyWanted, SensorCall.autoReading]
    split
    · rfl
    · rename_i hne
      rw [copyText_of_lt (hwant.unit.resolve_left hne)]
      rfl
  have hvalue : decodeWanted want.value (b62Numeral (call.scaled resolve)) =
      some (call.autoReading resolve want).scaled := by
    simp only [decodeWanted, b62DecodeI64_numeral, Option.map_some, SensorCall.autoReading]
    split <;> rfl
  have hsensor : (call.msg resolve ts).sensors.head? = some ⟨call.sensorId, ascii "U",
      call.stdUnit resolve, b62Numeral (call.scaled resolve), [], [], []⟩ := rfl
  unfold readAutoBody
  rw [if_neg (by omega), cString_eq_self hok.nul_not_mem_text, templateDecode_text hok]
  simp only [Option.bind_eq_bind, Option.bind_some, if_neg hcount, hsensor, hid, hunit, hvalue]
  rfl

end

/-! ## Delivery -/

/-- A packet that is no FULL is of a body the cache takes a sensor of. -/
theorem kept_of_delta {c : FusionSizes} (hc : c.FieldsFit) {st t : FusionState c}
    (hok : StateOk st) {x : EncodeCall} {a : EncodeAnswer} (h : encodeStep st x = some (t, a))
    (hret : a.1 = true) (hcmd : a.2.outCmd ≠ Cmd.dataFull) :
    keptSensors c x.call.fullBody ≠ [] := by
  have henc := encodeStep_some.mp h
  intro hk
  exact hcmd ((sentFull_iff hc hok henc hret).mp (Or.inl hk))

section
variable {V : Type} {c : FusionSizes} (exts : Extensions) (maxSensors : Nat)
variable (resolve : V → Bytes → Int64 × Bytes)

def autoEncodeStep (st : FusionState c) (x : SensorCall V × EncodeOut) :
    Option (FusionState c × EncodeAnswer) :=
  (coreEncodeSensorPacketAuto exts maxSensors resolve st x.1 x.2).map fun r =>
    (r.state, r.ret, r.out)

def autoDecodeStep (st : FusionState c) (y : Bytes × AutoWant) :
    Option (FusionState c × Option (AutoReading × PacketMeta)) :=
  (coreDecodeSensorPacketAuto exts maxSensors st y.1 y.2).map fun r => (r.state, r.out)

/-- The automatic path as an application of the fusion layer. -/
def autoCodec : BodyCodec (SensorCall V) AutoWant AutoReading where
  stream x := (x.sourceAid, x.tid)
  call x := (sensorAutoBody exts maxSensors resolve x).map x.fusionCall
  outBodyCap _ := 256
  read := readAutoBody exts maxSensors
  call_stream := by
    intro x f h
    obtain ⟨body, -, rfl⟩ := Option.map_eq_some_iff.mp h
    rfl

theorem autoEncodeStep_eq : autoEncodeStep (c := c) exts maxSensors resolve =
    (autoCodec exts maxSensors resolve).encodeStep := by
  funext st x
  unfold autoEncodeStep coreEncodeSensorPacketAuto BodyCodec.encodeStep
  cases hbody : sensorAutoBody exts maxSensors resolve x.1 with
  | none => simp only [autoCodec, hbody, Option.map_none, Option.map_some]
  | some body => simp only [autoCodec, hbody, Option.map_some, encodeStep]

theorem autoDecodeStep_eq : autoDecodeStep (c := c) exts maxSensors =
    (autoCodec exts maxSensors resolve).decodeStep := by
  funext st y
  simp only [autoDecodeStep, coreDecodeSensorPacketAuto, BodyCodec.decodeStep, decodeStep,
    Option.map_map]
  rfl

/-- The call returned 1 for a sensor that can be told, its packet arrives, and there is room
for what is asked for. -/
structure AutoDelivers {Answer : Type} (s : BodyCodec.Sent (SensorCall V))
    (r : (Bytes × AutoWant) × Answer) : Prop where
  sent : s.2.1 = true
  packet : r.1.1 = s.2.2.packet
  sendable : s.1.1.Sendable resolve
  wanted : r.1.2.Fit resolve s.1.1

variable {exts maxSensors resolve}

/-- What is known of a call that returned 1. -/
theorem autoCodec_issued (hc : c.FieldsFit) {s : BodyCodec.Sent (SensorCall V)}
    (h : (autoCodec exts maxSensors resolve).Issued c s) (hret : s.2.1 = true) :
    ∃ body, sensorAutoBody exts maxSensors resolve s.1.1 = some body ∧
      (s.2.2.outCmd ≠ Cmd.dataFull → keptSensors c body ≠ []) := by
  obtain ⟨st, t, hok, hstep⟩ := h
  unfold BodyCodec.encodeStep at hstep
  cases hbody : sensorAutoBody exts maxSensors resolve s.1.1 with
  | none =>
    simp only [autoCodec, hbody, Option.map_none, Option.some.injEq, Prod.mk.injEq] at hstep
    rw [← hstep.2] at hret
    cases hret
  | some body =>
    simp only [autoCodec, hbody, Option.map_some] at hstep
    exact ⟨body, rfl, kept_of_delta hc hok hstep hret⟩

theorem AutoDelivers.delivers (hc : c.FieldsFit) {s : BodyCodec.Sent (SensorCall V)}
    {r : BodyCodec.Received AutoWant AutoReading}
    (hissued : (autoCodec exts maxSensors resolve).Issued c s) (h : AutoDelivers resolve s r) :
    (autoCodec exts maxSensors resolve).Delivers c s r := by
  obtain ⟨body, hbody, hkept⟩ := autoCodec_issued hc hissued h.sent
  have hlen := (sensorAutoBody_some hbody).2
  obtain ⟨hid, hunit, -⟩ := sensorAutoBody_fits hbody
  obtain ⟨ts, hexpected, -, hts⟩ := expectedBody_auto h.sendable hbody hkept
  refine ⟨s.1.1.fusionCall body, ?_, ⟨h.sent, fun _ => ?_⟩, h.packet, ?_⟩
  · simp only [autoCodec, hbody, Option.map_some]
  · exact Nat.lt_of_le_of_lt (Nat.add_le_add_right hlen 16) (by decide)
  · rw [hexpected]
    exact Nat.le_trans (SensorCall.length_msg_le hid hunit hts) (by decide : 255 ≤ 256)

/-- What is read from the body of a call that returned 1 is its reading. -/
theorem autoCodec_read (hc : c.FieldsFit) {s : BodyCodec.Sent (SensorCall V)}
    (hissued : (autoCodec exts maxSensors resolve).Issued c s) (hret : s.2.1 = true)
    (hsendable : s.1.1.Sendable resolve) {want : AutoWant} (hwant : want.Fit resolve s.1.1)
    {call : FusionCall} (hcall : (autoCodec exts maxSensors resolve).call s.1.1 = some call) :
    readAutoBody exts maxSensors want (expectedBody c call s.2.2.outCmd) =
      some (s.1.1.autoReading resolve want) := by
  obtain ⟨body, hbody, hkept⟩ := autoCodec_issued hc hissued hret
  obtain ⟨hid, hunit, -⟩ := sensorAutoBody_fits hbody
  obtain ⟨ts, hexpected, hok, hts⟩ := expectedBody_auto hsendable hbody hkept
  have hcall' : call = s.1.1.fusionCall body := by
    simpa [autoCodec, hbody] using hcall.symm
  rw [hcall', hexpected]
  exact readAutoBody_msg hok (SensorCall.length_msg_le hid hunit hts) hwant

theorem AutoDelivers.reading (hc : c.FieldsFit) {s : BodyCodec.Sent (SensorCall V)}
    {r : BodyCodec.Received AutoWant AutoReading} (h : AutoDelivers resolve s r)
    (hreads : (autoCodec exts maxSensors resolve).Reads c s r) :
    r.2.map Prod.fst = some (s.1.1.autoReading resolve r.1.2) := by
  obtain ⟨hissued, call, hcall, hread⟩ := hreads
  exact hread.trans (autoCodec_read hc hissued h.sent h.sendable h.wanted hcall)

end

/-! ## The multi-sensor calls -/

section
variable {V : Type} (standardize : V → Bytes → Option (Int64 × Bytes))

def multiEncodeStep (st : FusionState FusionSizes.headerDefault)
    (x : MultiSensorCall V × EncodeOut) :
    Option (FusionState FusionSizes.headerDefault × EncodeAnswer) :=
  (coreEncodeMultiSensorPacketAuto .headerDefault standardize st x.1 x.2).map fun r =>
    (r.state, r.ret, r.out)

def multiDecodeStep (st : FusionState FusionSizes.headerDefault) (y : Bytes × MultiSensorCaps) :
    Option (FusionState FusionSizes.headerDefault × Option (MultiSensorOut × PacketMeta)) :=
  (coreDecodeMultiSensorPacketAuto .headerDefault st y.1 y.2).map fun r => (r.state, r.out)

/-- The multi-sensor calls as an application of the fusion layer. -/
def multiCodec : BodyCodec (MultiSensorCall V) MultiSensorCaps MultiSensorOut where
  stream x := (x.sourceAid, x.tid)
  call x := (multiSensorBody .headerDefault standardize x).map
    (multiSensorFusionCall .headerDefault x)
  outBodyCap _ := CoreConfig.headerDefault.bodyCap
  read := readMultiSensorBody .headerDefault
  call_stream := by
    intro x f h
    obtain ⟨body, -, rfl⟩ := Option.map_eq_some_iff.mp h
    rfl

theorem multiEncodeStep_eq :
    multiEncodeStep standardize = (multiCodec standardize).encodeStep := by
  funext st x
  unfold multiEncodeStep coreEncodeMultiSensorPacketAuto BodyCodec.encodeStep
  cases hbody : multiSensorBody .headerDefault standardize x.1 with
  | none => simp only [multiCodec, hbody, Option.map_none, Option.map_some]
  | some body => simp only [multiCodec, hbody, Option.map_some, encodeStep]

theorem multiDecodeStep_eq : multiDecodeStep = (multiCodec standardize).decodeStep := by
  funext st y
  simp only [multiDecodeStep, coreDecodeMultiSensorPacketAuto, BodyCodec.decodeStep, decodeStep,
    Option.map_map]
  rfl

/-- A well-formed call returned 1, its packet arrives, and the outputs hold what it sends. -/
structure MultiDelivers {Answer : Type} (s : BodyCodec.Sent (MultiSensorCall V))
    (r : (Bytes × MultiSensorCaps) × Answer) : Prop where
  sent : s.2.1 = true
  packet : r.1.1 = s.2.2.packet
  call : s.1.1.WellFormed standardize
  caps : r.1.2.Fit s.1.1

variable {standardize}

theorem multiCodec_issued {s : BodyCodec.Sent (MultiSensorCall V)}
    (h : (multiCodec standardize).Issued FusionSizes.headerDefault s) (hret : s.2.1 = true) :
    ∃ body, multiSensorBody .headerDefault standardize s.1.1 = some body := by
  obtain ⟨st, t, -, hstep⟩ := h
  unfold BodyCodec.encodeStep at hstep
  cases hbody : multiSensorBody .headerDefault standardize s.1.1 with
  | none =>
    simp only [multiCodec, hbody, Option.map_none, Option.some.injEq, Prod.mk.injEq] at hstep
    rw [← hstep.2] at hret
    cases hret
  | some body => exact ⟨body, rfl⟩

/-- In whatever form it comes out, the body of a call is the text of a message with its node
and sensors. -/
theorem expectedBody_multi {call : MultiSensorCall V} (h : call.WellFormed standardize)
    {body : Bytes} (hbody : multiSensorBody .headerDefault standardize call = some body)
    (cmd : UInt8) {caps : MultiSensorCaps} (hcaps : caps.Fit call) :
    body.length + 16 < 2 ^ 31 ∧
    (expectedBody FusionSizes.headerDefault (multiSensorFusionCall .headerDefault call body)
      cmd).length ≤ CoreConfig.headerDefault.bodyCap ∧
    call.DeliveredAs standardize (readMultiSensorBody .headerDefault caps
      (expectedBody FusionSizes.headerDefault (multiSensorFusionCall .headerDefault call body)
        cmd)) := by
  obtain ⟨slots, htext, hlen, hcached, hslots, readings, hreadings, hread⟩ :=
    multiSensorBody_some h hbody
  obtain ⟨msg, hexpect, hmsg, hle, hid, hstate, hsensors⟩ := expectedBody_text hcached
    (multiSensorFusionCall .headerDefault call body) htext (Nat.le_refl _) cmd
  rw [← htext] at hle
  have hmsglen : (msg.text CoreConfig.headerDefault.exts).length <
      CoreConfig.headerDefault.bodyCap := Nat.lt_of_le_of_lt hle hlen
  refine ⟨?_, ?_, readings, hreadings, ?_⟩
  · exact Nat.lt_of_le_of_lt (Nat.add_le_add_right (Nat.le_of_lt hlen) 16) (by decide)
  · rw [hexpect]
    exact Nat.le_of_lt hmsglen
  · rw [hexpect, readMultiSensorBody_text hmsg hmsglen (by rw [hid]; exact hcaps.nodeId)
      (by rw [hstate]; exact hcaps.nodeState)
      (by rw [hsensors]; exact Nat.le_trans (Nat.le_of_eq hslots) hcaps.sensors)
      (by rw [hsensors]; exact hread), hid, hstate]
    rfl

theorem MultiDelivers.delivers {s : BodyCodec.Sent (MultiSensorCall V)}
    {r : BodyCodec.Received MultiSensorCaps MultiSensorOut}
    (hissued : (multiCodec standardize).Issued FusionSizes.headerDefault s)
    (h : MultiDelivers standardize s r) :
    (multiCodec standardize).Delivers FusionSizes.headerDefault s r := by
  obtain ⟨body, hbody⟩ := multiCodec_issued hissued h.sent
  obtain ⟨hint, hlen, -⟩ := expectedBody_multi h.call hbody s.2.2.outCmd h.caps
  refine ⟨multiSensorFusionCall .headerDefault s.1.1 body, ?_, ⟨h.sent, fun _ => hint⟩, h.packet,
    hlen⟩
  simp only [multiCodec, hbody, Option.map_some]

/-- What is read from the body of a call that returned 1 is its node and readings. -/
theorem multiCodec_read {s : BodyCodec.Sent (MultiSensorCall V)}
    (hissued : (multiCodec standardize).Issued FusionSizes.headerDefault s) (hret : s.2.1 = true)
    (hwell : s.1.1.WellFormed standardize) {caps : MultiSensorCaps} (hcaps : caps.Fit s.1.1)
    {call : FusionCall} (hcall : (multiCodec standardize).call s.1.1 = some call) :
    s.1.1.DeliveredAs standardize (readMultiSensorBody .headerDefault caps
      (expectedBody FusionSizes.headerDefault call s.2.2.outCmd)) := by
  obtain ⟨body, hbody⟩ := multiCodec_issued hissued hret
  have hcall' : call = multiSensorFusionCall .headerDefault s.1.1 body := by
    simpa [multiCodec, hbody] using hcall.symm
  rw [hcall']
  exact (expectedBody_multi hwell hbody s.2.2.outCmd hcaps).2.2

theorem MultiDelivers.delivered {s : BodyCodec.Sent (MultiSensorCall V)}
    {r : BodyCodec.Received MultiSensorCaps MultiSensorOut} (h : MultiDelivers standardize s r)
    (hreads : (multiCodec standardize).Reads FusionSizes.headerDefault s r) :
    s.1.1.DeliveredAs standardize (r.2.map Prod.fst) := by
  obtain ⟨hissued, call, hcall, hread⟩ := hreads
  rw [hread]
  exact multiCodec_read hissued h.sent h.call h.caps hcall

/-- The cache takes the sensors of every body of a call. -/
theorem multiSensorBody_kept {call : MultiSensorCall V} (h : call.WellFormed standardize)
    {body : Bytes} (hbody : multiSensorBody .headerDefault standardize call = some body) :
    keptSensors FusionSizes.headerDefault body ≠ [] := by
  obtain ⟨slots, htext, -, hcached, hslots, -⟩ := multiSensorBody_some h hbody
  rw [htext, hcached.keptSensors]
  intro hnil
  have hnone : slots = [] := List.map_eq_nil_iff.mp hnil
  rw [hnone] at hslots
  simp only [multiSensorBody, ← hslots, List.length_nil, true_or, if_true] at hbody
  cases hbody

/-- The same of the multi-sensor calls: after a FULL, while all packets of the stream arrive in
order, each is decoded as the node and the readings it was encoded from. -/
theorem multi_readings_recovered {st st' rt rt' : FusionState FusionSizes.headerDefault}
    (hst : Reachable st) (hrt : Reachable rt) {calls : List (MultiSensorCall V × EncodeOut)}
    {arrivals : List (Bytes × MultiSensorCaps)} {s : BodyCodec.Sent (MultiSensorCall V)}
    {sent : List (BodyCodec.Sent (MultiSensorCall V))}
    {r : BodyCodec.Received MultiSensorCaps MultiSensorOut}
    {received : List (BodyCodec.Received MultiSensorCaps MultiSensorOut)}
    (hsent : trace (multiEncodeStep standardize) st calls = some (st', s :: sent))
    (hreceived : trace multiDecodeStep rt arrivals = some (rt', r :: received))
    (hfull : s.2.2.outCmd = Cmd.dataFull)
    (hroom : findOrAllocEntry rt s.1.1.sourceAid s.1.1.tid ≠ none)
    (hfirst : MultiDelivers standardize s r)
    (horder : Along (MultiDelivers standardize) (some s)
      (sent.filter fun x => (x.1.1.sourceAid, x.1.1.tid) = (s.1.1.sourceAid, s.1.1.tid))
      (received.filter fun y => packetStream y.1.1 = some (s.1.1.sourceAid, s.1.1.tid))) :
    s.1.1.DeliveredAs standardize (r.2.map Prod.fst) ∧
    Along (fun x y => MultiDelivers standardize x y ∧
        x.1.1.DeliveredAs standardize (y.2.map Prod.fst)) (some s)
      (sent.filter fun x => (x.1.1.sourceAid, x.1.1.tid) = (s.1.1.sourceAid, s.1.1.tid))
      (received.filter fun y => packetStream y.1.1 = some (s.1.1.sourceAid, s.1.1.tid)) := by
  have hc : FusionSizes.headerDefault ∈ FusionSizes.shipped := by decide
  have hfits : FusionSizes.headerDefault.FieldsFit := FusionSizes.shipped_small hc
  rw [multiEncodeStep_eq] at hsent
  rw [multiDecodeStep_eq standardize] at hreceived
  obtain ⟨t, -, hstep, -⟩ := trace_first hsent
  obtain ⟨body, hbody⟩ := multiCodec_issued ⟨st, t, hst.stateOk hfits, hstep⟩
    hfirst.sent
  have hcall : (multiCodec standardize).call s.1.1 =
      some (multiSensorFusionCall .headerDefault s.1.1 body) := by
    simp only [multiCodec, hbody, Option.map_some]
  have hk := multiSensorBody_kept hfirst.call hbody
  obtain ⟨hread, hrest⟩ := (multiCodec standardize).readings_recovered hc hst hrt
    (fun s r hissued (hok : MultiDelivers standardize s r) => hok.delivers hissued) hsent hreceived
    hcall hfull hk hroom hfirst horder
  exact ⟨hfirst.delivered hread, hrest.imp fun s r h => ⟨h.1, h.1.delivered h.2⟩⟩

end

/-- A node with one sensor that gives the same reading every time. -/
def wetNode (timestampRaw : UInt64) : MultiSensorCall Int where
  sourceAid := 42
  tid := 2
  timestampRaw := timestampRaw
  nodeId := ascii "N"
  nodeState := ascii "ON"
  sensors := [⟨ascii "HUM", ascii "OK", 55, ascii "%", none, some (ascii "wet"), none⟩]
  outPacketCap := 128

theorem wetNode_wellFormed (timestampRaw : UInt64) :
    (wetNode timestampRaw).WellFormed standardizeWhole := by
  have h : (wetNode 0).WellFormed standardizeWhole := by decide +kernel
  exact ⟨h.id_plain, h.id_le, h.state_plain, h.state_le, h.sensors⟩

def wetBody (timestampRaw : UInt64) : Bytes :=
  (multiSensorBody .headerDefault standardizeWhole (wetNode timestampRaw)).getD []

/-- The answer to a call that goes out as this command with this payload. -/
def multiFramed (x : MultiSensorCall Int) (cmd : UInt8) (payload : Bytes) :
    BodyCodec.Sent (MultiSensorCall Int) :=
  ((x, ⟨[], 0, 0⟩), true, ⟨packetFrame cmd x.sourceAid x.tid x.timestampRaw payload,
    payload.length + 16, cmd⟩)

/-- The packet of a call arrives and is decoded as its node and readings. -/
def multiArrived (s : BodyCodec.Sent (MultiSensorCall Int)) :
    BodyCodec.Received MultiSensorCaps MultiSensorOut :=
  ((s.2.2.packet, ⟨32, 16, 2⟩), some (⟨s.1.1.nodeId, s.1.1.nodeState,
    (s.1.1.sensors.mapM (SensorInput.reading standardizeWhole)).getD []⟩,
    frameMeta (multiSensorFusionCall .headerDefault s.1.1 []) s.2.2.outCmd
      (s.2.2.packet.length - 16)))

def firstWet : BodyCodec.Sent (MultiSensorCall Int) :=
  multiFramed (wetNode 10) Cmd.dataFull (wetBody 10)

def laterWet : BodyCodec.Sent (MultiSensorCall Int) :=
  multiFramed (wetNode 11) Cmd.dataHeart []

theorem wet_node_recovered :
    (wetNode 10).DeliveredAs standardizeWhole ((multiArrived firstWet).2.map Prod.fst) ∧
    Along (fun x y => MultiDelivers standardizeWhole x y ∧
        x.1.1.DeliveredAs standardizeWhole (y.2.map Prod.fst)) (some firstWet)
      ([laterWet].filter fun x => (x.1.1.sourceAid, x.1.1.tid) = (42, 2))
      ([multiArrived laterWet].filter fun y => packetStream y.1.1 = some (42, 2)) := by
  have hsent : (trace (multiEncodeStep standardizeWhole)
      (fusionStateInit FusionSizes.headerDefault) [firstWet.1, laterWet.1]).map Prod.snd =
        some [firstWet, laterWet] := by
    decide +kernel
  have hreceived : (trace multiDecodeStep staleTable
      ([multiArrived firstWet, multiArrived laterWet].map Prod.fst)).map Prod.snd =
        some [multiArrived firstWet, multiArrived laterWet] := by
    decide +kernel
  obtain ⟨⟨st, _⟩, hsent, rfl⟩ := Option.map_eq_some_iff.mp hsent
  obtain ⟨⟨rt, _⟩, hreceived, rfl⟩ := Option.map_eq_some_iff.mp hreceived
  have hfirst : MultiDelivers standardizeWhole firstWet (multiArrived firstWet) :=
    ⟨rfl, rfl, wetNode_wellFormed _, by decide +kernel⟩
  have hlater : MultiDelivers standardizeWhole laterWet (multiArrived laterWet) :=
    ⟨rfl, rfl, wetNode_wellFormed _, by decide +kernel⟩
  have hmine : ([laterWet].filter fun x => (x.1.1.sourceAid, x.1.1.tid) = (42, 2)) =
      [laterWet] := by decide +kernel
  have hmine' : ([multiArrived laterWet].filter fun y => packetStream y.1.1 = some (42, 2)) =
      [multiArrived laterWet] := by decide +kernel
  have horder : Along (MultiDelivers standardizeWhole) (some firstWet)
      ([laterWet].filter fun x => (x.1.1.sourceAid, x.1.1.tid) = (42, 2))
      ([multiArrived laterWet].filter fun y => packetStream y.1.1 = some (42, 2)) := by
    rw [hmine, hmine']
    exact .next hlater .done
  exact multi_readings_recovered ⟨[], rfl⟩ ⟨_, staleTable_run⟩ hsent hreceived rfl
    (by decide +kernel) hfirst horder

/-! ## A pressure sensor that is heard late -/

def pressureAt (aid : UInt32) (ts : UInt64) (value : Int64) : SensorCall Int64 :=
  ⟨aid, 3, ts, ascii "P1", value, ascii "Pa", 128⟩

/-- The answer to a call that goes out as this command with this payload. -/
def autoFramed (x : SensorCall Int64) (cmd : UInt8) (payload : Bytes) :
    BodyCodec.Sent (SensorCall Int64) :=
  ((x, ⟨[], 0, 0⟩), true, ⟨packetFrame cmd x.sourceAid x.tid x.timestampRaw payload,
    payload.length + 16, cmd⟩)

/-- Sensor and value are asked for, the unit is not. -/
def idAndValue : AutoWant := ⟨8, true, 0⟩

/-- The packet of a call arrives and is read as its reading. -/
def autoArrived (s : BodyCodec.Sent (SensorCall Int64)) :
    BodyCodec.Received AutoWant AutoReading :=
  ((s.2.2.packet, idAndValue), some (s.1.1.autoReading pascals idAndValue,
    frameMeta (s.1.1.fusionCall []) s.2.2.outCmd (s.2.2.packet.length - 16)))

def firstPressure : BodyCodec.Sent (SensorCall Int64) :=
  autoFramed (pressureAt 77 103 101325) Cmd.dataFull
    ((pressureAt 77 103 101325).body pascals)

/-- The value is the second slot of the sensor. -/
def changedPressure : BodyCodec.Sent (SensorCall Int64) :=
  autoFramed (pressureAt 77 104 101326) Cmd.dataDiff
    (2 :: lenU8 (b62Numeral 1013260000) :: b62Numeral 1013260000)

theorem pressureAt_sendable (aid : UInt32) (ts : UInt64) (value : Int64) :
    (pressureAt aid ts value).Sendable pascals := by
  have hid : Plain (ascii "P1") := by decide
  have hunit : Plain (ascii "Pa") := by decide
  exact ⟨fun b hb hsep => hid b hb (cons_ends_subset (by decide) hsep),
    fun b hb hsep => hunit b hb (cons_ends_subset (by decide) hsep)⟩

end Osfx
