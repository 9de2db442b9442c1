import Osfx.MultiSensor

/-!
# The slots of a template body

The cache cuts a segment at its last ':', the template grammar at the first one behind
the unit. The two agree on the bodies of the encoder exactly if no written extension has
a ':' in it, no tag or VAL is empty, and the header, which a '|' in a text of the node cuts
into several segments, brings no sensor of its own (`slots_agree_iff`).
-/

namespace Osfx

open Text

/-- Extensions with these tokens can be told apart. -/
def Unmarked (token : Bytes) : Prop := ∀ b ∈ token, b ∉ valueSeps

instance (token : Bytes) : Decidable (Unmarked token) := List.decidableBAll _ token

/-- The tokens of a slot avoid the separators of the grammar, an extension only those that
end it, and none is too long for its row. -/
structure SensorSlot.Separate (c : FusionSizes) (exts : Extensions) (s : SensorSlot) : Prop where
  id : Plain s.sensorId
  state : Plain s.sensorState
  unit : Plain s.sensorUnit
  value : Plain s.sensorValue
  geohash : Unmarked s.geohashId
  message : Unmarked s.supplementaryMessage
  url : Unmarked s.resourceUrl
  tag_lt : s.sensorId.length < c.maxTagLen
  meta_lt : (s.sensorState ++ dot :: s.sensorUnit).length < c.maxValLen
  val_lt : (s.valueText exts).length < c.maxValLen

/-- The sensors have such slots, and fit the rows of the cache. -/
structure TemplateMsg.Separate (c : FusionSizes) (exts : Extensions) (msg : TemplateMsg) :
    Prop where
  sensors : ∀ s ∈ msg.sensors, s.Separate c exts
  kept : msg.sensors.length ≤ c.maxSensors
  rows : 2 * msg.sensors.length ≤ c.maxVals

/-- The parser of the cache finds the sensors of the message: tag, META and VAL of each. -/
def SlotsAgree (c : FusionSizes) (exts : Extensions) (msg : TemplateMsg) (body : Bytes) : Prop :=
  ∃ sigBase, parseBodySlots c body c.maxSensors = some {
    sigBase := sigBase
    tagNames := msg.sensors.map fun s => s.sensorId
    slots := msg.sensors.flatMap fun s =>
      [s.sensorState ++ dot :: s.sensorUnit, s.valueText exts] }

/-- A slot both parsers cut alike: tag and VAL are there, and the ':' in front of the value
is the last one. -/
structure SensorSlot.CutAlike (exts : Extensions) (s : SensorSlot) : Prop where
  id_ne : s.sensorId ≠ []
  val_ne : s.valueText exts ≠ []
  last : ∀ item ∈ extensionItems exts s, colon ∉ item.2

/-- The header has a prefix the cache can hold. The sensors found in what follows its first
'|', in front of those of the message, change nothing about the ones that are taken. -/
def TemplateMsg.HeaderAgrees (c : FusionSizes) (exts : Extensions) (msg : TemplateMsg) : Prop :=
  match bodyHeader c (msg.header ++ [bar]) with
  | none => msg.sensors = []
  | some (_, rest) => ((rest.splitOn bar).filterMap (parseSegment c) ++
      msg.sensors.map (SensorSlot.sensor exts)).take c.maxSensors =
        msg.sensors.map (SensorSlot.sensor exts)

/-- A header that is one segment brings no sensor. -/
theorem TemplateMsg.HeaderAgrees.of_one {c : FusionSizes} {exts : Extensions} {msg : TemplateMsg}
    (hbar : bar ∉ msg.header) (hfits : (bodyHeader c (msg.header ++ [bar])).isSome)
    (hkept : msg.sensors.length ≤ c.maxSensors) : msg.HeaderAgrees c exts := by
  obtain ⟨⟨sigBase, rest⟩, hheader⟩ := Option.isSome_iff_exists.mp hfits
  obtain rfl : rest = [] := by
    have hcut : cutFirst bar (msg.header ++ [bar]) = some (msg.header, []) :=
      cutFirst_append hbar []
    simp only [bodyHeader, hcut, Option.bind_eq_bind, Option.bind_some,
      Option.bind_eq_some_iff] at hheader
    obtain ⟨cut, -, hheader⟩ := hheader
    split at hheader
    · cases hheader
    · cases hheader
      rfl
  have hempty : (List.splitOn bar ([] : Bytes)).filterMap (parseSegment c) = [] := rfl
  simp only [HeaderAgrees, hheader, hempty, List.nil_append]
  exact List.take_of_length_le (by rwa [List.length_map])

/-- A byte that is no marker stands in the value or in the text of an extension. -/
theorem mem_valueText {exts : Extensions} {s : SensorSlot} {b : UInt8} (hb : isMarker b = false) :
    b ∈ s.valueText exts ↔ b ∈ s.sensorValue ∨ ∃ item ∈ extensionItems exts s, b ∈ item.2 := by
  simp only [SensorSlot.valueText, itemsText, List.mem_append, List.mem_flatMap, List.mem_cons]
  constructor
  · rintro (hvalue | ⟨item, hitem, hmark | htext⟩)
    · exact Or.inl hvalue
    · rw [hmark, isMarker_of_mem hitem] at hb
      cases hb
    · exact Or.inr ⟨item, hitem, htext⟩
  · rintro (hvalue | ⟨item, hitem, htext⟩)
    · exact Or.inl hvalue
    · exact Or.inr ⟨item, hitem, Or.inr htext⟩

namespace SensorSlot.Separate

variable {c : FusionSizes} {exts : Extensions} {s : SensorSlot}

theorem unmarked (h : s.Separate c exts) {item : UInt8 × Bytes}
    (hitem : item ∈ extensionItems exts s) : Unmarked item.2 := by
  obtain rfl | rfl | rfl := mem_extensionItems hitem
  · exact h.geohash
  · exact h.message
  · exact h.url

theorem bar_not_mem (h : s.Separate c exts) : bar ∉ s.text exts := by
  have hid := h.id.not_mem (b := bar) (by decide)
  have hstate := h.state.not_mem (b := bar) (by decide)
  have hunit := h.unit.not_mem (b := bar) (by decide)
  have hvalue : bar ∉ s.valueText exts := by
    rw [mem_valueText (by decide)]
    rintro (hvalue | ⟨item, hitem, htext⟩)
    · exact h.value.not_mem (by decide) hvalue
    · exact h.unmarked hitem bar htext (by decide)
  simp only [text, List.mem_append, List.mem_cons, not_or]
  exact ⟨hid, by decide, hstate, by decide, hunit, by decide, hvalue⟩

/-- The segment of such a slot is parsed as it was meant. -/
theorem parseSegment (h : s.Separate c exts) (hcut : s.CutAlike exts) :
    parseSegment c (s.text exts) = some (s.sensor exts) := by
  have hcolon : colon ∉ s.valueText exts := by
    intro hcolon
    obtain hvalue | ⟨item, hitem, hmem⟩ := (mem_valueText (by decide)).mp hcolon
    · exact h.value.not_mem (by decide) hvalue
    · exact hcut.last item hitem hmem
  have hfits : SensorFits c (s.sensor exts) := {
    tag_ne := hcut.id_ne
    tag_lt := h.tag_lt
    meta_ne := List.append_ne_nil_of_right_ne_nil _ (List.cons_ne_nil _ _)
    meta_lt := h.meta_lt
    val_ne := hcut.val_ne
    val_lt := h.val_lt }
  exact parseSegment_eq_some.mpr
    ⟨(s.segmentText_sensor exts).symm, h.id.not_mem (by decide), hcolon, hfits⟩

end SensorSlot.Separate

/-- Whatever segment gave it: a tag, META and VAL the cache takes are those of a slot that
both parsers cut alike. -/
theorem cutAlike_of_parseSegment {c : FusionSizes} {exts : Extensions} {s : SensorSlot}
    {seg : Bytes} (h : parseSegment c seg = some (s.sensor exts)) : s.CutAlike exts := by
  obtain ⟨-, -, hcolon, hfits⟩ := parseSegment_eq_some.mp h
  refine ⟨hfits.tag_ne, hfits.val_ne, fun item hitem hmem => hcolon ?_⟩
  exact (mem_valueText (by decide)).mpr (Or.inr ⟨item, hitem, hmem⟩)

/-! ## Behind the header -/

/-- What follows a header leaves its prefix as it is. -/
theorem bodyHeader_append {c : FusionSizes} (body more : Bytes) (h : bar ∈ body) :
    bodyHeader c (body ++ more) =
      (bodyHeader c body).map fun cut => (cut.1, cut.2 ++ more) := by
  cases hcut : cutFirst bar body with
  | none => exact absurd h (cutFirst_eq_none.mp hcut)
  | some cut =>
    obtain ⟨front, rest⟩ := cut
    obtain ⟨rfl, hfront⟩ := cutFirst_eq_some.mp hcut
    rw [List.append_assoc, List.cons_append]
    simp only [bodyHeader, cutFirst_append hfront, Option.bind_eq_bind, Option.bind_some]
    cases cutLast dot front with
    | none => rfl
    | some cut =>
      simp only [Option.bind_some]
      split <;> rfl

/-- What follows the first '|' of a closed header is empty, or closed. -/
theorem bodyHeader_closed {c : FusionSizes} {front sigBase rest : Bytes}
    (h : bodyHeader c (front ++ [bar]) = some (sigBase, rest)) :
    rest = [] ∨ ∃ init, rest = init ++ [bar] := by
  obtain ⟨name, tail, -, hbody, -, -, -⟩ := bodyHeader_eq_some h
  obtain rfl | ⟨init, b, rfl⟩ := List.eq_nil_or_concat rest
  · exact Or.inl rfl
  · have hlast := congrArg List.getLast? hbody
    rw [List.concat_eq_append, ← List.cons_append, ← List.append_assoc, List.getLast?_concat,
      List.getLast?_concat] at hlast
    cases hlast
    exact Or.inr ⟨init, List.concat_eq_append⟩

/-- The sensors of two texts, the first of them closed. -/
theorem filterMap_splitOn_append {c : FusionSizes} {rest : Bytes}
    (h : rest = [] ∨ ∃ init, rest = init ++ [bar]) (more : Bytes) :
    ((rest ++ more).splitOn bar).filterMap (parseSegment c) =
      (rest.splitOn bar).filterMap (parseSegment c) ++
        (more.splitOn bar).filterMap (parseSegment c) := by
  have hempty : (List.splitOn bar ([] : Bytes)).filterMap (parseSegment c) = [] := rfl
  obtain rfl | ⟨init, rfl⟩ := h
  · rw [hempty, List.nil_append, List.nil_append]
  · rw [List.append_assoc, List.singleton_append, List.splitOn_append_cons_self,
      List.splitOn_append_cons_self, List.filterMap_append, List.filterMap_append, hempty,
      List.append_nil]

namespace TemplateMsg.Separate

variable {c : FusionSizes} {exts : Extensions} {msg : TemplateMsg}

/-- The sensors among the segments of the slots. -/
theorem filterMap_segments (h : msg.Separate c exts) :
    ((ended bar (msg.sensors.map (SensorSlot.text exts))).splitOn bar).filterMap
      (Osfx.parseSegment c) = msg.sensors.filterMap fun s => Osfx.parseSegment c (s.text exts) := by
  have hfree : ∀ seg ∈ msg.sensors.map (SensorSlot.text exts), bar ∉ seg := by
    intro seg hseg
    obtain ⟨s, hs, rfl⟩ := List.mem_map.mp hseg
    exact (h.sensors s hs).bar_not_mem
  rw [filterMap_closed hfree, List.filterMap_map]
  rfl

/-- The cache takes the sensors of the header first, and then those of the segments it can
parse. -/
theorem keptSensors (h : msg.Separate c exts) : keptSensors c (msg.text exts) =
    match bodyHeader c (msg.header ++ [bar]) with
    | none => []
    | some (_, rest) => ((rest.splitOn bar).filterMap (parseSegment c) ++
        msg.sensors.filterMap fun s => parseSegment c (s.text exts)).take c.maxSensors := by
  have htext : msg.text exts =
      (msg.header ++ [bar]) ++ ended bar (msg.sensors.map (SensorSlot.text exts)) := by
    rw [TemplateMsg.text, List.append_assoc, List.singleton_append]
  have hmore := bodyHeader_append (c := c) (msg.header ++ [bar])
    (ended bar (msg.sensors.map (SensorSlot.text exts))) (by simp)
  rw [Osfx.keptSensors, htext, hmore]
  cases hheader : bodyHeader c (msg.header ++ [bar]) with
  | none => rfl
  | some cut =>
    simp only [Option.map_some]
    rw [filterMap_splitOn_append (bodyHeader_closed hheader), h.filterMap_segments]

/-- All that is taken is the sensors of the message, exactly if the header brings none of
its own and every slot is cut alike. -/
theorem keptSensors_iff (h : msg.Separate c exts) :
    Osfx.keptSensors c (msg.text exts) = msg.sensors.map (SensorSlot.sensor exts) ↔
      msg.HeaderAgrees c exts ∧ ∀ s ∈ msg.sensors, s.CutAlike exts := by
  have hall : (∀ s ∈ msg.sensors, s.CutAlike exts) →
      (msg.sensors.filterMap fun s => parseSegment c (s.text exts)) =
        msg.sensors.map (SensorSlot.sensor exts) := by
    intro hcut
    rw [List.filterMap_eq_map_iff_forall_eq_some]
    exact fun s hs => (h.sensors s hs).parseSegment (hcut s hs)
  constructor
  · intro hkept
    have hcut : ∀ s ∈ msg.sensors, s.CutAlike exts := by
      intro s hs
      have hmem : s.sensor exts ∈ Osfx.keptSensors c (msg.text exts) :=
        hkept ▸ List.mem_map_of_mem hs
      obtain ⟨-, -, seg, -, -, hseg⟩ := mem_keptSensors hmem
      exact cutAlike_of_parseSegment hseg
    refine ⟨?_, hcut⟩
    rw [h.keptSensors, hall hcut] at hkept
    unfold HeaderAgrees
    split at hkept
    · exact List.map_eq_nil_iff.mp hkept.symm
    · exact hkept
  · rintro ⟨hheader, hcut⟩
    rw [h.keptSensors, hall hcut]
    unfold HeaderAgrees at hheader
    split at hheader
    · rw [hheader, List.map_nil]
    · exact hheader

end TemplateMsg.Separate

/-- The rows handed out say which sensors were taken. -/
theorem parsedOf_inj {sig sig' : Bytes} {sensors sensors' : List Sensor}
    (h : parsedOf sig sensors = parsedOf sig' sensors') : sensors = sensors' := by
  have htags : sensors.map Prod.fst = sensors'.map Prod.fst := congrArg Parsed.tagNames h
  have hslots : slotsOf sensors = slotsOf sensors' := congrArg Parsed.slots h
  clear h
  induction sensors generalizing sensors' with
  | nil => exact (List.map_eq_nil_iff.mp htags.symm).symm
  | cons s sensors ih =>
    cases sensors' with
    | nil => cases htags
    | cons s' sensors' =>
      obtain ⟨htag, htags⟩ := List.cons.inj htags
      have hrows : s.2.1 :: s.2.2 :: slotsOf sensors = s'.2.1 :: s'.2.2 :: slotsOf sensors' :=
        hslots
      obtain ⟨hmeta, hrows⟩ := List.cons.inj hrows
      obtain ⟨hval, hrows⟩ := List.cons.inj hrows
      have hs : s = s' := Prod.ext htag (Prod.ext hmeta hval)
      rw [hs, ih htags hrows]

/-- The parser of the cache finds the sensors of a written message exactly if the header
brings none of its own, no tag and no VAL is empty, and no written extension has a ':' in
it. -/
theorem slots_agree_iff {c : FusionSizes} {exts : Extensions} {maxSensors outCap : Nat}
    {msg : TemplateMsg} (h : msg.Separate c exts) {body : Bytes}
    (hbody : templateEncode exts maxSensors msg outCap = some body) :
    SlotsAgree c exts msg body ↔
      msg.HeaderAgrees c exts ∧ ∀ s ∈ msg.sensors, s.CutAlike exts := by
  have htext : body = msg.text exts := by
    rw [templateEncode_eq] at hbody
    split at hbody
    · exact (Option.some.inj hbody).symm
    · cases hbody
  have hout : ∀ sigBase, ({
      sigBase := sigBase
      tagNames := msg.sensors.map fun s => s.sensorId
      slots := msg.sensors.flatMap fun s =>
        [s.sensorState ++ dot :: s.sensorUnit, s.valueText exts] } : Parsed) =
      parsedOf sigBase (msg.sensors.map (SensorSlot.sensor exts)) := by
    intro sigBase
    simp [parsedOf, slotsOf, SensorSlot.sensor, Function.comp_def, List.flatMap_map]
  rw [← h.keptSensors_iff]
  simp only [SlotsAgree, htext, parseBodySlots_eq, hout]
  constructor
  · rintro ⟨sigBase, hparse⟩
    split at hparse
    · exact parsedOf_inj (Option.some.inj hparse)
    · cases hparse
  · intro hkept
    have hfit : SlotsFit c (msg.text exts) := by
      rw [SlotsFit, hkept, List.length_map]
      exact h.rows
    exact ⟨headerPrefix c (msg.text exts), by rw [if_pos hfit, parsed, hkept]⟩

/-- A message with a ':' in it. -/
def colonSlot : SensorSlot := ⟨ascii "T", ascii "OK", ascii "NA", ascii "5", [], ascii "a:b", []⟩

def colonMsg : TemplateMsg := ⟨ascii "N", ascii "U", ascii "1", [colonSlot]⟩

theorem colonMsg_separate :
    colonMsg.Separate FusionSizes.headerDefault CoreConfig.headerDefault.exts where
  sensors := by
    intro s hs
    obtain rfl : s = colonSlot := List.mem_singleton.mp hs
    constructor <;> decide
  kept := by decide
  rows := by decide

theorem colon_slots_agree_iff :
    SlotsAgree FusionSizes.headerDefault CoreConfig.headerDefault.exts colonMsg
        (ascii "N.U.1|T>OK.NA:5!a:b|") ↔
      colonMsg.HeaderAgrees FusionSizes.headerDefault CoreConfig.headerDefault.exts ∧
        ∀ s ∈ colonMsg.sensors, s.CutAlike CoreConfig.headerDefault.exts :=
  slots_agree_iff colonMsg_separate
    (show templateEncode CoreConfig.headerDefault.exts 4 colonMsg 64 = _ by decide +kernel)

/-- META runs up to the ':' of the message, and the header has no part in it. -/
theorem colon_shifts_slots :
    colonMsg.Separate FusionSizes.headerDefault CoreConfig.headerDefault.exts ∧
    colonMsg.HeaderAgrees FusionSizes.headerDefault CoreConfig.headerDefault.exts ∧
    templateEncode CoreConfig.headerDefault.exts 4 colonMsg 64 =
      some (ascii "N.U.1|T>OK.NA:5!a:b|") ∧
    parseBodySlots .headerDefault (ascii "N.U.1|T>OK.NA:5!a:b|") 4 =
      some ⟨ascii "N.U.", [ascii "T"], [ascii "OK.NA:5!a", ascii "b"]⟩ ∧
    ¬ SlotsAgree FusionSizes.headerDefault CoreConfig.headerDefault.exts colonMsg
      (ascii "N.U.1|T>OK.NA:5!a:b|") := by
  have hparse : parseBodySlots .headerDefault (ascii "N.U.1|T>OK.NA:5!a:b|") 4 =
      some ⟨ascii "N.U.", [ascii "T"], [ascii "OK.NA:5!a", ascii "b"]⟩ := by decide +kernel
  have hheader : colonMsg.HeaderAgrees FusionSizes.headerDefault CoreConfig.headerDefault.exts :=
    .of_one (by decide) (by decide) (by decide)
  refine ⟨colonMsg_separate, hheader, by decide +kernel, hparse, ?_⟩
  rintro ⟨sigBase, hagree⟩
  have hslots : [ascii "OK.NA:5!a", ascii "b"] = [ascii "OK.NA", ascii "5!a:b"] :=
    congrArg Parsed.slots (Option.some.inj (hparse.symm.trans hagree))
  revert hslots
  decide

end Osfx
