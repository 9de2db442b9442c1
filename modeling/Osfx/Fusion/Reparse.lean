import Osfx.Fusion.Lockstep
import Osfx.Fusion.Selection

/-!
# What was rebuilt is parsed as before

`reconstruct_body` joins the texts of an entry with the separators at which
`parse_body_slots` cuts them apart. A text the parser has stored does not move a cut:
the header prefix has no '|' and ends with its last '.', a tag has no '>', a VAL has no
':', and no segment has a '|' (`ReadsBack`). A timestamp has none of the four. So the
rebuilt body parses to what it was rebuilt from (`reparse_undoes_rebuild`).
-/

namespace Osfx

open EventSystem Numeral Text Cells

variable {c : FusionSizes}

/-- Written as a segment, the sensor is read back as it was. -/
def ReadsBack (c : FusionSizes) (s : Sensor) : Prop :=
  bar ∉ segmentText s ∧ parseSegment c (segmentText s) = some s

/-- Whatever separators a body has in the wrong places, what is taken of it is read back. -/
theorem readsBack_of_kept {body : Bytes} {s : Sensor} (h : s ∈ keptSensors c body) :
    ReadsBack c s := by
  obtain ⟨-, rest, seg, -, hseg, hp⟩ := mem_keptSensors h
  obtain rfl : seg = segmentText s := (parseSegment_eq_some.mp hp).1
  exact ⟨not_mem_of_mem_splitOn hseg, hp⟩

/-- The header is cut in front of the timestamp, whatever the name before it. -/
theorem bodyHeader_templateText {name : Bytes} (hbar : bar ∉ name ++ [dot])
    (hlen : (name ++ [dot]).length + 1 ≤ c.maxPrefix) (ts : Nat) (sensors : List Sensor) :
    bodyHeader c (templateText (name ++ [dot]) ts sensors) =
      some (name ++ [dot], ended bar (sensors.map segmentText)) := by
  have hfree : bar ∉ name ++ [dot] ++ decimal ts := by
    rw [List.mem_append, not_or]
    exact ⟨hbar, bar_not_mem_decimal ts⟩
  have hfirst : cutFirst bar (templateText (name ++ [dot]) ts sensors) =
      some (name ++ [dot] ++ decimal ts, ended bar (sensors.map segmentText)) :=
    cutFirst_append hfree _
  have hlast : cutLast dot (name ++ [dot] ++ decimal ts) = some (name, decimal ts) :=
    cutLast_eq_some.mpr ⟨by simp, dot_not_mem_decimal ts⟩
  rw [List.length_append, List.length_singleton] at hlen
  simp only [bodyHeader, hfirst, hlast, Option.bind_eq_bind, Option.bind_some,
    if_neg (Nat.not_lt.mpr hlen)]

/-- Sensors that are read back one by one are read back from their joined segments. -/
theorem filterMap_parseSegment_ended {sensors : List Sensor}
    (h : ∀ s ∈ sensors, ReadsBack c s) :
    ((ended bar (sensors.map segmentText)).splitOn bar).filterMap (parseSegment c) = sensors := by
  have hfree : ∀ seg ∈ sensors.map segmentText, bar ∉ seg := by
    intro seg hseg
    obtain ⟨s, hs, rfl⟩ := List.mem_map.mp hseg
    exact (h s hs).1
  have hall := List.filterMap_eq_map_iff_forall_eq_some (f := parseSegment c ∘ segmentText)
    (g := id) (l := sensors) |>.mpr fun s hs => (h s hs).2
  rw [filterMap_closed hfree, List.filterMap_map, hall, List.map_id]

section
variable {body : Bytes} (hk : keptSensors c body ≠ []) (ts : Nat)
include hk

theorem bodyHeader_rebuilt :
    bodyHeader c (templateText (headerPrefix c body) ts (keptSensors c body)) =
      some (headerPrefix c body, ended bar ((keptSensors c body).map segmentText)) := by
  obtain ⟨name, tail, -, hname, -, -, hbar, hlen, -⟩ := header_of_kept hk
  rw [hname] at hbar hlen ⊢
  exact bodyHeader_templateText (fun hm => hbar (List.mem_append_left tail hm)) hlen ts _

theorem keptSensors_rebuilt :
    keptSensors c (templateText (headerPrefix c body) ts (keptSensors c body)) =
      keptSensors c body := by
  have hread := filterMap_parseSegment_ended fun s (hs : s ∈ keptSensors c body) =>
    readsBack_of_kept hs
  rw [keptSensors_eq (bodyHeader_rebuilt hk ts), hread]
  exact List.take_of_length_le (keptSensors_length_le body)

/-- A body of the same prefix and sensors parses to the same, at every timestamp. -/
theorem parsed_rebuilt :
    parsed c (templateText (headerPrefix c body) ts (keptSensors c body)) = parsed c body := by
  rw [parsed, headerPrefix_eq (bodyHeader_rebuilt hk ts), keptSensors_rebuilt hk ts, parsed]

theorem parseBodySlots_rebuilt (hfit : SlotsFit c body) :
    parseBodySlots c (templateText (headerPrefix c body) ts (keptSensors c body)) c.maxSensors =
      some (parsed c body) := by
  have hagain : SlotsFit c (templateText (headerPrefix c body) ts (keptSensors c body)) := by
    rwa [SlotsFit, keptSensors_rebuilt hk ts]
  rw [parseBodySlots_eq, if_pos hagain, parsed_rebuilt hk ts]

end

/-! ## The entry built from a parse -/

/-- Without a NUL in it, all of the header prefix is read back from `sig_base`. -/
theorem text_refreshed (hc : c.FieldsFit) {sig : Bytes} {sensors : List Sensor}
    (hp : ParsedFits c (parsedOf sig sensors)) (hnul : 0 ∉ sig) (e : FusionEntry c) (ts : UInt64) :
    (refreshed e (parsedOf sig sensors)).text ts = templateText sig ts.toNat sensors := by
  have hsig : (refreshed e (parsedOf sig sensors)).sigText = sig :=
    (caches_refreshed hc e hp).sigText.trans (cString_eq_self hnul)
  rw [FusionEntry.text, hsig, sensors_refreshed hc hp]

/-- What `reconstruct_body` makes of an entry that was refreshed with a parse. -/
theorem reconstructBody_refreshed (hc : c.FieldsFit) {sig : Bytes} {sensors : List Sensor}
    (hp : ParsedFits c (parsedOf sig sensors)) (hnul : 0 ∉ sig) {e : FusionEntry c}
    (hok : EntryOk e) (ts : UInt64) (cap : Nat) :
    reconstructBody (refreshed e (parsedOf sig sensors)) ts cap =
      some (if (templateText sig ts.toNat sensors).length ≤ cap
        then templateText sig ts.toNat sensors else []) := by
  have htext := text_refreshed hc hp hnul e ts
  have hsig : (refreshed e (parsedOf sig sensors)).sigEmpty = false := by
    rw [Bool.eq_false_iff, ne_eq, FusionEntry.sigEmpty_iff,
      (caches_refreshed hc e hp).sigText, parsedOf, cString_eq_self hnul]
    exact hp.sig_ne
  have hcount : (refreshed e (parsedOf sig sensors)).sensorCount ≠ 0 := by
    intro hz
    have hn := refreshed_sensorCount hc hp e
    have hpos := hp.sensors_pos
    rw [hz, UInt8.toNat_zero] at hn
    omega
  have hrebuilds : Rebuilds (refreshed e (parsedOf sig sensors)) ts cap ↔
      (templateText sig ts.toNat sensors).length ≤ cap := by
    rw [Rebuilds, htext]
    exact ⟨fun h => h.2.2, fun h => ⟨hsig, hcount, h⟩⟩
  rw [reconstructBody_eq (entryOk_refreshed hc hp e hok), htext]
  simp only [hrebuilds]

/-- Parsing undoes rebuilding: the text rebuilt at any timestamp from an entry that was
built from a parse has the same parse. And any entry built from that one is rebuilt, at
the same timestamp, as the same text. -/
theorem reparse_undoes_rebuild (hc : c.FieldsFit) {st : FusionState c} (hst : Reachable st)
    {aid : UInt32} {tid : UInt8} {i : Fin c.maxEntries} {e : FusionEntry c}
    (he : findOrAllocEntry st aid tid = some (i, e)) {body : Bytes} (hnul : 0 ∉ body) {p : Parsed}
    (hp : parseBodySlots c body c.maxSensors = some p) (hpos : 0 < p.sensorCount)
    {e' : FusionEntry c} (he' : refreshEntry e p = some e') {ts : UInt64} {cap : Nat} {text : Bytes}
    (ht : reconstructBody e' ts cap = some text) (hne : text ≠ []) :
    parseBodySlots c text c.maxSensors = some p ∧
    ∀ st₂ : FusionState c, Reachable st₂ → ∀ aid₂ tid₂ i₂ e₂,
      findOrAllocEntry st₂ aid₂ tid₂ = some (i₂, e₂) →
      ∃ e₂', refreshEntry e₂ p = some e₂' ∧
        ∀ cap₂, text.length ≤ cap₂ → reconstructBody e₂' ts cap₂ = some text := by
  have hok : ∀ {st : FusionState c} {aid tid i e}, Reachable st →
      findOrAllocEntry st aid tid = some (i, e) → EntryOk e := fun hst he =>
    (findOrAllocEntry_some he).entryOk hc (hst.stateOk hc)
  rw [parseBodySlots_eq] at hp
  split at hp
  case isFalse => cases hp
  rename_i hfit
  cases hp
  have hk : keptSensors c body ≠ [] := by
    rwa [sensorCount_parsed, List.length_pos_iff] at hpos
  have hparsed := parsed_fits hc hk hfit
  have hsig := nul_not_mem_headerPrefix (c := c) hnul
  rw [refreshEntry_eq e hparsed] at he'
  cases he'
  rw [parsed, reconstructBody_refreshed hc hparsed hsig (hok hst he)] at ht
  split at ht
  case isFalse =>
    cases ht
    exact absurd rfl hne
  cases ht
  refine ⟨parseBodySlots_rebuilt hk _ hfit, ?_⟩
  intro st₂ hst₂ aid₂ tid₂ i₂ e₂ he₂
  refine ⟨_, refreshEntry_eq e₂ hparsed, fun cap₂ hcap => ?_⟩
  rw [parsed, reconstructBody_refreshed hc hparsed hsig (hok hst₂ he₂), if_pos hcap]

/-- A segment that is none, separators in the wrong places, a sensor that comes twice. -/
def oddBody : Bytes := ascii "A.B.7|T>m:v|junk|H>n>o:w:x|T>m:v"

/-- At timestamp 9 the odd body is rebuilt without its second segment. -/
def oddBodyRebuilt : Bytes := ascii "A.B.9|T>m:v|H>n>o:w:x|T>m:v|"

theorem oddBody_reparsed :
    ∃ p, parseBodySlots FusionSizes.headerDefault oddBody 4 = some p ∧
      parseBodySlots FusionSizes.headerDefault oddBodyRebuilt 4 = some p ∧
      ∀ st₂ : FusionState FusionSizes.headerDefault, Reachable st₂ → ∀ aid₂ tid₂ i₂ e₂,
        findOrAllocEntry st₂ aid₂ tid₂ = some (i₂, e₂) →
        ∃ e₂', refreshEntry e₂ p = some e₂' ∧
          ∀ cap₂, oddBodyRebuilt.length ≤ cap₂ →
            reconstructBody e₂' 9 cap₂ = some oddBodyRebuilt := by
  have hsmall : FusionSizes.headerDefault.Small := FusionSizes.shipped_small (by decide)
  have hnew : Reachable (fusionStateInit FusionSizes.headerDefault) := ⟨[], rfl⟩
  have hnul : (0 : UInt8) ∉ oddBody := by decide
  -- the odd body has sensors, and a new entry built from it is rebuilt at timestamp 9
  have hrebuilt : ((parseBodySlots FusionSizes.headerDefault oddBody 4).bind fun p =>
      (findOrAllocEntry (fusionStateInit FusionSizes.headerDefault) 1 1).bind fun ie =>
        (refreshEntry ie.2 p).bind fun e' =>
          (reconstructBody e' 9 512).map fun text => (decide (0 < p.sensorCount), text)) =
      some (true, oddBodyRebuilt) := by
    decide +kernel
  obtain ⟨p, hp, hrebuilt⟩ := Option.bind_eq_some_iff.mp hrebuilt
  obtain ⟨⟨i, e⟩, he, hrebuilt⟩ := Option.bind_eq_some_iff.mp hrebuilt
  obtain ⟨e', he', hrebuilt⟩ := Option.bind_eq_some_iff.mp hrebuilt
  obtain ⟨text, ht, hanswer⟩ := Option.map_eq_some_iff.mp hrebuilt
  obtain ⟨hpos, rfl⟩ := Prod.mk.inj hanswer
  have hne : oddBodyRebuilt ≠ [] := by decide
  exact ⟨p, hp, reparse_undoes_rebuild hsmall hnew he hnul hp (of_decide_eq_true hpos) he' ht hne⟩

end Osfx
