import Osfx.Fusion.Failure
import Osfx.Fusion.Lockstep

/-!
# Sensors lost by delta encoding

The parser skips a segment the cache cannot hold and keeps the others. If those
match the cached structure the body goes out as a HEART or DIFF, and the receiver
rebuilds it without the skipped segment. `delta_complete_iff` says that this is
the only way a segment is lost.
-/

namespace Osfx

open EventSystem SlotTable Numeral Text

variable {c : FusionSizes}

/-- The body header|SEG1|SEG2|...|SEGn|, each segment of the form TAG>META:VAL. -/
structure TemplateBody (body : Bytes) (segs : List Bytes) : Prop where
  shape : ∃ header, bar ∉ header ∧ body = header ++ bar :: ended bar segs
  segment : ∀ seg ∈ segs, (∃ s, seg = segmentText s) ∧ bar ∉ seg

/-- The cache can hold the segment: cut at its first '>' and its last ':', tag, META
and VAL fit their rows. -/
def Storable (c : FusionSizes) (seg : Bytes) : Prop :=
  ∃ s, seg = segmentText s ∧ gt ∉ s.1 ∧ colon ∉ s.2.2 ∧ SensorFits c s

def AllStorable (c : FusionSizes) (segs : List Bytes) : Prop :=
  segs.length ≤ c.maxSensors ∧ ∀ seg ∈ segs, Storable c seg

/-- The segments of a body that are not empty. -/
def segmentsOf (body : Bytes) : List Bytes :=
  match cutFirst bar body with
  | none => []
  | some (_, rest) => (rest.splitOn bar).filter (· ≠ [])

theorem storable_iff {seg : Bytes} : Storable c seg ↔ (parseSegment c seg).isSome = true := by
  rw [Option.isSome_iff_exists]
  constructor
  · rintro ⟨s, hs⟩
    exact ⟨s, parseSegment_eq_some.mpr hs⟩
  · rintro ⟨s, hs⟩
    exact ⟨s, parseSegment_eq_some.mp hs⟩

theorem segmentText_ne_nil (s : Sensor) : segmentText s ≠ [] := by
  simp [segmentText]

/-- A kept sensor is written back as the segment it was read from. -/
theorem map_segmentText_filterMap (segs : List Bytes) :
    (segs.filterMap (parseSegment c)).map segmentText =
      segs.filter fun seg => (parseSegment c seg).isSome := by
  induction segs with
  | nil => rfl
  | cons seg segs ih =>
    cases h : parseSegment c seg with
    | none => simp [h, ih]
    | some s =>
      have hseg := (parseSegment_eq_some.mp h).1
      simp [h, ih, ← hseg]

/-- The kept sensors of a template body are its storable segments, up to the limit. -/
theorem keptSensors_template {body : Bytes} {segs : List Bytes} (h : TemplateBody body segs)
    (hk : keptSensors c body ≠ []) :
    (keptSensors c body).map segmentText =
      (segs.filter fun seg => (parseSegment c seg).isSome).take c.maxSensors := by
  obtain ⟨header, hbar, rfl⟩ := h.shape
  obtain ⟨-, tail, rest, -, hbody, -, hnobar, -, hhead⟩ := header_of_kept hk
  have hcut : cutFirst bar (header ++ bar :: ended bar segs) = some (header, ended bar segs) :=
    cutFirst_eq_some.mpr ⟨rfl, hbar⟩
  have hcut' : cutFirst bar (header ++ bar :: ended bar segs) =
      some (headerPrefix c (header ++ bar :: ended bar segs) ++ tail, rest) :=
    cutFirst_eq_some.mpr ⟨hbody, hnobar⟩
  have hrest : ended bar segs = rest := by
    have := hcut.symm.trans hcut'
    simp only [Option.some.injEq, Prod.mk.injEq] at this
    exact this.2
  rw [keptSensors_eq hhead, ← hrest, filterMap_closed fun seg hseg => (h.segment seg hseg).2,
    List.map_take, map_segmentText_filterMap]

/-- The segments of a rebuilt body are the kept ones. -/
theorem segmentsOf_templateText {body : Bytes} {segs : List Bytes} (h : TemplateBody body segs)
    (hk : keptSensors c body ≠ []) (ts : Nat) :
    segmentsOf (templateText (headerPrefix c body) ts (keptSensors c body)) =
      (segs.filter fun seg => (parseSegment c seg).isSome).take c.maxSensors := by
  rw [← keptSensors_template h hk]
  obtain ⟨-, tail, -, -, -, -, hnobar, -, -⟩ := header_of_kept hk
  have hfront : bar ∉ headerPrefix c body ++ decimal ts := by
    intro hm
    rcases List.mem_append.mp hm with hm | hm
    · exact hnobar (List.mem_append_left tail hm)
    · exact bar_not_mem_decimal ts hm
  have hcut : cutFirst bar (templateText (headerPrefix c body) ts (keptSensors c body)) =
      some (headerPrefix c body ++ decimal ts, ended bar ((keptSensors c body).map segmentText)) :=
    cutFirst_eq_some.mpr ⟨rfl, hfront⟩
  have hfree : ∀ seg ∈ (keptSensors c body).map segmentText, bar ∉ seg := by
    rw [keptSensors_template h hk]
    intro seg hseg
    exact (h.segment seg (List.mem_of_mem_filter (List.mem_of_mem_take hseg))).2
  simp only [segmentsOf, hcut, splitOn_closed hfree, List.filter_append]
  have hall : ((keptSensors c body).map segmentText).filter (· ≠ []) =
      (keptSensors c body).map segmentText := by
    refine List.filter_eq_self.mpr fun seg hseg => ?_
    obtain ⟨s, -, rfl⟩ := List.mem_map.mp hseg
    simpa using segmentText_ne_nil s
  rw [hall]
  simp

/-- All segments are among the storable ones exactly if all are storable. -/
theorem sublist_storable_iff (segs : List Bytes) :
    segs.Sublist ((segs.filter fun seg => (parseSegment c seg).isSome).take c.maxSensors) ↔
      AllStorable c segs := by
  constructor
  · intro h
    have hfilter := h.trans (List.take_sublist _ _)
    have heq := (List.filter_sublist (p := fun seg => (parseSegment c seg).isSome)).eq_of_length_le
      hfilter.length_le
    have hlen := h.length_le
    rw [heq, List.length_take] at hlen
    refine ⟨by omega, fun seg hseg => storable_iff.mpr ?_⟩
    exact List.filter_eq_self.mp heq seg hseg
  · rintro ⟨hlen, hall⟩
    have heq : (segs.filter fun seg => (parseSegment c seg).isSome) = segs :=
      List.filter_eq_self.mpr fun seg hseg => storable_iff.mp (hall seg hseg)
    rw [heq, List.take_of_length_le hlen]

/-! ## What a delta leaves of a body -/

/-- A DIFF or HEART of this call promises every segment: the cache can hold them, and
the body rebuilt from the updated entry has them all, unchanged and in order. -/
def DeltaComplete (call : FusionCall) (segs : List Bytes) (r : EncodeResult c) : Prop :=
  r.ret = true → r.out.outCmd = Cmd.dataDiff ∨ r.out.outCmd = Cmd.dataHeart →
    AllStorable c segs ∧
    ∃ i text cap, findEntry r.state call.sourceAid call.tid = some i ∧
      reconstructBody (r.state.get i) (wireTimestamp call.timestampRaw) cap = some text ∧
      text ≠ [] ∧ segs.Sublist (segmentsOf text)

/-- A DIFF or HEART is sent for the call only if all its segments can be stored: the
kept ones are none, or differ in structure from the cached stream, or the frame
does not fit. -/
def NothingDropped (st : FusionState c) (call : FusionCall) (segs : List Bytes) : Prop :=
  keptSensors c call.fullBody ≠ [] →
  ∀ i e, findOrAllocEntry st call.sourceAid call.tid = some (i, e) →
    SameStructure e (parsed c call.fullBody) →
    FrameFits (payloadSize e (parsed c call.fullBody) call.fullBody) call.outPacketCap →
    AllStorable c segs

theorem sendFrame_full_complete {st : FusionState c} {call : FusionCall} {body : Bytes}
    {out : EncodeOut} {segs : List Bytes} :
    DeltaComplete call segs (sendFrame st call Cmd.dataFull body out) := by
  intro hret hcmd
  rw [sendFrame_outCmd hret] at hcmd
  exact absurd hcmd (by decide)

theorem slotsFit_of_sameStructure {e : FusionEntry c} {body : Bytes} (hok : EntryOk e)
    (h : SameStructure e (parsed c body)) : SlotsFit c body := by
  have hcount := h.count
  have hle := hok.vals_le
  rw [sensorCount_parsed] at hcount
  unfold SlotsFit
  omega

theorem chosenCmd_of_sameStructure {e : FusionEntry c} {p : Parsed} (h : SameStructure e p) :
    chosenCmd e p = Cmd.dataDiff ∨ chosenCmd e p = Cmd.dataHeart := by
  rw [chosenCmd, if_pos h]
  split
  · exact Or.inr rfl
  · exact Or.inl rfl

/-- The receiver's text of an updated entry has every segment that can be stored. -/
theorem rebuilt_complete (hc : c.Small) {st : FusionState c} (hok : StateOk st)
    {call : FusionCall} {segs : List Bytes} (hbody : TemplateBody call.fullBody segs)
    (hk : keptSensors c call.fullBody ≠ []) {i : Fin c.maxEntries} {e : FusionEntry c}
    (hentry : EntryOf st call.sourceAid call.tid i e)
    (hsame : SameStructure e (parsed c call.fullBody)) (hall : AllStorable c segs) :
    ∃ j text cap, findEntry (st.set i (refreshed e (parsed c call.fullBody)) i.isLt) call.sourceAid
        call.tid = some j ∧
      reconstructBody ((st.set i (refreshed e (parsed c call.fullBody)) i.isLt).get j)
        (wireTimestamp call.timestampRaw) cap = some text ∧
      text ≠ [] ∧ segs.Sublist (segmentsOf text) := by
  have heok := hentry.entryOk hc hok
  have hp := parsed_fits hc hk (slotsFit_of_sameStructure heok hsame)
  have hrefreshed := entryOk_refreshed hc hp e heok
  have hfind := hentry.findEntry_set hok ((refreshed_used e _).trans hentry.used)
    ((refreshed_key e _).trans hentry.key) hrefreshed
  have htext : (refreshed e (parsed c call.fullBody)).text (wireTimestamp call.timestampRaw) =
      templateText (headerPrefix c call.fullBody) (wireTimestamp call.timestampRaw).toNat
        (keptSensors c call.fullBody) := hsame.text_refreshed hc hp _
  have hrebuild : Rebuilds (refreshed e (parsed c call.fullBody)) (wireTimestamp call.timestampRaw)
      ((refreshed e (parsed c call.fullBody)).text (wireTimestamp call.timestampRaw)).length :=
    hsame.rebuilds hc hp (Nat.le_refl _)
  have hrun : reconstructBody ((st.set i (refreshed e (parsed c call.fullBody)) i.isLt).get i)
      (wireTimestamp call.timestampRaw)
      ((refreshed e (parsed c call.fullBody)).text (wireTimestamp call.timestampRaw)).length =
        some ((refreshed e (parsed c call.fullBody)).text (wireTimestamp call.timestampRaw)) := by
    rw [get_set_self, reconstructBody_eq hrefreshed, if_pos hrebuild]
  have hsegs : segs.Sublist (segmentsOf ((refreshed e (parsed c call.fullBody)).text
      (wireTimestamp call.timestampRaw))) := by
    rw [htext, segmentsOf_templateText hbody hk]
    exact (sublist_storable_iff segs).mpr hall
  exact ⟨i, _, _, hfind, hrun, FusionEntry.text_ne_nil _ _, hsegs⟩

/-- No segment is lost to a DIFF or HEART exactly if none is dropped. -/
theorem delta_complete_iff (hc : c ∈ FusionSizes.shipped) {st : FusionState c}
    (hst : Reachable st) {call : FusionCall} {segs : List Bytes}
    (hbody : TemplateBody call.fullBody segs) :
    (∀ out r, fusionEncode st call out = some r → DeltaComplete call segs r) ↔
      NothingDropped st call segs := by
  have hsmall := FusionSizes.shipped_small hc
  have hok := hst.stateOk hsmall
  have hne : call.fullBody ≠ [] := by
    obtain ⟨header, -, hshape⟩ := hbody.shape
    rw [hshape]
    simp
  constructor
  · intro h hk i e he hsame hframe
    have heok := (findOrAllocEntry_some he).entryOk hsmall hok
    have hfit := slotsFit_of_sameStructure heok hsame
    have henc := fusionEncode_cached hsmall hok ⟨[], 0, 0⟩ hne hfit hk he
    rw [← length_chosenBody] at hframe
    have hret : (sendFrame (st.set i (refreshed e (parsed c call.fullBody)) i.isLt) call
        (chosenCmd e (parsed c call.fullBody))
        (chosenBody e (parsed c call.fullBody) call.fullBody) ⟨[], 0, 0⟩).ret = true :=
      sendFrame_ret_iff.mpr hframe
    have hcmd := chosenCmd_of_sameStructure hsame
    rw [← sendFrame_outCmd hret] at hcmd
    exact (h _ _ henc hret hcmd).1
  · intro h out r hr
    cases fusionEncode_encoded hsmall hok hr with
    | empty _ | noEntry _ =>
      intro hret
      cases hret
    | uncached _ => exact sendFrame_full_complete
    | @cached i e hk _ he =>
      by_cases hsame : SameStructure e (parsed c call.fullBody)
      · intro hret _
        have hframe := sendFrame_ret_iff.mp hret
        rw [length_chosenBody] at hframe
        have hall := h hk i e he hsame hframe
        refine ⟨hall, ?_⟩
        rw [sendFrame_state]
        exact rebuilt_complete hsmall hok hbody hk (findOrAllocEntry_some he) hsame hall
      · simp only [chosenCmd, if_neg hsame]
        exact sendFrame_full_complete

/-- A body of one sensor. -/
def oneSensor : FusionCall := ⟨1, 1, 0, ascii "A.U.1|T>m:v|", 512⟩

/-- The same sensor, and one whose tag is a byte too long for the cache. -/
def longTag : FusionCall := ⟨1, 1, 0, ascii "A.U.1|T>m:v|ABCDEFGHIJKL>m:v|", 512⟩

def longTagSegments : List Bytes := [ascii "T>m:v", ascii "ABCDEFGHIJKL>m:v"]

theorem longTag_template : TemplateBody longTag.fullBody longTagSegments where
  shape := ⟨ascii "A.U.1", by decide, by decide⟩
  segment := by
    have hfirst : ascii "T>m:v" = segmentText (ascii "T", ascii "m", ascii "v") := by decide
    have hsecond : ascii "ABCDEFGHIJKL>m:v" =
        segmentText (ascii "ABCDEFGHIJKL", ascii "m", ascii "v") := by decide
    intro seg hseg
    simp only [longTagSegments, List.mem_cons, List.not_mem_nil, or_false] at hseg
    rcases hseg with rfl | rfl
    · exact ⟨⟨_, hfirst⟩, by decide⟩
    · exact ⟨⟨_, hsecond⟩, by decide⟩

theorem longTag_delta_complete_iff :
    (∀ out r, fusionEncode (fusionStateInit FusionSizes.headerDefault) longTag out = some r →
      DeltaComplete longTag longTagSegments r) ↔
    NothingDropped (fusionStateInit FusionSizes.headerDefault) longTag longTagSegments :=
  delta_complete_iff (by decide) ⟨[], rfl⟩ longTag_template

/-- After the first body the second goes out as a HEART, and is rebuilt without its
second sensor. -/
theorem long_tag_segment_lost :
    ∃ st r, run fusionStep (fusionStateInit FusionSizes.headerDefault)
        [.encode oneSensor ⟨[], 0, 0⟩] = some st ∧
      fusionEncode st longTag ⟨[], 0, 0⟩ = some r ∧
      r.ret = true ∧ r.out.outCmd = Cmd.dataHeart ∧
      reconstructBody r.state[0] (wireTimestamp longTag.timestampRaw) 512 =
        some (ascii "A.U.0|T>m:v|") ∧
      ¬ longTagSegments.Sublist (segmentsOf (ascii "A.U.0|T>m:v|")) := by
  have hfirst := Option.some_get (x := run fusionStep (fusionStateInit FusionSizes.headerDefault)
    [.encode oneSensor ⟨[], 0, 0⟩]) (by decide +kernel)
  have hsecond := Option.some_get (x := fusionEncode ((run fusionStep
    (fusionStateInit FusionSizes.headerDefault) [.encode oneSensor ⟨[], 0, 0⟩]).get
    (by decide +kernel)) longTag ⟨[], 0, 0⟩) (by decide +kernel)
  refine ⟨_, _, hfirst.symm, hsecond.symm, ?_, ?_, ?_, ?_⟩ <;> decide +kernel

end Osfx
