import Mathlib.Data.List.TakeWhile
import Osfx.Fusion.Delivery
import Osfx.TemplateRoundTrip

/-!
# Messages the template decoder gives

Whatever text the decoder accepts, the message it gives is one the encoder can write:
its tokens avoid the separators behind them and fit their fields (`templateDecode_ok`).
So what is decoded is a normal form (`decoded_normal_form`). It need not have all
sensors of the text: a last segment that is not closed is not read
(`nothing_dropped_iff`).
-/

namespace Osfx

open Text

/-- A text without a NUL and without a '|'. -/
def EndFree (text : Bytes) : Prop := ∀ b ∈ text, b ∉ textEnds

theorem endFree_iff {text : Bytes} : EndFree text ↔ 0 ∉ text ∧ bar ∉ text := by
  constructor
  · intro h
    exact ⟨fun hb => h 0 hb (by decide), fun hb => h bar hb (by decide)⟩
  · rintro ⟨hnul, hbar⟩ b hb hend
    obtain rfl | rfl := mem_textEnds.mp hend
    · exact hnul hb
    · exact hbar hb

theorem EndFree.subset {text part : Bytes} (h : EndFree text) (hpart : ∀ b ∈ part, b ∈ text) :
    EndFree part :=
  fun b hb => h b (hpart b hb)

theorem copyToken_some {cap : Nat} {src token : Bytes} (h : copyToken cap src = some token) :
    token = src ∧ src.length < cap := copyText_some h

/-- A token up to a separator has neither the separator nor an end of the text in it. -/
theorem fitsToken_cut {cap : Nat} {sep : UInt8} {text token rest copied : Bytes}
    (hcut : cutFirst sep text = some (token, rest)) (htext : EndFree text)
    (hcopy : copyToken cap token = some copied) :
    FitsToken cap (sep :: textEnds) copied ∧ copied = token ∧ EndFree rest := by
  obtain ⟨rfl, hsep⟩ := cutFirst_eq_some.mp hcut
  obtain ⟨rfl, hlen⟩ := copyToken_some hcopy
  refine ⟨⟨hlen, fun b hb hmem => ?_⟩, rfl, ?_⟩
  · obtain rfl | hend := List.mem_cons.mp hmem
    · exact hsep hb
    · exact htext b (List.mem_append_left _ hb) hend
  · exact htext.subset fun b hb => List.mem_append_right _ (List.mem_cons_of_mem sep hb)

/-! ## One sensor -/

theorem mem_of_mem_beforeMarker {p : Bytes} {b : UInt8} (h : b ∈ beforeMarker p) : b ∈ p :=
  (List.takeWhile_sublist _).mem h

theorem mem_of_mem_fromMarker {p : Bytes} {b : UInt8} (h : b ∈ fromMarker p) : b ∈ p :=
  (List.dropWhile_sublist _).mem h

/-- A token up to a marker has neither a marker nor an end of the text in it. -/
theorem fitsToken_beforeMarker {cap : Nat} {p token : Bytes} (hp : EndFree p)
    (hcopy : copyToken cap (beforeMarker p) = some token) : FitsToken cap valueSeps token := by
  obtain ⟨rfl, hlen⟩ := copyToken_some hcopy
  refine ⟨hlen, fun b hb hsep => ?_⟩
  have hmark : isMarker b = false := by simpa using List.mem_takeWhile_imp hb
  have hend := hp b (mem_of_mem_beforeMarker hb)
  simp only [isMarker, Bool.or_eq_false_iff, decide_eq_false_iff_not] at hmark
  simp only [valueSeps, List.mem_cons] at hsep
  obtain rfl | rfl | rfl | hsep := hsep
  · exact hmark.1.1 rfl
  · exact hmark.1.2 rfl
  · exact hmark.2 rfl
  · exact hend hsep

/-- Storing the token behind a marker keeps a slot well formed. -/
theorem storeExtension_ok {exts : Extensions} {mark : UInt8} {p : Bytes} (hp : EndFree p)
    {s s' : SensorSlot} (hs : s.Ok exts)
    (h : storeExtension exts mark (beforeMarker p) s = some s') : s'.Ok exts := by
  unfold storeExtension at h
  split at h
  · split at h
    · rename_i hon
      obtain ⟨token, hcopy, rfl⟩ := Option.map_eq_some_iff.mp h
      exact { hs with
        geohash := fitsToken_beforeMarker hp hcopy
        geohash_off := fun hoff => absurd (hon.symm.trans hoff) (by decide) }
    · cases h
      exact hs
  split at h
  · split at h
    · rename_i hon
      obtain ⟨token, hcopy, rfl⟩ := Option.map_eq_some_iff.mp h
      exact { hs with
        message := fitsToken_beforeMarker hp hcopy
        message_off := fun hoff => absurd (hon.symm.trans hoff) (by decide) }
    · cases h
      exact hs
  split at h
  · split at h
    · rename_i hon
      obtain ⟨token, hcopy, rfl⟩ := Option.map_eq_some_iff.mp h
      exact { hs with
        url := fitsToken_beforeMarker hp hcopy
        url_off := fun hoff => absurd (hon.symm.trans hoff) (by decide) }
    · cases h
      exact hs
  · cases h
    exact hs

theorem readExtensions_ok {exts : Extensions} {turns : Nat} {p : Bytes} (hp : EndFree p)
    {s s' : SensorSlot} (hs : s.Ok exts) (h : readExtensions exts turns p s = some s') :
    s'.Ok exts := by
  induction turns generalizing p s with
  | zero =>
    cases p <;>
    · cases h
      exact hs
  | succ turns ih =>
    cases p with
    | nil =>
      cases h
      exact hs
    | cons mark p =>
      obtain ⟨next, hstore, h⟩ := Option.bind_eq_some_iff.mp h
      have hrest : EndFree p := hp.subset fun b hb => List.mem_cons_of_mem mark hb
      exact ih (hrest.subset fun b hb => mem_of_mem_fromMarker hb)
        (storeExtension_ok hrest hs hstore) h

/-- Whatever is read of a segment can be written. -/
theorem readSensor_ok {exts : Extensions} {seg : Bytes} (hseg : EndFree seg) {s : SensorSlot}
    (h : readSensor exts seg = some s) : s.Ok exts := by
  unfold readSensor at h
  obtain ⟨⟨id, p⟩, hgt, h⟩ := Option.bind_eq_some_iff.mp h
  obtain ⟨⟨state, q⟩, hdot, h⟩ := Option.bind_eq_some_iff.mp h
  obtain ⟨⟨unit, r⟩, hcolon, h⟩ := Option.bind_eq_some_iff.mp h
  obtain ⟨sensorId, hid, h⟩ := Option.bind_eq_some_iff.mp h
  obtain ⟨sensorState, hstate, h⟩ := Option.bind_eq_some_iff.mp h
  obtain ⟨sensorUnit, hunit, h⟩ := Option.bind_eq_some_iff.mp h
  obtain ⟨sensorValue, hvalue, h⟩ := Option.bind_eq_some_iff.mp h
  obtain ⟨hidFits, -, hp⟩ := fitsToken_cut hgt hseg hid
  obtain ⟨hstateFits, -, hq⟩ := fitsToken_cut hdot hp hstate
  obtain ⟨hunitFits, -, hr⟩ := fitsToken_cut hcolon hq hunit
  have hplain : SensorSlot.Ok exts ⟨sensorId, sensorState, sensorUnit, sensorValue, [], [], []⟩ :=
    { id := hidFits
      state := hstateFits
      unit := hunitFits
      value := fitsToken_beforeMarker hr hvalue
      geohash := fitsToken_nil (by decide) _
      message := fitsToken_nil (by decide) _
      url := fitsToken_nil (by decide) _
      geohash_off := fun _ => rfl
      message_off := fun _ => rfl
      url_off := fun _ => rfl }
  exact readExtensions_ok (hr.subset fun b hb => mem_of_mem_fromMarker hb) hplain h

/-! ## The segments -/

/-- The loop over the segments adds a sensor for each that is not empty. -/
theorem readSensors_some {exts : Extensions} {maxSensors : Nat} {segs : List Bytes}
    {done sensors : List SensorSlot} (h : readSensors exts maxSensors segs done = some sensors) :
    ∃ read, sensors = done ++ read ∧ read.length = (segs.filter (· ≠ [])).length ∧
      (∀ s ∈ read, ∃ seg ∈ segs, readSensor exts seg = some s) ∧
      (done.length ≤ maxSensors → sensors.length ≤ maxSensors) := by
  induction segs generalizing done with
  | nil =>
    cases h
    exact ⟨[], (List.append_nil _).symm, rfl, fun _ hs => absurd hs List.not_mem_nil, id⟩
  | cons seg segs ih =>
    cases seg with
    | nil =>
      obtain ⟨read, heq, hlen, hread, hcount⟩ := ih h
      refine ⟨read, heq, by simpa using hlen, fun s hs => ?_, hcount⟩
      obtain ⟨seg, hseg, hs⟩ := hread s hs
      exact ⟨seg, List.mem_cons_of_mem [] hseg, hs⟩
    | cons b seg =>
      rw [readSensors] at h
      · split at h
        · cases h
        rename_i hroom
        obtain ⟨s, hs, h⟩ := Option.bind_eq_some_iff.mp h
        obtain ⟨read, heq, hlen, hread, hcount⟩ := ih h
        refine ⟨s :: read, by rw [heq, List.append_assoc]; rfl, ?_, fun x hx => ?_, fun _ => ?_⟩
        · rw [List.length_cons, hlen, List.filter_cons_of_pos (by simp), List.length_cons]
        · obtain rfl | hx := List.mem_cons.mp hx
          · exact ⟨b :: seg, List.mem_cons_self, hs⟩
          · obtain ⟨seg', hseg, hs⟩ := hread x hx
            exact ⟨seg', List.mem_cons_of_mem _ hseg, hs⟩
        · apply hcount
          rw [List.length_append, List.length_singleton]
          omega
      · intro hnil
        cases hnil

/-- The parts of a text that is decoded: the header, the segments that are closed, and
what is behind the last '|'. -/
structure DecodedParts (exts : Extensions) (maxSensors : Nat) (text : Bytes) (msg : TemplateMsg)
    (segs : List Bytes) (tail : Bytes) : Prop where
  shape : ∃ header, bar ∉ header ∧ text = header ++ bar :: (ended bar segs ++ tail) ∧
    cutFirst dot header = some (msg.nodeId, msg.nodeState ++ dot :: msg.tsToken)
  segs_free : ∀ seg ∈ segs, bar ∉ seg
  tail_free : bar ∉ tail
  state_free : dot ∉ msg.nodeState
  id_lt : msg.nodeId.length < tmplIdMax
  state_lt : msg.nodeState.length < tmplStateMax
  ts_lt : msg.tsToken.length < tmplTsMax
  sensors : readSensors exts maxSensors segs [] = some msg.sensors

theorem templateDecode_some {exts : Extensions} {maxSensors : Nat} {text : Bytes}
    {msg : TemplateMsg} (h : templateDecode exts maxSensors text = some msg) :
    ∃ segs tail, DecodedParts exts maxSensors text msg segs tail := by
  unfold templateDecode at h
  obtain ⟨⟨header, p⟩, hbar, h⟩ := Option.bind_eq_some_iff.mp h
  obtain ⟨⟨id, rest⟩, hdot, h⟩ := Option.bind_eq_some_iff.mp h
  obtain ⟨⟨state, ts⟩, hdot2, h⟩ := Option.bind_eq_some_iff.mp h
  obtain ⟨nodeId, hid, h⟩ := Option.bind_eq_some_iff.mp h
  obtain ⟨nodeState, hstate, h⟩ := Option.bind_eq_some_iff.mp h
  obtain ⟨tsToken, hts, h⟩ := Option.bind_eq_some_iff.mp h
  obtain ⟨sensors, hsensors, h⟩ := Option.bind_eq_some_iff.mp h
  cases h
  obtain ⟨rfl, hidlt⟩ := copyToken_some hid
  obtain ⟨rfl, hstatelt⟩ := copyToken_some hstate
  obtain ⟨rfl, htslt⟩ := copyToken_some hts
  obtain ⟨rfl, hheader⟩ := cutFirst_eq_some.mp hbar
  obtain ⟨rfl, hstatefree⟩ := cutFirst_eq_some.mp hdot2
  obtain ⟨segs, tail, rfl, hsegs, htail⟩ := exists_ended bar p
  rw [splitOn_ended_rest hsegs htail, List.dropLast_concat] at hsensors
  exact ⟨segs, tail, ⟨header, hheader, rfl, hdot⟩, hsegs, htail, hstatefree, hidlt, hstatelt, htslt,
    hsensors⟩

namespace DecodedParts

variable {exts : Extensions} {maxSensors : Nat} {text : Bytes} {msg : TemplateMsg}
  {segs : List Bytes} {tail : Bytes}

theorem segmentsOf (h : DecodedParts exts maxSensors text msg segs tail) :
    segmentsOf text = (segs ++ [tail]).filter (· ≠ []) := by
  obtain ⟨header, hheader, rfl, -⟩ := h.shape
  have hcut : cutFirst bar (header ++ bar :: (ended bar segs ++ tail)) =
      some (header, ended bar segs ++ tail) := cutFirst_eq_some.mpr ⟨rfl, hheader⟩
  simp only [Osfx.segmentsOf, hcut, splitOn_ended_rest h.segs_free h.tail_free]

/-- The decoder has a sensor for each segment that is closed and not empty. -/
theorem length_sensors (h : DecodedParts exts maxSensors text msg segs tail) :
    msg.sensors.length = (segs.filter (· ≠ [])).length := by
  obtain ⟨read, heq, hlen, -, -⟩ := readSensors_some h.sensors
  rwa [heq, List.nil_append]

/-- The rest behind the last '|' is one more segment, unless it is empty. -/
theorem length_segmentsOf (h : DecodedParts exts maxSensors text msg segs tail) :
    (Osfx.segmentsOf text).length = msg.sensors.length + if tail = [] then 0 else 1 := by
  rw [h.segmentsOf, h.length_sensors, List.filter_append, List.length_append]
  split
  · rename_i htail
    rw [htail]
    rfl
  · rename_i htail
    rw [List.filter_cons_of_pos (by simpa using htail)]
    rfl

theorem closed_iff (h : DecodedParts exts maxSensors text msg segs tail) :
    text.getLast? = some bar ↔ tail = [] := by
  obtain ⟨header, -, rfl, -⟩ := h.shape
  exact getLast?_ended header segs h.tail_free

/-- Every token of a decoded message can be written. -/
theorem ok (h : DecodedParts exts maxSensors text msg segs tail) (htext : 0 ∉ text) :
    msg.Ok exts maxSensors := by
  obtain ⟨header, hheader, rfl, hcut⟩ := h.shape
  have hfree : EndFree header :=
    endFree_iff.mpr ⟨fun hb => htext (List.mem_append_left _ hb), hheader⟩
  obtain ⟨rfl, hidfree⟩ := cutFirst_eq_some.mp hcut
  have hsegs : ∀ seg ∈ segs, EndFree seg := by
    intro seg hseg
    refine endFree_iff.mpr ⟨fun hb => htext ?_, h.segs_free seg hseg⟩
    have hmem := mem_ended (c := bar) hseg hb
    exact List.mem_append_right _ (List.mem_cons_of_mem bar (List.mem_append_left tail hmem))
  have hstate : EndFree msg.nodeState := hfree.subset fun b hb => by simp [hb]
  have hts : EndFree msg.tsToken := hfree.subset fun b hb => by simp [hb]
  obtain ⟨read, heq, -, hread, hcount⟩ := readSensors_some h.sensors
  refine ⟨⟨h.id_lt, fun b hb hsep => ?_⟩, ⟨h.state_lt, fun b hb hsep => ?_⟩, ⟨h.ts_lt, hts⟩, ?_,
    hcount (Nat.zero_le _)⟩
  · obtain rfl | hend := List.mem_cons.mp hsep
    · exact hidfree hb
    · exact hfree b (List.mem_append_left _ hb) hend
  · obtain rfl | hend := List.mem_cons.mp hsep
    · exact h.state_free hb
    · exact hstate b hb hend
  · intro s hs
    rw [heq, List.nil_append] at hs
    obtain ⟨seg, hseg, hs⟩ := hread s hs
    exact readSensor_ok (hsegs seg hseg) hs

end DecodedParts

/-! ## Normal forms -/

/-- What the decoder gives for a C string can be written. -/
theorem templateDecode_ok {exts : Extensions} {maxSensors : Nat} {text : Bytes} (htext : 0 ∉ text)
    {msg : TemplateMsg} (h : templateDecode exts maxSensors text = some msg) :
    msg.Ok exts maxSensors := by
  obtain ⟨segs, tail, hparts⟩ := templateDecode_some h
  exact hparts.ok htext

/-- `sensor_count`, a `uint8_t`. -/
def TemplateMsg.sensorCount (msg : TemplateMsg) : UInt8 := UInt8.ofNat msg.sensors.length

/-- A message as its reader sees it: the slots up to `sensor_count`. -/
def TemplateMsg.seen (msg : TemplateMsg) : TemplateMsg := { msg with sensors := msg.seenSensors }

theorem TemplateMsg.seen_sensors (msg : TemplateMsg) :
    msg.seen.sensors = msg.sensors.take msg.sensorCount.toNat := rfl

theorem TemplateMsg.seen_seen (msg : TemplateMsg) : msg.seen.seen = msg.seen := by
  have hcount : msg.sensorCount.toNat = msg.sensors.length % 256 := UInt8.toNat_ofNat'
  have hle : msg.sensors.length % 256 ≤ msg.sensors.length := Nat.mod_le _ _
  have hlen : (msg.sensors.take (msg.sensors.length % 256)).length = msg.sensors.length % 256 := by
    rw [List.length_take, Nat.min_eq_left hle]
  have hsame : msg.seen.seenSensors = msg.seen.sensors := by
    rw [seenSensors, seen_sensors, hcount, hlen, UInt8.toNat_ofNat', Nat.mod_mod]
    exact List.take_of_length_le (Nat.le_of_eq hlen)
  rw [seen, hsame]

theorem TemplateMsg.Ok.seen {exts : Extensions} {maxSensors : Nat} {msg : TemplateMsg}
    (h : msg.Ok exts maxSensors) : msg.seen.Ok exts maxSensors where
  id := h.id
  state := h.state
  ts := h.ts
  sensors := fun s hs => h.sensors s (List.mem_of_mem_take hs)
  count := by
    rw [msg.seen_sensors, List.length_take]
    exact Nat.le_trans (Nat.min_le_right _ _) h.count

/-- A decoded message is written into any buffer its text fits, and decoded again it is
the same. -/
theorem decoded_normal_form {exts : Extensions} {maxSensors : Nat} {text : Bytes}
    (htext : 0 ∉ text) {msg : TemplateMsg} (h : templateDecode exts maxSensors text = some msg) :
    ∀ outCap, (msg.seen.text exts).length < outCap →
      ∃ written, templateEncode exts maxSensors msg.seen outCap = some written ∧
        ∃ again, templateDecode exts maxSensors written = some again ∧ again.seen = msg.seen := by
  intro outCap hroom
  have hok := (templateDecode_ok htext h).seen
  refine ⟨msg.seen.text exts, ?_, msg.seen, templateDecode_text hok, msg.seen_seen⟩
  rw [templateEncode_eq, if_pos ⟨hok.count, hroom⟩]

/-- Empty segments, a marker twice and out of order, and a rest that is not closed. -/
def untidyText : Bytes := ascii "N>1.U.1.5||T.1>O>K.C:2!a@u!b#|||H>.:!#|X"

def untidyMsg : TemplateMsg :=
  ⟨ascii "N>1", ascii "U", ascii "1.5",
    [⟨ascii "T.1", ascii "O>K", ascii "C", ascii "2", [], ascii "b", ascii "u"⟩,
     ⟨ascii "H", [], [], [], [], [], []⟩]⟩

theorem untidy_decoded : templateDecode ⟨true, true, true⟩ 4 untidyText = some untidyMsg := by
  decide +kernel

theorem untidy_normal_form :
    ∃ written, templateEncode ⟨true, true, true⟩ 4 untidyMsg.seen 64 = some written ∧
      ∃ again, templateDecode ⟨true, true, true⟩ 4 written = some again ∧
        again.seen = untidyMsg.seen :=
  decoded_normal_form (by decide) untidy_decoded 64 (by decide +kernel)

/-! ## Dropped sensors -/

/-- The parser of the cache finds no more sensors than a text has segments. -/
theorem parseBodySlots_le {c : FusionSizes} {text : Bytes} {p : Parsed}
    (h : parseBodySlots c text c.maxSensors = some p) :
    p.sensorCount ≤ (segmentsOf text).length := by
  rw [parseBodySlots_eq] at h
  split at h
  · cases h
    rw [sensorCount_parsed]
    unfold keptSensors
    cases hhead : bodyHeader c text with
    | none => exact Nat.zero_le _
    | some sr =>
      obtain ⟨sig, rest⟩ := sr
      obtain ⟨name, tail, -, rfl, -, hbar, -⟩ := bodyHeader_eq_some hhead
      have hcut : cutFirst bar (sig ++ tail ++ bar :: rest) = some (sig ++ tail, rest) :=
        cutFirst_eq_some.mpr ⟨rfl, hbar⟩
      have hskip : (rest.splitOn bar).filterMap (parseSegment c) =
          ((rest.splitOn bar).filter (· ≠ [])).filterMap (parseSegment c) := by
        rw [List.filterMap_filter]
        apply List.filterMap_congr
        intro seg _
        by_cases hseg : seg = []
        · rw [hseg]
          rfl
        · simp [hseg]
      simp only [segmentsOf, hcut, hskip]
      exact Nat.le_trans (List.length_take_le' _ _) (List.length_filterMap_le _ _)
  · cases h

/-- A decode that reports `count` sensors has one for each segment of the text, and so no
fewer than `parse_body_slots` finds. -/
structure NothingSkipped (text : Bytes) (count : UInt8) : Prop where
  segments : count.toNat = (segmentsOf text).length
  slots : ∀ c p, parseBodySlots c text c.maxSensors = some p → p.sensorCount ≤ count.toNat

/-- The decoder has a sensor for each segment exactly if the text ends with a '|' and
`sensor_count` can hold their number. -/
theorem nothing_skipped_iff {exts : Extensions} {maxSensors : Nat} {text : Bytes}
    {msg : TemplateMsg} (h : templateDecode exts maxSensors text = some msg) :
    NothingSkipped text msg.sensorCount ↔
      text.getLast? = some bar ∧ (segmentsOf text).length ≤ 255 := by
  obtain ⟨segs, tail, hparts⟩ := templateDecode_some h
  have hcount : msg.sensorCount.toNat = msg.sensors.length % 256 := UInt8.toNat_ofNat'
  have hlen := hparts.length_segmentsOf
  have hmod := Nat.mod_le msg.sensors.length 256
  rw [hparts.closed_iff]
  constructor
  · intro hskip
    have hall := hskip.segments
    split at hlen
    · rename_i htail
      exact ⟨htail, by omega⟩
    · omega
  · rintro ⟨htail, hle⟩
    rw [if_pos htail] at hlen
    have hsegments : msg.sensorCount.toNat = (segmentsOf text).length := by omega
    refine ⟨hsegments, fun c p hp => ?_⟩
    rw [hsegments]
    exact parseBodySlots_le hp

/-- The second sensor of this text is not closed. -/
def unclosedText : Bytes := ascii "N.U.1|A>O.C:1|B>O.C:2"

theorem unclosed_decoded : templateDecode ⟨false, true, false⟩ 16 unclosedText =
    some ⟨ascii "N", ascii "U", ascii "1", [⟨ascii "A", ascii "O", ascii "C", ascii "1", [], [],
      []⟩]⟩ := by
  decide +kernel

theorem unclosed_skipped_iff :
    NothingSkipped unclosedText (TemplateMsg.sensorCount ⟨ascii "N", ascii "U", ascii "1",
      [⟨ascii "A", ascii "O", ascii "C", ascii "1", [], [], []⟩]⟩) ↔
    unclosedText.getLast? = some bar ∧ (segmentsOf unclosedText).length ≤ 255 :=
  nothing_skipped_iff unclosed_decoded

/-- The decoder reports one sensor, the parser of the cache two. -/
theorem unclosed_sensor_dropped : ∃ msg p,
    templateDecode ⟨false, true, false⟩ 16 unclosedText = some msg ∧ msg.sensorCount = 1 ∧
    parseBodySlots .headerDefault unclosedText FusionSizes.headerDefault.maxSensors = some p ∧
    p.sensorCount = 2 ∧ ¬ NothingSkipped unclosedText msg.sensorCount := by
  refine ⟨_, ⟨ascii "N.U.", [ascii "A", ascii "B"],
    [ascii "O.C", ascii "1", ascii "O.C", ascii "2"]⟩, unclosed_decoded, rfl, by decide +kernel,
    rfl, fun h => ?_⟩
  have hsegments := h.segments
  revert hsegments
  decide +kernel

end Osfx
