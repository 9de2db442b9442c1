import Osfx.FusionState

/-!
# What the cache takes of a body

`parse_body_slots` as a specification: the header prefix, and the sensors of the
segments that fit the rows, at most `OSFX_FUSION_MAX_SENSORS` of them.
`parseBodySlots_eq` says that the loop computes exactly this, and that it leaves
its slot rows exactly if there are not two of them for every sensor taken.
-/

namespace Osfx

open Text

variable {c : FusionSizes}

/-- TAG, META and VAL of one sensor. -/
abbrev Sensor := Bytes × Bytes × Bytes

def segmentText (s : Sensor) : Bytes := s.1 ++ gt :: (s.2.1 ++ colon :: s.2.2)

/-- The three texts of a sensor fit their rows, terminator included. -/
structure SensorFits (c : FusionSizes) (s : Sensor) : Prop where
  tag_ne : s.1 ≠ []
  tag_lt : s.1.length < c.maxTagLen
  meta_ne : s.2.1 ≠ []
  meta_lt : s.2.1.length < c.maxValLen
  val_ne : s.2.2 ≠ []
  val_lt : s.2.2.length < c.maxValLen

/-- The header prefix the cache can hold, and the text behind the header. -/
def bodyHeader (c : FusionSizes) (body : Bytes) : Option (Bytes × Bytes) := do
  let (header, rest) ← cutFirst bar body
  let (name, _) ← cutLast dot header
  if c.maxPrefix < name.length + 2 then none else some (name ++ [dot], rest)

def headerPrefix (c : FusionSizes) (body : Bytes) : Bytes :=
  ((bodyHeader c body).map Prod.fst).getD []

/-- The sensors the cache takes of the segments behind the header. -/
def keptSensors (c : FusionSizes) (body : Bytes) : List Sensor :=
  match bodyHeader c body with
  | none => []
  | some (_, rest) => ((rest.splitOn bar).filterMap (parseSegment c)).take c.maxSensors

theorem headerPrefix_eq {body sig rest : Bytes} (h : bodyHeader c body = some (sig, rest)) :
    headerPrefix c body = sig := by
  simp [headerPrefix, h]

theorem keptSensors_eq {body sig rest : Bytes} (h : bodyHeader c body = some (sig, rest)) :
    keptSensors c body = ((rest.splitOn bar).filterMap (parseSegment c)).take c.maxSensors := by
  simp [keptSensors, h]

def slotsOf (sensors : List Sensor) : List Bytes := sensors.flatMap fun s => [s.2.1, s.2.2]

/-- A header prefix and sensors as `parse_body_slots` hands them out. -/
def parsedOf (sigBase : Bytes) (sensors : List Sensor) : Parsed :=
  ⟨sigBase, sensors.map Prod.fst, slotsOf sensors⟩

@[simp] theorem sensorCount_parsedOf (sig : Bytes) (sensors : List Sensor) :
    (parsedOf sig sensors).sensorCount = sensors.length := by
  simp [parsedOf, Parsed.sensorCount]

@[simp] theorem length_slotsOf (sensors : List Sensor) :
    (slotsOf sensors).length = 2 * sensors.length := by
  induction sensors with
  | nil => rfl
  | cons s sensors ih =>
    have hs : slotsOf (s :: sensors) = s.2.1 :: s.2.2 :: slotsOf sensors := rfl
    simp only [hs, List.length_cons, ih]
    omega

/-- What `parse_body_slots` hands out for a body. -/
def parsed (c : FusionSizes) (body : Bytes) : Parsed :=
  parsedOf (headerPrefix c body) (keptSensors c body)

/-- Two slot rows for every sensor taken. -/
def SlotsFit (c : FusionSizes) (body : Bytes) : Prop := 2 * (keptSensors c body).length ≤ c.maxVals

instance (c : FusionSizes) (body : Bytes) : Decidable (SlotsFit c body) :=
  inferInstanceAs (Decidable (_ ≤ _))

@[simp] theorem sensorCount_parsed (body : Bytes) :
    (parsed c body).sensorCount = (keptSensors c body).length := sensorCount_parsedOf _ _

theorem mem_slotsOf {sensors : List Sensor} {b : Bytes} (h : b ∈ slotsOf sensors) :
    ∃ s ∈ sensors, b = s.2.1 ∨ b = s.2.2 := by
  simpa [slotsOf] using h

/-! ## One segment -/

theorem parseSegment_eq_some {seg : Bytes} {s : Sensor} :
    parseSegment c seg = some s ↔
      seg = segmentText s ∧ gt ∉ s.1 ∧ colon ∉ s.2.2 ∧ SensorFits c s := by
  obtain ⟨tag, metaText, val⟩ := s
  constructor
  · intro h
    unfold parseSegment at h
    split at h
    · cases h
    rename_i t rest hgt
    split at h
    · cases h
    rename_i m v hcolon
    split at h
    · cases h
    rename_i hfit
    obtain ⟨rfl, rfl, rfl⟩ : t = tag ∧ m = metaText ∧ v = val := by simpa using h
    obtain ⟨rfl, hnogt⟩ := cutFirst_eq_some.mp hgt
    obtain ⟨rfl, hnocolon⟩ := cutLast_eq_some.mp hcolon
    simp only [not_or, Nat.not_le] at hfit
    obtain ⟨h1, h2, h3, h4, h5, h6⟩ := hfit
    exact ⟨rfl, hnogt, hnocolon, ⟨h1, h2, h3, h4, h5, h6⟩⟩
  · rintro ⟨rfl, hgt, hcolon, hfit⟩
    have htag : cutFirst gt (segmentText (tag, metaText, val)) =
        some (tag, metaText ++ colon :: val) := cutFirst_eq_some.mpr ⟨rfl, hgt⟩
    have hval : cutLast colon (metaText ++ colon :: val) = some (metaText, val) :=
      cutLast_eq_some.mpr ⟨rfl, hcolon⟩
    have hno : ¬ (tag = [] ∨ c.maxTagLen ≤ tag.length ∨ metaText = [] ∨
        c.maxValLen ≤ metaText.length ∨ val = [] ∨ c.maxValLen ≤ val.length) := by
      simp only [not_or, Nat.not_le]
      exact ⟨hfit.tag_ne, hfit.tag_lt, hfit.meta_ne, hfit.meta_lt, hfit.val_ne, hfit.val_lt⟩
    simp only [parseSegment, htag, hval, if_neg hno]

/-- Nothing is read of the empty piece behind the last '|'. -/
theorem filterMap_closed {segs : List Bytes} (h : ∀ seg ∈ segs, bar ∉ seg) :
    ((ended bar segs).splitOn bar).filterMap (parseSegment c) =
      segs.filterMap (parseSegment c) := by
  have hnil : parseSegment c [] = none := rfl
  simp only [splitOn_closed h, List.filterMap_append, List.filterMap_cons, hnil,
    List.filterMap_nil, List.append_nil]

/-! ## The segment loop -/

/-- A sensor taken fills three rows, of which only the slot rows can run out. -/
theorem parseSegments_cons_some {seg : Bytes} {segs : List Bytes} {sig : Bytes}
    {done : List Sensor} {s : Sensor} (hseg : parseSegment c seg = some s)
    (hlt : done.length < c.maxSensors) :
    parseSegments c c.maxSensors (seg :: segs) (parsedOf sig done) =
      if 2 * (done.length + 1) ≤ c.maxVals then
        parseSegments c c.maxSensors segs (parsedOf sig (done ++ [s])) else none := by
  obtain ⟨tag, metaText, val⟩ := s
  have hnext : parsedOf sig (done ++ [(tag, metaText, val)]) =
      ⟨sig, done.map Prod.fst ++ [tag], slotsOf done ++ [metaText] ++ [val]⟩ := by
    simp [parsedOf, slotsOf]
  rw [hnext, parseSegments, sensorCount_parsedOf, if_pos hlt, hseg]
  have hlen : (slotsOf done ++ [metaText]).length = 2 * done.length + 1 := by simp
  simp only [parsedOf, pushRow, List.length_map, length_slotsOf, if_pos hlt, Option.bind_eq_bind,
    Option.bind_some]
  by_cases hone : 2 * done.length < c.maxVals
  · rw [if_pos hone, Option.bind_some, hlen]
    by_cases htwo : 2 * done.length + 1 < c.maxVals
    · rw [if_pos htwo, if_pos (by omega), Option.bind_some]
    · rw [if_neg htwo, if_neg (by omega), Option.bind_none]
  · rw [if_neg hone, if_neg (by omega), Option.bind_none]

theorem parseSegments_eq (segs : List Bytes) (sig : Bytes) (done : List Sensor)
    (hd : 2 * done.length ≤ c.maxVals) :
    parseSegments c c.maxSensors segs (parsedOf sig done) =
      let kept := done ++ (segs.filterMap (parseSegment c)).take (c.maxSensors - done.length)
      if 2 * kept.length ≤ c.maxVals then some (parsedOf sig kept) else none := by
  induction segs generalizing done with
  | nil => simp [parseSegments, hd]
  | cons seg segs ih =>
    by_cases hlt : done.length < c.maxSensors
    · cases hseg : parseSegment c seg with
      | none =>
        rw [parseSegments, sensorCount_parsedOf, if_pos hlt, hseg]
        simp only [ih done hd, List.filterMap_cons, hseg]
      | some s =>
        have hk : c.maxSensors - done.length = (c.maxSensors - (done.length + 1)) + 1 := by omega
        have hkept : done ++ ((seg :: segs).filterMap (parseSegment c)).take
            (c.maxSensors - done.length) = (done ++ [s]) ++
            (segs.filterMap (parseSegment c)).take (c.maxSensors - (done ++ [s]).length) := by
          rw [List.filterMap_cons, hseg, hk]
          simp
        rw [parseSegments_cons_some hseg hlt, hkept]
        by_cases hroom : 2 * (done.length + 1) ≤ c.maxVals
        · rw [if_pos hroom]
          exact ih (done ++ [s]) (by simpa using hroom)
        · rw [if_neg hroom, if_neg]
          simp only [List.length_append, List.length_singleton]
          omega
    · have hz : c.maxSensors - done.length = 0 := by omega
      rw [parseSegments, sensorCount_parsedOf, if_neg hlt]
      simp [hz, hd]

theorem parseBodySlots_header (c : FusionSizes) (body : Bytes) (maxSensors : Nat) :
    parseBodySlots c body maxSensors =
      match bodyHeader c body with
      | none => some .empty
      | some (sig, rest) => parseSegments c maxSensors (rest.splitOn bar) ⟨sig, [], []⟩ := by
  unfold parseBodySlots bodyHeader
  cases cutFirst bar body with
  | none => rfl
  | some hr =>
    obtain ⟨header, rest⟩ := hr
    simp only [Option.bind_eq_bind, Option.bind_some]
    cases cutLast dot header with
    | none => rfl
    | some nd =>
      simp only [Option.bind_some]
      split <;> rfl

/-- `parse_body_slots` gives the header prefix and the sensors the cache takes; it
writes past its slot rows exactly if there are fewer than two for every sensor. -/
theorem parseBodySlots_eq (c : FusionSizes) (body : Bytes) :
    parseBodySlots c body c.maxSensors =
      if SlotsFit c body then some (parsed c body) else none := by
  rw [parseBodySlots_header]
  cases hb : bodyHeader c body with
  | none =>
    have hk : keptSensors c body = [] := by simp [keptSensors, hb]
    have hp : parsed c body = .empty := by simp [parsed, hk, headerPrefix, hb, parsedOf, slotsOf,
      Parsed.empty]
    rw [if_pos (by simp [SlotsFit, hk]), hp]
  | some sr =>
    obtain ⟨sig, rest⟩ := sr
    have hk := keptSensors_eq hb
    have hsig := headerPrefix_eq hb
    have hrun := parseSegments_eq (c := c) (rest.splitOn bar) sig [] (by simp)
    simp only [List.length_nil, Nat.sub_zero, List.nil_append, ← hk] at hrun
    simp only [SlotsFit, parsed, hsig]
    exact hrun

/-! ## What is kept fits -/

theorem mem_keptSensors {body : Bytes} {s : Sensor} (h : s ∈ keptSensors c body) :
    ∃ sig rest seg, bodyHeader c body = some (sig, rest) ∧ seg ∈ rest.splitOn bar ∧
      parseSegment c seg = some s := by
  unfold keptSensors at h
  cases hb : bodyHeader c body with
  | none => simp [hb] at h
  | some sr =>
    rw [hb] at h
    obtain ⟨seg, hm, hp⟩ := List.mem_filterMap.mp (List.mem_of_mem_take h)
    exact ⟨sr.1, sr.2, seg, rfl, hm, hp⟩

theorem keptSensors_fits {body : Bytes} {s : Sensor} (h : s ∈ keptSensors c body) :
    SensorFits c s := by
  obtain ⟨-, -, seg, -, -, hp⟩ := mem_keptSensors h
  exact (parseSegment_eq_some.mp hp).2.2.2

theorem keptSensors_length_le (body : Bytes) : (keptSensors c body).length ≤ c.maxSensors := by
  unfold keptSensors
  split
  · simp
  · simp [List.length_take]

theorem bodyHeader_eq_some {body sig rest : Bytes} (h : bodyHeader c body = some (sig, rest)) :
    ∃ name tail, sig = name ++ [dot] ∧ body = sig ++ tail ++ bar :: rest ∧ dot ∉ tail ∧
      bar ∉ sig ++ tail ∧ sig.length + 1 ≤ c.maxPrefix := by
  unfold bodyHeader at h
  cases hb : cutFirst bar body with
  | none => simp [hb] at h
  | some hr =>
    obtain ⟨header, r⟩ := hr
    cases hd : cutLast dot header with
    | none => simp [hb, hd] at h
    | some nd =>
      obtain ⟨name, tail⟩ := nd
      simp only [hb, hd, Option.bind_eq_bind, Option.bind_some] at h
      split at h
      · cases h
      rename_i hlong
      obtain ⟨rfl, rfl⟩ : name ++ [dot] = sig ∧ r = rest := by simpa using h
      obtain ⟨rfl, hbar⟩ := cutFirst_eq_some.mp hb
      obtain ⟨rfl, hdot⟩ := cutLast_eq_some.mp hd
      refine ⟨name, tail, rfl, by simp, hdot, by simpa using hbar, ?_⟩
      simp only [List.length_append, List.length_singleton]
      omega

/-- The header of a body with a sensor, and the text its sensors are in. -/
theorem header_of_kept {body : Bytes} (h : keptSensors c body ≠ []) :
    ∃ name tail rest, headerPrefix c body = name ++ [dot] ∧
      body = headerPrefix c body ++ tail ++ bar :: rest ∧ dot ∉ tail ∧
      bar ∉ headerPrefix c body ++ tail ∧ (headerPrefix c body).length + 1 ≤ c.maxPrefix ∧
      bodyHeader c body = some (headerPrefix c body, rest) := by
  obtain ⟨s, hs⟩ := List.exists_mem_of_ne_nil _ h
  obtain ⟨sig, rest, -, hb, -, -⟩ := mem_keptSensors hs
  obtain ⟨name, tail, hsig, hbody, hdot, hbar, hlen⟩ := bodyHeader_eq_some hb
  rw [headerPrefix_eq hb]
  exact ⟨name, tail, rest, hsig, hbody, hdot, hbar, hlen, hb⟩

/-- A body with a sensor has a header prefix, and its buffer holds it and a NUL. -/
theorem headerPrefix_fits {body : Bytes} (h : keptSensors c body ≠ []) :
    headerPrefix c body ≠ [] ∧ (headerPrefix c body).length + 1 ≤ c.maxPrefix := by
  obtain ⟨name, -, -, hname, -, -, -, hlen, -⟩ := header_of_kept h
  exact ⟨by simp [hname], hlen⟩

end Osfx
