import Osfx.Fusion.Parse
import Osfx.Fusion.Delta

/-!
# One cached stream

`EntryOk` is the invariant of an entry: the counts stay within the arrays and
agree, and every text is terminated. Over it the loops of the code are total:
`refreshed` is the entry after a FULL, `entryText` the body `reconstruct_body`
rebuilds, and `encodeEntry_eq` says that the encoder leaves the refreshed entry
behind whichever command it chooses.
-/

namespace Osfx

open Numeral Text Cells

variable {c : FusionSizes}

structure EntryOk (e : FusionEntry c) : Prop where
  sensors_le : e.sensorCount.toNat ≤ c.maxSensors
  vals_eq : e.valCount.toNat = 2 * e.sensorCount.toNat
  vals_le : e.valCount.toNat ≤ c.maxVals
  tags : Terminated e.tagNames
  vals : Terminated e.lastVals

theorem terminated_replicate {n k : Nat} (hn : 0 < n) :
    Terminated (Vector.replicate k (Cell.zero n)) := by
  intro i hi
  simp [Cell.Terminated, Cell.zero, hn]

theorem entryOk_zero (hc : c.FieldsFit) : EntryOk (FusionEntry.zero c) where
  sensors_le := by simp [FusionEntry.zero]
  vals_eq := by simp [FusionEntry.zero]
  vals_le := by simp [FusionEntry.zero]
  tags := terminated_replicate hc.tagLen_pos
  vals := terminated_replicate hc.valLen_pos

/-- A parse the cache can hold: the prefix fits `sig_base`, every text its row, and
there are as many rows as sensors and slots. -/
structure ParsedFits (c : FusionSizes) (p : Parsed) : Prop where
  sig_ne : p.sigBase ≠ []
  sig_lt : p.sigBase.length + 1 ≤ c.maxPrefix
  sensors_pos : 0 < p.sensorCount
  sensors_le : p.sensorCount ≤ c.maxSensors
  slots_eq : p.slots.length = 2 * p.sensorCount
  slots_le : 2 * p.sensorCount ≤ c.maxVals
  tag_fits : ∀ b ∈ p.tagNames, Fits c.maxTagLen b
  slot_fits : ∀ b ∈ p.slots, Fits c.maxValLen b

theorem ParsedFits.tags_room {p : Parsed} (hp : ParsedFits c p) :
    0 + p.tagNames.length ≤ c.maxSensors := by
  rw [Nat.zero_add]
  exact hp.sensors_le

theorem ParsedFits.slots_room {p : Parsed} (hp : ParsedFits c p) :
    0 + p.slots.length ≤ c.maxVals := by
  rw [Nat.zero_add, hp.slots_eq]
  exact hp.slots_le

theorem parsed_fits (hc : c.FieldsFit) {body : Bytes} (hne : keptSensors c body ≠ [])
    (hfit : SlotsFit c body) : ParsedFits c (parsed c body) where
  sig_ne := (headerPrefix_fits hne).1
  sig_lt := (headerPrefix_fits hne).2
  sensors_pos := by simpa using List.length_pos_iff.mpr hne
  sensors_le := by simpa using keptSensors_length_le body
  slots_eq := by simp [parsed, parsedOf, Parsed.sensorCount]
  slots_le := by simpa [SlotsFit] using hfit
  tag_fits := by
    intro b hb
    obtain ⟨s, hs, rfl⟩ := List.mem_map.mp hb
    have hlt := (keptSensors_fits hs).tag_lt
    have := hc.tagLen_le
    exact ⟨by omega, hlt⟩
  slot_fits := by
    intro b hb
    obtain ⟨s, hs, hb⟩ := mem_slotsOf hb
    have hmeta := (keptSensors_fits hs).meta_lt
    have hval := (keptSensors_fits hs).val_lt
    have := hc.valLen_le
    rcases hb with rfl | rfl
    · exact ⟨by omega, hmeta⟩
    · exact ⟨by omega, hval⟩

/-! ## The refreshed entry -/

/-- The entry overwritten with a parse. -/
def refreshed (e : FusionEntry c) (p : Parsed) : FusionEntry c :=
  { e with
    sigBase := memcpy e.sigBase (p.sigBase ++ [0])
    sensorCount := UInt8.ofNat p.sensorCount
    valCount := UInt8.ofNat (p.sensorCount * 2)
    tagNames := storeFrom e.tagNames 0 p.tagNames
    lastVals := storeFrom e.lastVals 0 p.slots }

@[simp] theorem refreshed_key (e : FusionEntry c) (p : Parsed) : (refreshed e p).key = e.key := rfl

@[simp] theorem refreshed_used (e : FusionEntry c) (p : Parsed) : (refreshed e p).used = e.used :=
  rfl

theorem storeRows_eq {m k i : Nat} {bs : List Bytes} {cells : Vector (Cell m) k}
    (hroom : i + bs.length ≤ k) : storeRows cells i bs = some (storeFrom cells i bs) := by
  induction bs generalizing cells i with
  | nil => rfl
  | cons b bs ih =>
    simp only [List.length_cons] at hroom
    have hi : i < k := by omega
    rw [storeRows, storeFrom, dif_pos hi, dif_pos hi, ih (by omega)]

theorem refreshEntry_eq (e : FusionEntry c) {p : Parsed} (hp : ParsedFits c p) :
    refreshEntry e p = some (refreshed e p) := by
  have htags : storeRows e.tagNames 0 p.tagNames = some (storeFrom e.tagNames 0 p.tagNames) :=
    storeRows_eq hp.tags_room
  have hvals : storeRows e.lastVals 0 p.slots = some (storeFrom e.lastVals 0 p.slots) :=
    storeRows_eq hp.slots_room
  simp only [refreshEntry, htags, hvals, Option.bind_eq_bind, Option.bind_some, refreshed]

section
variable (hc : c.FieldsFit) {p : Parsed} (hp : ParsedFits c p) (e : FusionEntry c)
include hc hp

theorem refreshed_sensorCount : (refreshed e p).sensorCount.toNat = p.sensorCount := by
  have := hp.sensors_le
  have := hc.sensors_le
  simp only [refreshed, UInt8.toNat_ofNat']
  omega

theorem refreshed_valCount : (refreshed e p).valCount.toNat = 2 * p.sensorCount := by
  have := hp.sensors_le
  have := hc.sensors_le
  simp only [refreshed, UInt8.toNat_ofNat']
  omega

theorem entryOk_refreshed (hok : EntryOk e) : EntryOk (refreshed e p) where
  sensors_le := by rw [refreshed_sensorCount hc hp]; exact hp.sensors_le
  vals_eq := by rw [refreshed_valCount hc hp, refreshed_sensorCount hc hp]
  vals_le := by rw [refreshed_valCount hc hp]; exact hp.slots_le
  tags := terminated_storeFrom hp.tag_fits hok.tags
  vals := terminated_storeFrom hp.slot_fits hok.vals

end

/-! ## What an entry holds of a parse -/

/-- The template structure of the parse is the cached one. -/
structure SameStructure (e : FusionEntry c) (p : Parsed) : Prop where
  sig_ne : e.sigEmpty = false
  count : e.valCount.toNat = p.sensorCount * 2
  sig_len : strnlen e.sigBase = p.sigBase.length
  sig : e.sigBase.toList.take p.sigBase.length = p.sigBase
  tags : Holds e.tagNames 0 p.tagNames

theorem sameStructure_iff (e : FusionEntry c) (p : Parsed) : SameStructure e p ↔
    e.sigEmpty = false ∧ e.valCount.toNat = p.sensorCount * 2 ∧
    strnlen e.sigBase = p.sigBase.length ∧ e.sigBase.toList.take p.sigBase.length = p.sigBase ∧
    Holds e.tagNames 0 p.tagNames :=
  ⟨fun h => ⟨h.sig_ne, h.count, h.sig_len, h.sig, h.tags⟩,
    fun ⟨h1, h2, h3, h4, h5⟩ => ⟨h1, h2, h3, h4, h5⟩⟩

instance (e : FusionEntry c) (p : Parsed) : Decidable (SameStructure e p) :=
  decidable_of_iff _ (sameStructure_iff e p).symm

/-- The entry holds the whole parse already, terminator of the prefix included. -/
structure Caches (e : FusionEntry c) (p : Parsed) : Prop where
  sig : e.sigBase.toList.take (p.sigBase.length + 1) = p.sigBase ++ [0]
  sensors : e.sensorCount.toNat = p.sensorCount
  tags : Holds e.tagNames 0 p.tagNames
  slots : Holds e.lastVals 0 p.slots

theorem caches_iff (e : FusionEntry c) (p : Parsed) : Caches e p ↔
    e.sigBase.toList.take (p.sigBase.length + 1) = p.sigBase ++ [0] ∧
    e.sensorCount.toNat = p.sensorCount ∧ Holds e.tagNames 0 p.tagNames ∧
    Holds e.lastVals 0 p.slots :=
  ⟨fun h => ⟨h.sig, h.sensors, h.tags, h.slots⟩, fun ⟨h1, h2, h3, h4⟩ => ⟨h1, h2, h3, h4⟩⟩

instance (e : FusionEntry c) (p : Parsed) : Decidable (Caches e p) :=
  decidable_of_iff _ (caches_iff e p).symm

theorem memcpy_front {n : Nat} (dst : Vector UInt8 n) {src : Bytes} (h : src.length ≤ n) :
    (memcpy dst src).toList.take src.length = src := by
  rw [memcpy_toList dst h, List.take_left]

/-- Refreshing changes nothing exactly if the parse is cached. -/
theorem refreshed_eq_self (hc : c.FieldsFit) {e : FusionEntry c} {p : Parsed} (hok : EntryOk e)
    (hp : ParsedFits c p) : refreshed e p = e ↔ Caches e p := by
  have hlen : (p.sigBase ++ [(0 : UInt8)]).length = p.sigBase.length + 1 := by simp
  constructor
  · intro h
    have hsig : memcpy e.sigBase (p.sigBase ++ [0]) = e.sigBase := congrArg FusionEntry.sigBase h
    have htags : storeFrom e.tagNames 0 p.tagNames = e.tagNames := congrArg FusionEntry.tagNames h
    have hvals : storeFrom e.lastVals 0 p.slots = e.lastVals := congrArg FusionEntry.lastVals h
    refine ⟨?_, ?_, (storeFrom_eq_self hp.tag_fits hp.tags_room hok.tags).mp htags,
      (storeFrom_eq_self hp.slot_fits hp.slots_room hok.vals).mp hvals⟩
    · have := memcpy_front e.sigBase (hlen ▸ hp.sig_lt)
      rwa [hsig, hlen] at this
    · rw [← refreshed_sensorCount hc hp e, h]
  · intro h
    have hsig : memcpy e.sigBase (p.sigBase ++ [0]) = e.sigBase :=
      memcpy_self (by rw [hlen]; exact h.sig)
    have hcount : (refreshed e p).sensorCount = e.sensorCount := by
      rw [← UInt8.toNat_inj, refreshed_sensorCount hc hp, h.sensors]
    have hvalCount : (refreshed e p).valCount = e.valCount := by
      rw [← UInt8.toNat_inj, refreshed_valCount hc hp, hok.vals_eq, h.sensors]
    have htags := (storeFrom_eq_self hp.tag_fits hp.tags_room hok.tags).mpr h.tags
    have hvals := (storeFrom_eq_self hp.slot_fits hp.slots_room hok.vals).mpr h.slots
    exact FusionEntry.ext rfl rfl hcount hvalCount rfl hsig htags hvals

theorem anyDiffers_eq {m k i : Nat} {bs : List Bytes} {cells : Vector (Cell m) k}
    (hfit : ∀ b ∈ bs, Fits m b) (hroom : i + bs.length ≤ k) :
    anyDiffers cells i bs = some (!decide (Holds cells i bs)) := by
  induction bs generalizing i with
  | nil => rfl
  | cons b bs ih =>
    simp only [List.length_cons] at hroom
    have hi : i < k := by omega
    have hdiff := differs_iff cells hi (hfit b List.mem_cons_self)
    have hcons : Holds cells i (b :: bs) ↔ Holds cells i [b] ∧ Holds cells (i + 1) bs := by
      simp [Holds]
    have htail := ih (fun x hx => hfit x (List.mem_cons_of_mem b hx)) (by omega : i + 1 + _ ≤ k)
    rw [anyDiffers, Vector.getElem?_eq_getElem hi]
    by_cases hh : Holds cells i [b]
    · have hsame : cells[i].differs b = false := by
        simpa using mt hdiff.mp (not_not.mpr hh)
      simp [hsame, htail, hcons, hh]
    · simp [hdiff.mpr hh, hcons, hh]

theorem structChanged_eq {e : FusionEntry c} {p : Parsed} (hp : ParsedFits c p) :
    structChanged e p = some (!decide (SameStructure e p)) := by
  have htags : anyDiffers e.tagNames 0 p.tagNames =
      some (!decide (Holds e.tagNames 0 p.tagNames)) :=
    anyDiffers_eq hp.tag_fits hp.tags_room
  have hsame := sameStructure_iff e p
  unfold structChanged
  split
  · rename_i h
    have hno : ¬ SameStructure e p := by
      rintro ⟨h1, h2, h3, h4, -⟩
      simp [h1, h2, h3, h4] at h
    simp [hno]
  · rename_i h
    simp only [not_or, not_not, Bool.not_eq_true] at h
    rw [htags]
    simp [hsame, h]

/-! ## The command and the body chosen -/

/-- The body of the DIFF that takes an entry to a parse. -/
def diffBody (e : FusionEntry c) (p : Parsed) : Bytes :=
  beBytes ((p.sensorCount * 2 + 7) / 8) (changedMask e.lastVals 0 p.slots) ++
    changedTexts e.lastVals 0 p.slots

def chosenCmd (e : FusionEntry c) (p : Parsed) : UInt8 :=
  if SameStructure e p then
    if Holds e.lastVals 0 p.slots then Cmd.dataHeart else Cmd.dataDiff
  else Cmd.dataFull

def chosenBody (e : FusionEntry c) (p : Parsed) (fullBody : Bytes) : Bytes :=
  if SameStructure e p then
    if Holds e.lastVals 0 p.slots then [] else diffBody e p
  else fullBody

theorem SameStructure.memcpy_sig {e : FusionEntry c} {p : Parsed} (h : SameStructure e p)
    (hp : ParsedFits c p) : memcpy e.sigBase (p.sigBase ++ [0]) = e.sigBase := by
  have hlt : strnlen e.sigBase < c.maxPrefix := by
    have := hp.sig_lt
    have := h.sig_len
    omega
  have hnul := strnlen_spec hlt
  rw [h.sig_len, h.sig] at hnul
  apply memcpy_self
  rw [List.length_append, List.length_singleton]
  exact hnul

/-- With the structure unchanged only the slots are refreshed. -/
theorem SameStructure.refreshed_eq (hc : c.FieldsFit) {e : FusionEntry c} {p : Parsed}
    (h : SameStructure e p) (hok : EntryOk e) (hp : ParsedFits c p) :
    refreshed e p = { e with lastVals := storeFrom e.lastVals 0 p.slots } := by
  have hcount : (refreshed e p).sensorCount = e.sensorCount := by
    have := h.count
    have := hok.vals_eq
    rw [← UInt8.toNat_inj, refreshed_sensorCount hc hp]
    omega
  have hvalCount : (refreshed e p).valCount = e.valCount := by
    rw [← UInt8.toNat_inj, refreshed_valCount hc hp, h.count, Nat.mul_comm]
  have htags := (storeFrom_eq_self hp.tag_fits hp.tags_room hok.tags).mpr h.tags
  exact FusionEntry.ext rfl rfl hcount hvalCount rfl (h.memcpy_sig hp) htags rfl

/-- Whichever command is chosen, the encoder leaves the refreshed entry behind. -/
theorem encodeEntry_eq (hc : c.FieldsFit) {e : FusionEntry c} {p : Parsed} (hok : EntryOk e)
    (hp : ParsedFits c p) (fullBody : Bytes) :
    encodeEntry e p fullBody = some (refreshed e p, chosenCmd e p, chosenBody e p fullBody) := by
  unfold encodeEntry chosenCmd chosenBody
  rw [structChanged_eq hp]
  by_cases hsame : SameStructure e p
  · have hrefreshed := hsame.refreshed_eq hc hok hp
    simp only [hsame, decide_true, Bool.not_true, Option.bind_eq_bind, Option.bind_some,
      Bool.false_eq_true, if_false, if_true, anyDiffers_eq hp.slot_fits hp.slots_room]
    by_cases hheld : Holds e.lastVals 0 p.slots
    · have hself := (storeFrom_eq_self hp.slot_fits hp.slots_room hok.vals).mpr hheld
      have he : refreshed e p = e := by rw [hrefreshed, hself]
      simp [hheld, he]
    · have hdiff := diffSlots_eq 0 [] hp.slot_fits hp.slots_room hok.vals
      simp [hheld, hdiff, hrefreshed, diffBody]
  · simp [hsame, refreshEntry_eq e hp]

/-! ## The text of an entry -/

/-- The text a cell holds. -/
def cellText {n k : Nat} (cells : Vector (Cell n) k) (i : Nat) : Bytes :=
  match cells[i]? with
  | some cell => cell.bytes
  | none => []

def FusionEntry.sensorAt (e : FusionEntry c) (i : Nat) : Sensor :=
  (cellText e.tagNames i, cellText e.lastVals (i * 2), cellText e.lastVals (i * 2 + 1))

/-- The sensors an entry holds. -/
def FusionEntry.sensors (e : FusionEntry c) : List Sensor :=
  (List.range e.sensorCount.toNat).map e.sensorAt

/-- The header prefix an entry holds: `sig_base` up to its first NUL. -/
def FusionEntry.sigText (e : FusionEntry c) : Bytes := e.sigBase.toList.take (strnlen e.sigBase)

/-- A body of the template format. -/
def templateText (sig : Bytes) (ts : Nat) (sensors : List Sensor) : Bytes :=
  sig ++ decimal ts ++ bar :: ended bar (sensors.map segmentText)

/-- The body an entry stands for at a timestamp. -/
def FusionEntry.text (e : FusionEntry c) (ts : UInt64) : Bytes :=
  templateText e.sigText ts.toNat e.sensors

theorem length_bytes {n : Nat} {cell : Cell n} (h : cell.Terminated) :
    cell.bytes.length = cell.len.toNat := by
  have hlt : cell.len.toNat < n := by
    have := (List.getElem?_eq_some_iff.mp h).1
    simpa using this
  simp only [Cell.bytes, List.length_take, Vector.length_toList]
  omega

theorem rebuildSensors_eq {e : FusionEntry c} (hok : EntryOk e) (outCap : Nat) {k i : Nat}
    {out : Bytes} (hk : i + k ≤ e.sensorCount.toNat) (hout : out.length ≤ outCap) :
    rebuildSensors e outCap k i out =
      let text := out ++ ended bar (((List.range' i k).map e.sensorAt).map segmentText)
      some (if text.length ≤ outCap then text else []) := by
  induction k generalizing i out with
  | zero => simp [rebuildSensors, ended, hout]
  | succ k ih =>
    have hle := hok.sensors_le
    have hvals := hok.vals_le
    have heq := hok.vals_eq
    have hi : i < c.maxSensors := by omega
    have hm : i * 2 < c.maxVals := by omega
    have hv : i * 2 + 1 < c.maxVals := by omega
    have htag := length_bytes (hok.tags i hi)
    have hmeta := length_bytes (hok.vals (i * 2) hm)
    have hval := length_bytes (hok.vals (i * 2 + 1) hv)
    have hseg : out ++ e.tagNames[i].bytes ++ [gt] ++ e.lastVals[i * 2].bytes ++ [colon] ++
        e.lastVals[i * 2 + 1].bytes ++ [bar] = out ++ segmentText (e.sensorAt i) ++ [bar] := by
      simp [segmentText, FusionEntry.sensorAt, cellText, hi, hm, hv]
    have hlen : (out ++ segmentText (e.sensorAt i) ++ [bar]).length = out.length +
        e.tagNames[i].len.toNat + 1 + e.lastVals[i * 2].len.toNat + 1 +
        e.lastVals[i * 2 + 1].len.toNat + 1 := by
      rw [← hseg]
      simp only [List.length_append, List.length_singleton, htag, hmeta, hval]
    have htext : out ++ ended bar (((List.range' i (k + 1)).map e.sensorAt).map segmentText) =
        out ++ segmentText (e.sensorAt i) ++ [bar] ++
        ended bar (((List.range' (i + 1) k).map e.sensorAt).map segmentText) := by
      simp [List.range'_succ, ended]
    unfold rebuildSensors
    simp only [Vector.getElem?_eq_getElem hi, Vector.getElem?_eq_getElem hm,
      Vector.getElem?_eq_getElem hv, Option.bind_eq_bind, Option.bind_some, hseg, htext]
    by_cases hfit : (out ++ segmentText (e.sensorAt i) ++ [bar]).length ≤ outCap
    · rw [if_neg (by omega), ih (by omega) hfit]
    · rw [if_pos (by omega), if_neg]
      simp only [List.length_append] at hfit ⊢
      omega

theorem length_sigText (e : FusionEntry c) : e.sigText.length = strnlen e.sigBase := by
  have hle : strnlen e.sigBase ≤ c.maxPrefix := by
    have := (List.takeWhile_prefix (p := (· ≠ 0)) (l := e.sigBase.toList)).length_le
    rwa [Vector.length_toList] at this
  simp [FusionEntry.sigText, hle]

theorem FusionEntry.text_eq (e : FusionEntry c) (ts : UInt64) : e.text ts =
    (e.sigText ++ decimal ts.toNat ++ [bar]) ++
      ended bar (((List.range' 0 e.sensorCount.toNat).map e.sensorAt).map segmentText) := by
  simp [FusionEntry.text, templateText, FusionEntry.sensors, List.range_eq_range']

/-- The entry has a text, and it fits the buffer. -/
def Rebuilds (e : FusionEntry c) (ts : UInt64) (cap : Nat) : Prop :=
  e.sigEmpty = false ∧ e.sensorCount ≠ 0 ∧ (e.text ts).length ≤ cap

instance (e : FusionEntry c) (ts : UInt64) (cap : Nat) : Decidable (Rebuilds e ts cap) :=
  inferInstanceAs (Decidable (_ ∧ _ ∧ _))

/-- `reconstruct_body` gives the text of the entry, if it has one and it fits. -/
theorem reconstructBody_eq {e : FusionEntry c} (hok : EntryOk e) (ts : UInt64) (outCap : Nat) :
    reconstructBody e ts outCap = some (if Rebuilds e ts outCap then e.text ts else []) := by
  have htext := e.text_eq ts
  have hhead : (e.sigText ++ decimal ts.toNat ++ [bar]).length =
      strnlen e.sigBase + (decimal ts.toNat).length + 1 := by
    simp only [List.length_append, List.length_singleton, length_sigText]
  have hlen := congrArg List.length htext
  rw [List.length_append, hhead] at hlen
  unfold reconstructBody
  by_cases h0 : e.sigEmpty = false ∧ e.sensorCount ≠ 0
  · have hfits : Rebuilds e ts outCap ↔ (e.text ts).length ≤ outCap := by
      simp only [Rebuilds, h0, true_and, ne_eq, not_false_eq_true]
    by_cases hcap : outCap = 0
    · rw [if_pos (Or.inl hcap), if_neg (by rw [hfits]; omega)]
    rw [if_neg (by simp [h0, hcap])]
    by_cases hroom : strnlen e.sigBase + (decimal ts.toNat).length + 1 ≤ outCap
    · have hrun := rebuildSensors_eq hok outCap (i := 0) (Nat.le_of_eq (Nat.zero_add _))
        (hhead ▸ hroom)
      rw [← htext] at hrun
      simp only [if_neg (by omega : ¬ strnlen e.sigBase + 1 > outCap),
        if_neg (Nat.not_lt.mpr hroom), hfits]
      exact hrun
    · have hno : ¬ Rebuilds e ts outCap := by
        rw [hfits]
        omega
      simp only [if_pos (Nat.lt_of_not_le hroom), hno, if_false, ite_self]
  · have hno : ¬ Rebuilds e ts outCap := fun h => h0 ⟨h.1, h.2.1⟩
    have hzero : outCap = 0 ∨ e.sigEmpty ∨ e.sensorCount = 0 := by
      by_cases hs : e.sigEmpty
      · exact Or.inr (Or.inl hs)
      · refine Or.inr (Or.inr ?_)
        refine Classical.byContradiction fun hc => h0 ⟨by simpa using hs, hc⟩
    rw [if_pos hzero, if_neg hno]

theorem FusionEntry.text_ne_nil (e : FusionEntry c) (ts : UInt64) : e.text ts ≠ [] := by
  simp [FusionEntry.text, templateText]

end Osfx
