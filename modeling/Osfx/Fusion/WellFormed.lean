import Osfx.Fusion.Bounds

/-!
# What received bytes can do to the table

`WellFormed` is what the copies of both sides rely on: one entry for a stream, and in
every entry in use counts that agree and texts that end within their rows. Calls keep
it whatever they are given (`table_well_formed`), as long as the limits of the build
fit the `uint8_t` fields of an entry; where one does not, a count or a length wraps.
-/

namespace Osfx

open EventSystem SlotTable Cells

variable {c : FusionSizes}

/-- An entry in use. -/
structure EntryWellFormed (e : FusionEntry c) : Prop where
  sensors_pos : 1 ≤ e.sensorCount.toNat
  sensors_le : e.sensorCount.toNat ≤ c.maxSensors
  vals_eq : e.valCount.toNat = 2 * e.sensorCount.toNat
  sig_nul : 0 ∈ e.sigBase.toList
  tag_len : ∀ (i : Nat) (h : i < c.maxSensors), i < e.sensorCount.toNat →
    1 ≤ e.tagNames[i].len.toNat ∧ e.tagNames[i].len.toNat < c.maxTagLen
  val_len : ∀ (i : Nat) (h : i < c.maxVals), e.lastVals[i].len.toNat < c.maxValLen
  tag_nul : Terminated e.tagNames
  val_nul : Terminated e.lastVals

structure WellFormed (st : FusionState c) : Prop where
  distinct : ∀ i j : Fin c.maxEntries, (st.get i).used = true → (st.get j).used = true →
    (st.get i).key = (st.get j).key → i = j
  entry : ∀ i : Fin c.maxEntries, (st.get i).used = true → EntryWellFormed (st.get i)

/-! ## Entries that hold a parse -/

/-- What an entry has from the FULL that filled it. -/
structure Filled (e : FusionEntry c) : Prop where
  sensors_pos : 1 ≤ e.sensorCount.toNat
  sig_nul : 0 ∈ e.sigBase.toList
  tags_ne : ∀ (i : Nat) (h : i < c.maxSensors), i < e.sensorCount.toNat →
    1 ≤ e.tagNames[i].len.toNat

theorem len_lt_of_terminated {n : Nat} {cell : Cell n} (h : cell.Terminated) :
    cell.len.toNat < n := by
  have hlt := (List.getElem?_eq_some_iff.mp h).1
  simpa using hlt

theorem Filled.wellFormed {e : FusionEntry c} (hf : Filled e) (hok : EntryOk e) :
    EntryWellFormed e where
  sensors_pos := hf.sensors_pos
  sensors_le := hok.sensors_le
  vals_eq := hok.vals_eq
  sig_nul := hf.sig_nul
  tag_len := fun i h hi => ⟨hf.tags_ne i h hi, len_lt_of_terminated (hok.tags i h)⟩
  val_len := fun i h => len_lt_of_terminated (hok.vals i h)
  tag_nul := hok.tags
  val_nul := hok.vals

theorem parsed_tag_ne {body : Bytes} {b : Bytes} (h : b ∈ (parsed c body).tagNames) : b ≠ [] := by
  obtain ⟨s, hs, rfl⟩ := List.mem_map.mp h
  exact (keptSensors_fits hs).tag_ne

/-- A text that is held and not empty has a length. -/
theorem len_pos_of_holds {n k : Nat} {cells : Vector (Cell n) k} {bs : List Bytes}
    (hh : Holds cells 0 bs) (hne : ∀ b ∈ bs, b ≠ []) {i : Nat} (hi : i < k)
    (hlt : i < bs.length) : 1 ≤ cells[i].len.toNat := by
  obtain ⟨hk, hb⟩ := holds_getElem hh (List.getElem?_eq_getElem hlt)
  simp only [Nat.zero_add] at hb
  have hbne := hne bs[i] (List.getElem_mem hlt)
  refine Nat.one_le_iff_ne_zero.mpr fun hz => hbne ?_
  rw [← hb, Cell.bytes, hz, List.take_zero]

theorem filled_refreshed (hc : c.FieldsFit) (e : FusionEntry c) {body : Bytes}
    (hk : keptSensors c body ≠ []) (hfit : SlotsFit c body) :
    Filled (refreshed e (parsed c body)) where
  sensors_pos := by
    have hp := parsed_fits hc hk hfit
    rw [refreshed_sensorCount hc hp]
    exact hp.sensors_pos
  sig_nul := by
    have hp := parsed_fits hc hk hfit
    have hroom : ((parsed c body).sigBase ++ [0]).length ≤ c.maxPrefix := by
      simpa using hp.sig_lt
    simp [refreshed, memcpy_toList e.sigBase hroom]
  tags_ne := by
    intro i h hi
    have hp := parsed_fits hc hk hfit
    rw [refreshed_sensorCount hc hp] at hi
    exact len_pos_of_holds (holds_storeFrom hp.tag_fits hp.tags_room)
      (fun b hb => parsed_tag_ne hb) h hi

theorem filled_applied {e : FusionEntry c} (h : Filled e) (body : Bytes) :
    Filled (applied e body) :=
  ⟨h.sensors_pos, h.sig_nul, h.tags_ne⟩

/-! ## Calls -/

/-- Every entry in use was filled by a FULL. -/
def AllFilled (st : FusionState c) : Prop :=
  ∀ i : Fin c.maxEntries, (st.get i).used = true → Filled (st.get i)

theorem allFilled_init : AllFilled (fusionStateInit c) := by
  intro i hi
  rw [fusionStateInit, get_replicate] at hi
  cases hi

theorem allFilled_set {st : FusionState c} (h : AllFilled st) {i : Fin c.maxEntries}
    {e : FusionEntry c} (he : Filled e) : AllFilled (st.set i e i.isLt) :=
  forall_set (P := fun _ (e : FusionEntry c) => e.used = true → Filled e) (fun _ => he)
    fun j _ => h j

/-- What a call does to the table: nothing, or it writes one entry that is in use and
filled afterwards. -/
inductive Touched (st : FusionState c) : FusionState c → Prop
  | nothing : Touched st st
  | entry {i : Fin c.maxEntries} {e} : e.used = true → (AllFilled st → Filled e) →
      Touched st (st.set i e i.isLt)

theorem touched_learned (hc : c.FieldsFit) (st : FusionState c) (aid : UInt32) (tid : UInt8)
    {body : Bytes} (hfit : SlotsFit c body) : Touched st (learned st aid tid body) := by
  unfold learned
  split
  · exact .nothing
  · rename_i hk
    split
    · exact .nothing
    · rename_i i hi e he
      have hu : (refreshed e (parsed c body)).used = true := (findOrAllocEntry_some he).used
      exact .entry (i := ⟨i, hi⟩) hu fun _ => filled_refreshed hc e hk hfit

theorem fusionStep_touched (hc : c.FieldsFit) {st st' : FusionState c} (hok : StateOk st)
    {op : FusionOp} (hop : op ≠ .reset) (h : fusionStep st op = some st') : Touched st st' := by
  cases op with
  | reset => exact absurd rfl hop
  | encode call out =>
    obtain ⟨r, hr, rfl⟩ := Option.map_eq_some_iff.mp h
    rcases fusionEncode_state hc hok hr with hs | ⟨i, e, he, hk, hfit, hs⟩
    · exact hs ▸ .nothing
    · have hu : (refreshed e (parsed c call.fullBody)).used = true :=
        (findOrAllocEntry_some he).used
      rw [hs]
      exact .entry hu fun _ => filled_refreshed hc e hk hfit
  | decode packet cap =>
    obtain ⟨r, hr, rfl⟩ := Option.map_eq_some_iff.mp h
    rcases fusionDecodeApply_state hc hok hr with hs | ⟨pm, -, -, hfit, hs⟩ | ⟨pm, i, -, -, hi, hs⟩
    · exact hs ▸ .nothing
    · exact hs ▸ touched_learned hc st pm.sourceAid pm.tid hfit
    · have hu : (st.get i).used = true := (lookup_some hi).1
      have hu' : (applied (st.get i) (pm.body packet)).used = true := hu
      rw [hs]
      exact .entry hu' fun hf => filled_applied (hf i hu) _

theorem Touched.allFilled {st st' : FusionState c} (h : Touched st st') (hf : AllFilled st) :
    AllFilled st' := by
  cases h with
  | nothing => exact hf
  | entry _ he => exact allFilled_set hf (he hf)

/-- A call takes no entry out of use. -/
theorem Touched.used {st st' : FusionState c} (h : Touched st st') {i : Fin c.maxEntries}
    (hu : (st.get i).used = true) : (st'.get i).used = true := by
  cases h with
  | nothing => exact hu
  | @entry j e he _ =>
    by_cases hij : j = i
    · subst hij
      rw [get_set_self]
      exact he
    · rw [get_set_ne st e hij]
      exact hu

/-! ## Runs -/

/-- The invariant of a run of encode and decode calls. -/
structure TableInv (st : FusionState c) : Prop where
  ok : StateOk st
  filled : AllFilled st

theorem TableInv.wellFormed {st : FusionState c} (h : TableInv st) : WellFormed st where
  distinct := fun i j hi hj hk => h.ok.distinct i j hi hj hk
  entry := fun i hi => (h.filled i hi).wellFormed (h.ok.entry i)

theorem tableInv_init (hc : c.FieldsFit) : TableInv (fusionStateInit c) :=
  ⟨stateOk_init hc, allFilled_init⟩

/-- Calls that are no resets have a result, keep the invariant, and take no entry out
of use. -/
theorem run_tableInv (hc : c.FieldsFit) (hsize : 2 * c.maxSensors ≤ c.maxVals)
    {ops : List FusionOp} (hops : ∀ op ∈ ops, op ≠ .reset) {st : FusionState c}
    (h : TableInv st) : ∃ st', run fusionStep st ops = some st' ∧ TableInv st' ∧
      ∀ i : Fin c.maxEntries, (st.get i).used = true → (st'.get i).used = true := by
  induction ops generalizing st with
  | nil => exact ⟨st, rfl, h, fun _ hi => hi⟩
  | cons op ops ih =>
    have hstep := (fusionStep_isSome_iff hc h.ok op).mpr (opFits_of_sizes hsize op)
    obtain ⟨next, hnext⟩ := Option.isSome_iff_exists.mp hstep
    have htouched := fusionStep_touched hc h.ok (hops op List.mem_cons_self) hnext
    have hkept : TableInv next :=
      ⟨fusionStep_stateOk hc st op next h.ok hnext, htouched.allFilled h.filled⟩
    obtain ⟨last, hlast, hinv, hused⟩ :=
      ih (fun x hx => hops x (List.mem_cons_of_mem op hx)) hkept
    refine ⟨last, ?_, hinv, fun i hi => hused i (htouched.used hi)⟩
    rw [run_cons, hnext, Option.bind_some]
    exact hlast

/-- Where the limits fit their fields and there are two slot rows for every sensor, any
sequence of encode and decode calls, on any bytes, leaves a well-formed table, and what
comes after it takes no entry out of use. -/
theorem table_well_formed (hc : c.FieldsFit) (hsize : 2 * c.maxSensors ≤ c.maxVals)
    (before after : List FusionOp) (hops : ∀ op ∈ before ++ after, op ≠ .reset) :
    ∃ st st', run fusionStep (fusionStateInit c) before = some st ∧
      run fusionStep st after = some st' ∧ WellFormed st ∧
      ∀ i : Fin c.maxEntries, (st.get i).used = true → (st'.get i).used = true := by
  rw [List.forall_mem_append] at hops
  obtain ⟨st, hst, hinv, -⟩ := run_tableInv hc hsize hops.1 (tableInv_init hc)
  obtain ⟨st', hst', -, hused⟩ := run_tableInv hc hsize hops.2 hinv
  exact ⟨st, st', hst, hst', hinv.wellFormed, hused⟩

theorem fourSensors_well_formed :
    ∃ st st', run fusionStep (fusionStateInit FusionSizes.headerDefault)
        (fourSensors.take 1) = some st ∧
      run fusionStep st [.decode [1, 2, 3] 512] = some st' ∧ WellFormed st ∧
      ∀ i : Fin FusionSizes.headerDefault.maxEntries,
        (st.get i).used = true → (st'.get i).used = true :=
  table_well_formed (FusionSizes.shipped_small (by decide)).toFieldsFit (by decide) _ _
    (by decide)

/-! ## Limits that do not fit their fields -/

/-- One stream of one body. -/
def oneBody (body : Bytes) : List FusionOp := [.encode ⟨1, 1, 0, body, 4096⟩ ⟨[], 0, 0⟩]

/-- As many sensors as make the slot count wrap. -/
def wideSizes : FusionSizes := ⟨1, 8, 256, 4, 128, 4⟩

/-- Tags whose length wraps. -/
def longTagSizes : FusionSizes := ⟨1, 8, 2, 4, 1, 257⟩

/-- Slot texts whose length wraps. -/
def longValSizes : FusionSizes := ⟨1, 8, 2, 257, 1, 4⟩

def wideBody : Bytes := ascii "A.1|" ++ (List.replicate 128 (ascii "T>m:v|")).flatten
def longTagBody : Bytes := ascii "A.1|" ++ List.replicate 256 84 ++ ascii ">m:v|"
def longValBody : Bytes := ascii "A.1|T>" ++ List.replicate 256 84 ++ ascii ":v|"

theorem not_wellFormed_of_entry {ops : List FusionOp} (i : Fin c.maxEntries)
    (bad : FusionEntry c → Bool) (hbad : ∀ e, bad e = true → ¬ EntryWellFormed e)
    (h : ((run fusionStep (fusionStateInit c) ops).any fun st =>
      (st.get i).used && bad (st.get i)) = true) :
    ∃ st, run fusionStep (fusionStateInit c) ops = some st ∧ ¬ WellFormed st := by
  cases hr : run fusionStep (fusionStateInit c) ops with
  | none =>
    rw [hr] at h
    cases h
  | some st =>
    rw [hr, Option.any_some, Bool.and_eq_true] at h
    exact ⟨st, rfl, fun hw => hbad _ h.2 (hw.entry i h.1)⟩

/-- Two slot rows for every sensor are not enough: 128 sensors have a slot count of 0, and
a tag or a slot text of 256 bytes a length of 0. -/
theorem wide_limits_not_well_formed :
    (2 * wideSizes.maxSensors ≤ wideSizes.maxVals ∧
      ∃ st, run fusionStep (fusionStateInit wideSizes) (oneBody wideBody) = some st ∧
        ¬ WellFormed st) ∧
    (2 * longTagSizes.maxSensors ≤ longTagSizes.maxVals ∧
      ∃ st, run fusionStep (fusionStateInit longTagSizes) (oneBody longTagBody) = some st ∧
        ¬ WellFormed st) ∧
    2 * longValSizes.maxSensors ≤ longValSizes.maxVals ∧
      ∃ st, run fusionStep (fusionStateInit longValSizes) (oneBody longValBody) = some st ∧
        ¬ WellFormed st := by
  refine ⟨⟨by decide, ?_⟩, ⟨by decide, ?_⟩, by decide, ?_⟩
  · refine not_wellFormed_of_entry ⟨0, by decide⟩
      (fun e => e.sensorCount == 128 && e.valCount == 0) ?_ (by decide +kernel)
    intro e hbad hw
    have hvals := hw.vals_eq
    simp only [Bool.and_eq_true, beq_iff_eq] at hbad
    rw [hbad.1, hbad.2] at hvals
    exact absurd hvals (by decide)
  · refine not_wellFormed_of_entry ⟨0, by decide⟩ (fun e => e.sensorCount == 1 &&
      (e.tagNames.get ⟨0, by decide⟩).len == 0) ?_ (by decide +kernel)
    intro e hbad hw
    simp only [Bool.and_eq_true, beq_iff_eq] at hbad
    have htag := (hw.tag_len 0 (by decide) (by rw [hbad.1]; decide)).1
    have hlen : e.tagNames[0].len = 0 := hbad.2
    rw [hlen] at htag
    exact absurd htag (by decide)
  · refine not_wellFormed_of_entry ⟨0, by decide⟩ (fun e =>
      (e.lastVals.get ⟨0, by decide⟩).len == 0 &&
      (e.lastVals.get ⟨0, by decide⟩).row.toList.head? == some 84) ?_ (by decide +kernel)
    intro e hbad hw
    simp only [Bool.and_eq_true, beq_iff_eq] at hbad
    have hnul := hw.val_nul 0 (by decide)
    have hlen : e.lastVals[0].len = 0 := hbad.1
    have hhead : e.lastVals[0].row.toList.head? = some 84 := hbad.2
    rw [Cell.Terminated, hlen, UInt8.toNat_zero, ← List.head?_eq_getElem?, hhead] at hnul
    exact absurd hnul (by decide)

end Osfx
