import Osfx.Fusion.Entry

/-!
# Calls on the fusion table

`StateOk` is the invariant of the table: one entry for a stream, every entry
`EntryOk`. For a table that has it, `fusionEncode_eq` and the `fusionDecodeApply`
lemmas give the result of a call in terms of what the body holds and of the one
entry it concerns; `Reachable` states all have it.
-/

namespace Osfx

open Numeral SlotTable Text Cells

variable {c : FusionSizes}

structure StateOk (st : FusionState c) : Prop where
  distinct : Distinct FusionEntry.used FusionEntry.key st
  entry : ∀ i : Fin c.maxEntries, EntryOk (st.get i)

theorem stateOk_init (hc : c.FieldsFit) : StateOk (fusionStateInit c) where
  distinct := distinct_replicate rfl
  entry := by
    intro i
    have hz : (fusionStateInit c).get i = FusionEntry.zero c := get_replicate _ i
    rw [hz]
    exact entryOk_zero hc

theorem findEntry_init (aid : UInt32) (tid : UInt8) :
    findEntry (fusionStateInit c) aid tid = none := by
  rw [findEntry, lookup_none]
  intro i hi
  rw [fusionStateInit, get_replicate] at hi
  cases hi

/-! ## The entry of a stream -/

/-- The entry `alloc_entry` puts in a free slot. -/
def freshEntry (c : FusionSizes) (aid : UInt32) (tid : UInt8) : FusionEntry c :=
  { FusionEntry.zero c with used := true, sourceAid := aid, tid := tid }

theorem entryOk_fresh (hc : c.FieldsFit) (aid : UInt32) (tid : UInt8) :
    EntryOk (freshEntry c aid tid) :=
  let ⟨h1, h2, h3, h4, h5⟩ := entryOk_zero hc
  ⟨h1, h2, h3, h4, h5⟩

theorem sigEmpty_fresh (aid : UInt32) (tid : UInt8) : (freshEntry c aid tid).sigEmpty = true := by
  simp only [FusionEntry.sigEmpty, freshEntry, FusionEntry.zero, Vector.toList_replicate]
  cases c.maxPrefix <;> rfl

/-- A fresh entry has no structure yet. -/
theorem not_sameStructure_fresh (aid : UInt32) (tid : UInt8) (p : Parsed) :
    ¬ SameStructure (freshEntry c aid tid) p := by
  intro h
  have hne := h.sig_ne
  rw [sigEmpty_fresh] at hne
  cases hne

/-- The entry of a stream is the cached one, or a fresh one for a free slot. -/
inductive EntryOf (st : FusionState c) (aid : UInt32) (tid : UInt8) :
    Fin c.maxEntries → FusionEntry c → Prop
  | cached {i} : findEntry st aid tid = some i → EntryOf st aid tid i (st.get i)
  | fresh {i} : findEntry st aid tid = none → (st.get i).used = false →
      EntryOf st aid tid i (freshEntry c aid tid)

theorem findOrAllocEntry_some {st : FusionState c} {aid : UInt32} {tid : UInt8}
    {i : Fin c.maxEntries} {e : FusionEntry c}
    (h : findOrAllocEntry st aid tid = some (i, e)) : EntryOf st aid tid i e := by
  unfold findOrAllocEntry at h
  cases hf : findEntry st aid tid with
  | some j =>
    simp only [hf, Option.some.injEq, Prod.mk.injEq] at h
    obtain ⟨rfl, rfl⟩ := h
    exact .cached hf
  | none =>
    simp only [hf, allocEntry, Option.map_eq_some_iff, Prod.mk.injEq] at h
    obtain ⟨j, hv, rfl, rfl⟩ := h
    exact .fresh hf (vacant_some hv)

namespace EntryOf

variable {st : FusionState c} {aid : UInt32} {tid : UInt8} {i : Fin c.maxEntries}
  {e : FusionEntry c}

theorem used (h : EntryOf st aid tid i e) : e.used = true := by
  cases h with
  | cached hf => exact (lookup_some hf).1
  | fresh _ _ => rfl

theorem key (h : EntryOf st aid tid i e) : e.key = (aid, tid) := by
  cases h with
  | cached hf => exact (lookup_some hf).2
  | fresh _ _ => rfl

theorem entryOk (hc : c.FieldsFit) (hok : StateOk st) (h : EntryOf st aid tid i e) : EntryOk e := by
  cases h with
  | cached _ => exact hok.entry i
  | fresh _ _ => exact entryOk_fresh hc aid tid

/-- The entry written back under its key keeps the table in order. -/
theorem stateOk_set (hok : StateOk st) (h : EntryOf st aid tid i e) {e' : FusionEntry c}
    (hkey : e'.key = (aid, tid)) (he : EntryOk e') : StateOk (st.set i e' i.isLt) where
  distinct := by
    cases h with
    | cached hf =>
      obtain ⟨hu, hk⟩ := lookup_some hf
      exact distinct_set_same hok.distinct hu (hkey.trans hk.symm)
    | fresh hf _ =>
      rw [findEntry, ← hkey] at hf
      exact distinct_set_fresh hok.distinct hf
  entry := forall_set (P := fun _ e => EntryOk e) he fun j _ => hok.entry j

/-- The entry written back is found again. -/
theorem findEntry_set (hok : StateOk st) (h : EntryOf st aid tid i e) {e' : FusionEntry c}
    (hused : e'.used = true) (hkey : e'.key = (aid, tid)) (he : EntryOk e') :
    findEntry (st.set i e' i.isLt) aid tid = some i := by
  have hd := (h.stateOk_set hok hkey he).distinct
  rw [findEntry, lookup_eq_some hd, get_set_self]
  exact ⟨hused, hkey⟩

/-- Writing an entry back changes the table exactly if it is not the cached one. -/
theorem set_eq_self (h : EntryOf st aid tid i e) {e' : FusionEntry c} (hused : e'.used = true) :
    st.set i e' i.isLt = st ↔ findEntry st aid tid = some i ∧ e' = e := by
  constructor
  · intro hs
    have hi : st.get i = e' := by
      rw [← get_set_self st i e', hs]
    cases h with
    | cached hf => exact ⟨hf, hi.symm⟩
    | fresh _ hu => rw [hi, hused] at hu; cases hu
  · rintro ⟨hf, rfl⟩
    cases h with
    | cached _ => exact set_get_self _ _
    | fresh hn _ => rw [hn] at hf; cases hf

end EntryOf

/-! ## osfx_fusion_encode -/

theorem fusionEncode_overflow {st : FusionState c} {call : FusionCall} (out : EncodeOut)
    (hne : call.fullBody ≠ []) (h : ¬ SlotsFit c call.fullBody) :
    fusionEncode st call out = none := by
  rw [fusionEncode, if_neg hne, parseBodySlots_eq, if_neg h]
  rfl

/-- An encode call that stays inside its arrays has room for the slots of its body. -/
theorem slotsFit_of_encode {st : FusionState c} {call : FusionCall} {out : EncodeOut}
    {r : EncodeResult c} (hne : call.fullBody ≠ []) (h : fusionEncode st call out = some r) :
    SlotsFit c call.fullBody := by
  refine Classical.byContradiction fun hover => ?_
  rw [fusionEncode_overflow out hne hover] at h
  cases h

/-- A body without a sensor goes out as FULL and is not cached. -/
theorem fusionEncode_uncached (st : FusionState c) {call : FusionCall} (out : EncodeOut)
    (hne : call.fullBody ≠ []) (h : keptSensors c call.fullBody = []) :
    fusionEncode st call out = some (sendFrame st call Cmd.dataFull call.fullBody out) := by
  rw [fusionEncode, if_neg hne, parseBodySlots_eq, if_pos (by simp [SlotsFit, h])]
  simp [h]

theorem fusionEncode_noEntry {st : FusionState c} {call : FusionCall} (out : EncodeOut)
    (hfit : SlotsFit c call.fullBody) (h : keptSensors c call.fullBody ≠ [])
    (hno : findOrAllocEntry st call.sourceAid call.tid = none) :
    fusionEncode st call out = some ⟨false, st, out⟩ := by
  unfold fusionEncode
  split
  · rfl
  · rw [parseBodySlots_eq, if_pos hfit]
    simp [h, hno]

theorem fusionEncode_cached (hc : c.FieldsFit) {st : FusionState c} (hok : StateOk st)
    {call : FusionCall} (out : EncodeOut) (hne : call.fullBody ≠ [])
    (hfit : SlotsFit c call.fullBody) (h : keptSensors c call.fullBody ≠ [])
    {i : Fin c.maxEntries} {e : FusionEntry c}
    (he : findOrAllocEntry st call.sourceAid call.tid = some (i, e)) :
    fusionEncode st call out = some (sendFrame
      (st.set i (refreshed e (parsed c call.fullBody)) i.isLt) call
      (chosenCmd e (parsed c call.fullBody))
      (chosenBody e (parsed c call.fullBody) call.fullBody) out) := by
  have hentry := (findOrAllocEntry_some he).entryOk hc hok
  have henc := encodeEntry_eq hc hentry (parsed_fits hc h hfit) call.fullBody
  rw [fusionEncode, if_neg hne, parseBodySlots_eq, if_pos hfit]
  simp [h, he, henc]

/-- What an encode call can do: refuse an empty body, send a body without a sensor
uncached, find no entry for its stream, or refresh the entry and send what is chosen. -/
inductive Encoded (st : FusionState c) (call : FusionCall) (out : EncodeOut) :
    EncodeResult c → Prop
  | empty : call.fullBody = [] → Encoded st call out ⟨false, st, out⟩
  | uncached : keptSensors c call.fullBody = [] →
      Encoded st call out (sendFrame st call Cmd.dataFull call.fullBody out)
  | noEntry : findOrAllocEntry st call.sourceAid call.tid = none →
      Encoded st call out ⟨false, st, out⟩
  | cached {i e} : keptSensors c call.fullBody ≠ [] → SlotsFit c call.fullBody →
      findOrAllocEntry st call.sourceAid call.tid = some (i, e) →
      Encoded st call out (sendFrame (st.set i (refreshed e (parsed c call.fullBody)) i.isLt) call
        (chosenCmd e (parsed c call.fullBody))
        (chosenBody e (parsed c call.fullBody) call.fullBody) out)

theorem fusionEncode_encoded (hc : c.FieldsFit) {st : FusionState c} (hok : StateOk st)
    {call : FusionCall} {out : EncodeOut} {r : EncodeResult c}
    (h : fusionEncode st call out = some r) : Encoded st call out r := by
  by_cases hne : call.fullBody = []
  · rw [fusionEncode, if_pos hne] at h
    cases h
    exact .empty hne
  have hfit := slotsFit_of_encode hne h
  by_cases hk : keptSensors c call.fullBody = []
  · rw [fusionEncode_uncached _ out hne hk] at h
    cases h
    exact .uncached hk
  · cases he : findOrAllocEntry st call.sourceAid call.tid with
    | none =>
      rw [fusionEncode_noEntry out hfit hk he] at h
      cases h
      exact .noEntry he
    | some ie =>
      obtain ⟨i, e⟩ := ie
      rw [fusionEncode_cached hc hok out hne hfit hk he] at h
      cases h
      exact .cached hk hfit he

@[simp] theorem sendFrame_state (st : FusionState c) (call : FusionCall) (cmd : UInt8)
    (body : Bytes) (out : EncodeOut) : (sendFrame st call cmd body out).state = st := by
  simp only [sendFrame]
  split <;> rfl

/-- The first success on a stream is a FULL with the whole body, in any state and whatever
the parse of the body. -/
theorem fusionEncode_newStream {st : FusionState c} {call : FusionCall} {out : EncodeOut}
    {r : EncodeResult c} (hnew : findEntry st call.sourceAid call.tid = none)
    (hr : fusionEncode st call out = some r) (hret : r.ret = true) :
    ∃ st', r = sendFrame st' call Cmd.dataFull call.fullBody out := by
  unfold fusionEncode at hr
  split at hr
  · cases hr
    cases hret
  obtain ⟨p, -, hr⟩ := Option.bind_eq_some_iff.mp hr
  split at hr
  · cases hr
    exact ⟨st, rfl⟩
  cases he : findOrAllocEntry st call.sourceAid call.tid with
  | none =>
    rw [he] at hr
    cases hr
    cases hret
  | some ie =>
    obtain ⟨i, e⟩ := ie
    simp only [he] at hr
    obtain ⟨⟨e', cmd, body⟩, hencode, hr⟩ := Option.bind_eq_some_iff.mp hr
    cases findOrAllocEntry_some he with
    | cached hi =>
      rw [hnew] at hi
      cases hi
    | fresh _ _ =>
      have hchanged : structChanged (freshEntry c call.sourceAid call.tid) p = some true :=
        if_pos (Or.inl (sigEmpty_fresh _ _))
      simp only [encodeEntry, hchanged, Option.bind_eq_bind, Option.bind_some, if_true] at hencode
      obtain ⟨e'', -, hencode⟩ := Option.bind_eq_some_iff.mp hencode
      cases hencode
      cases hr
      exact ⟨_, rfl⟩

/-! ## osfx_fusion_decode_apply -/

/-- The table after a FULL with this body. -/
def learned (st : FusionState c) (aid : UInt32) (tid : UInt8) (body : Bytes) : FusionState c :=
  if keptSensors c body = [] then st
  else
    match findOrAllocEntry st aid tid with
    | none => st
    | some (⟨i, hi⟩, e) => st.set i (refreshed e (parsed c body)) hi

theorem learnFull_eq (hc : c.FieldsFit) (st : FusionState c) (pm : PacketMeta) {body : Bytes}
    (hfit : SlotsFit c body) :
    learnFull st pm (parsed c body) = some (learned st pm.sourceAid pm.tid body) := by
  unfold learnFull learned
  by_cases hk : keptSensors c body = []
  · simp [hk]
  · have hpos : (parsed c body).sensorCount > 0 := by
      simpa using List.length_pos_iff.mpr hk
    rw [if_pos hpos, if_neg hk]
    cases findOrAllocEntry st pm.sourceAid pm.tid with
    | none => rfl
    | some ie =>
      obtain ⟨i, e⟩ := ie
      simp only [refreshEntry_eq e (parsed_fits hc hk hfit), Option.map_some]

theorem fusionDecodeApply_full (hc : c.FieldsFit) {st : FusionState c} {packet : Bytes} (cap : Nat)
    {pm : PacketMeta} (hm : packetDecodeMeta packet = some pm) (hcmd : pm.cmd = Cmd.dataFull) :
    fusionDecodeApply st packet cap =
      if SlotsFit c (pm.body packet) then
        some ⟨learned st pm.sourceAid pm.tid (pm.body packet),
          if cap < (pm.body packet).length then none else some (pm.body packet, pm)⟩
      else none := by
  unfold fusionDecodeApply
  simp only [hm, hcmd, if_true]
  rw [parseBodySlots_eq]
  by_cases hfit : SlotsFit c (pm.body packet)
  · have hlearn := learnFull_eq hc st pm hfit
    rw [if_pos hfit, if_pos hfit]
    simp [hlearn]
  · rw [if_neg hfit, if_neg hfit]
    rfl

/-- The fields a DIFF body has for an entry, and whether it is well formed. -/
def diffRead (e : FusionEntry c) (body : Bytes) : List (Nat × Bytes) × Bool :=
  let maskLen := (e.valCount.toNat + 7) / 8
  if e.valCount = 0 ∨ body.length < maskLen then ([], false)
  else
    let mask := beNat (body.take maskLen) % 2 ^ 32
    diffFields c.maxValLen mask e.valCount.toNat 0 (body.drop maskLen)

/-- The entry after a DIFF with this body. -/
def applied (e : FusionEntry c) (body : Bytes) : FusionEntry c :=
  { e with lastVals := storeFields e.lastVals (diffRead e body).1 }

theorem entryOk_applied (hc : c.FieldsFit) {e : FusionEntry c} (hok : EntryOk e) (body : Bytes) :
    EntryOk (applied e body) where
  sensors_le := hok.sensors_le
  vals_eq := hok.vals_eq
  vals_le := hok.vals_le
  tags := hok.tags
  vals := by
    refine terminated_storeFields (fun f hf => ?_) hok.vals
    simp only [diffRead] at hf
    split at hf
    · cases hf
    · exact (diffFields_fits hc.valLen_le f hf).2.2

/-- A DIFF leaves the entry as it is exactly if its fields are cached. -/
theorem applied_eq_self (hc : c.FieldsFit) {e : FusionEntry c} (hok : EntryOk e) (body : Bytes) :
    applied e body = e ↔ ∀ f ∈ (diffRead e body).1, FieldCached e.lastVals f := by
  have hvals : applied e body = e ↔ storeFields e.lastVals (diffRead e body).1 = e.lastVals := by
    constructor
    · exact fun h => congrArg FusionEntry.lastVals h
    · exact fun h => FusionEntry.ext rfl rfl rfl rfl rfl rfl rfl h
  rw [hvals]
  simp only [diffRead]
  split
  · simp [storeFields]
  · exact storeFields_diffFields_eq_self hc.valLen_le (by simpa using hok.vals_le) hok.vals

theorem deliverEntry_eq (st : FusionState c) {e : FusionEntry c} (hok : EntryOk e)
    (pm : PacketMeta) (cap : Nat) : deliverEntry st e pm cap = some
      ⟨st, if Rebuilds e pm.timestampRaw cap then some (e.text pm.timestampRaw, pm) else none⟩ := by
  have hrun := reconstructBody_eq hok pm.timestampRaw cap
  rw [deliverEntry, hrun]
  by_cases h : Rebuilds e pm.timestampRaw cap
  · simp [h, FusionEntry.text_ne_nil]
  · simp [h]

/-- An empty body is shorter than any mask, so the check for it changes nothing. -/
theorem diffStops_iff (valCount : UInt8) (body : Bytes) :
    (valCount = 0 ∨ body = [] ∨ body.length < (valCount.toNat + 7) / 8) ↔
      (valCount = 0 ∨ body.length < (valCount.toNat + 7) / 8) := by
  constructor
  · rintro (h | rfl | h)
    · exact Or.inl h
    · by_cases hz : valCount = 0
      · exact Or.inl hz
      · have hpos : valCount.toNat ≠ 0 := fun h0 => hz (UInt8.toNat_inj.mp h0)
        refine Or.inr ?_
        rw [List.length_nil]
        omega
    · exact Or.inr h
  · rintro (h | h)
    · exact Or.inl h
    · exact Or.inr (Or.inr h)

theorem decodeDiff_eq (hc : c.FieldsFit) {st : FusionState c} {i : Fin c.maxEntries}
    (hok : EntryOk (st.get i)) (pm : PacketMeta) (body : Bytes) (cap : Nat) :
    decodeDiff st i pm body cap =
      let e := applied (st.get i) body
      some ⟨st.set i e i.isLt,
        if (diffRead (st.get i) body).2 = true ∧ Rebuilds e pm.timestampRaw cap then
          some (e.text pm.timestampRaw, pm) else none⟩ := by
  have hdeliver := deliverEntry_eq (st.set i (applied (st.get i) body) i.isLt)
    (entryOk_applied hc hok body) pm cap
  have hstops := diffStops_iff (st.get i).valCount body
  unfold decodeDiff
  by_cases hz : (st.get i).valCount = 0 ∨ body.length < ((st.get i).valCount.toNat + 7) / 8
  · have hread : diffRead (st.get i) body = ([], false) := by
      simp only [diffRead, if_pos hz]
    have hsame : applied (st.get i) body = st.get i := by
      simp only [applied, hread, storeFields]
    simp only [if_pos (hstops.mpr hz), hread, hsame, set_get_self, Bool.false_eq_true, false_and,
      if_false]
  · have hread : diffRead (st.get i) body = diffFields c.maxValLen
        (beNat (body.take (((st.get i).valCount.toNat + 7) / 8)) % 2 ^ 32)
        (st.get i).valCount.toNat 0
        (body.drop (((st.get i).valCount.toNat + 7) / 8)) := by
      rw [diffRead]
      exact if_neg hz
    have hslots := applySlots_eq
      (beNat (body.take (((st.get i).valCount.toNat + 7) / 8)) % 2 ^ 32)
      (body.drop (((st.get i).valCount.toNat + 7) / 8)) (st.get i).lastVals
      (by simpa using hok.vals_le : 0 + (st.get i).valCount.toNat ≤ c.maxVals)
    rw [← hread] at hslots
    simp only [if_neg (mt hstops.mp hz), hslots, Option.bind_eq_bind, Option.bind_some]
    by_cases hwell : (diffRead (st.get i) body).2 = true
    · simp only [hwell, if_true, true_and]
      exact hdeliver
    · simp [hwell, applied]

theorem decodeHeart_eq {st : FusionState c} {i : Fin c.maxEntries} (hok : EntryOk (st.get i))
    (pm : PacketMeta) (cap : Nat) : decodeHeart st i pm cap = some
      ⟨st, if Rebuilds (st.get i) pm.timestampRaw cap then
        some ((st.get i).text pm.timestampRaw, pm) else none⟩ := by
  unfold decodeHeart
  split
  · rename_i hz
    have hcount : (st.get i).sensorCount = 0 := by
      have := hok.vals_eq
      rw [hz] at this
      rw [← UInt8.toNat_inj]
      simp only [UInt8.toNat_zero] at this ⊢
      omega
    have hno : ¬ Rebuilds (st.get i) pm.timestampRaw cap := fun h => h.2.1 hcount
    rw [if_neg hno]
  · exact deliverEntry_eq st hok pm cap

theorem fusionDecodeApply_refused {st : FusionState c} {packet : Bytes} (cap : Nat)
    {pm : PacketMeta} (hm : packetDecodeMeta packet = some pm) (hcmd : pm.cmd ≠ Cmd.dataFull)
    (h : findEntry st pm.sourceAid pm.tid = none ∨
      pm.cmd ≠ Cmd.dataDiff ∧ pm.cmd ≠ Cmd.dataHeart) :
    fusionDecodeApply st packet cap = some ⟨st, none⟩ := by
  unfold fusionDecodeApply
  simp only [hm, if_neg hcmd]
  split
  · rfl
  · rename_i i hi
    rcases h with h | ⟨hd, hh⟩
    · rw [hi] at h
      cases h
    · rw [if_neg hd, if_neg hh]

theorem fusionDecodeApply_diff {st : FusionState c} {packet : Bytes} (cap : Nat)
    {pm : PacketMeta} (hm : packetDecodeMeta packet = some pm) (hcmd : pm.cmd = Cmd.dataDiff)
    {i : Fin c.maxEntries} (hi : findEntry st pm.sourceAid pm.tid = some i) :
    fusionDecodeApply st packet cap = decodeDiff st i pm (pm.body packet) cap := by
  unfold fusionDecodeApply
  have hnot : ¬ Cmd.dataDiff = Cmd.dataFull := by decide
  simp only [hm, hcmd, if_neg hnot, hi, if_true]

theorem fusionDecodeApply_heart {st : FusionState c} {packet : Bytes} (cap : Nat)
    {pm : PacketMeta} (hm : packetDecodeMeta packet = some pm) (hcmd : pm.cmd = Cmd.dataHeart)
    {i : Fin c.maxEntries} (hi : findEntry st pm.sourceAid pm.tid = some i) :
    fusionDecodeApply st packet cap = decodeHeart st i pm cap := by
  unfold fusionDecodeApply
  have hfull : ¬ Cmd.dataHeart = Cmd.dataFull := by decide
  have hdiff : ¬ Cmd.dataHeart = Cmd.dataDiff := by decide
  simp only [hm, hcmd, if_neg hfull, hi, if_neg hdiff, if_true]

/-- What a call on a received packet can do: reject bytes that are no packet, learn the
body of a FULL, apply a DIFF or rebuild a HEART of a stream that is cached, or refuse
a packet of another stream or command. -/
inductive Decoded (st : FusionState c) (packet : Bytes) (cap : Nat) : DecodeResult c → Prop
  | unread : packetDecodeMeta packet = none → Decoded st packet cap ⟨st, none⟩
  | full {pm} : packetDecodeMeta packet = some pm → pm.cmd = Cmd.dataFull →
      SlotsFit c (pm.body packet) →
      Decoded st packet cap ⟨learned st pm.sourceAid pm.tid (pm.body packet),
        if cap < (pm.body packet).length then none else some (pm.body packet, pm)⟩
  | diff {pm i} : packetDecodeMeta packet = some pm → pm.cmd = Cmd.dataDiff →
      findEntry st pm.sourceAid pm.tid = some i →
      Decoded st packet cap ⟨st.set i (applied (st.get i) (pm.body packet)) i.isLt,
        if (diffRead (st.get i) (pm.body packet)).2 = true ∧
            Rebuilds (applied (st.get i) (pm.body packet)) pm.timestampRaw cap then
          some ((applied (st.get i) (pm.body packet)).text pm.timestampRaw, pm) else none⟩
  | heart {pm i} : packetDecodeMeta packet = some pm → pm.cmd = Cmd.dataHeart →
      findEntry st pm.sourceAid pm.tid = some i →
      Decoded st packet cap ⟨st, if Rebuilds (st.get i) pm.timestampRaw cap then
        some ((st.get i).text pm.timestampRaw, pm) else none⟩
  | refused {pm} : packetDecodeMeta packet = some pm → pm.cmd ≠ Cmd.dataFull →
      findEntry st pm.sourceAid pm.tid = none ∨
        pm.cmd ≠ Cmd.dataDiff ∧ pm.cmd ≠ Cmd.dataHeart →
      Decoded st packet cap ⟨st, none⟩

theorem fusionDecodeApply_decoded (hc : c.FieldsFit) {st : FusionState c} (hok : StateOk st)
    {packet : Bytes} {cap : Nat} {r : DecodeResult c}
    (h : fusionDecodeApply st packet cap = some r) : Decoded st packet cap r := by
  cases hm : packetDecodeMeta packet with
  | none =>
    simp only [fusionDecodeApply, hm] at h
    cases h
    exact .unread hm
  | some pm =>
    by_cases hfull : pm.cmd = Cmd.dataFull
    · rw [fusionDecodeApply_full hc cap hm hfull] at h
      split at h
      · rename_i hfit
        cases h
        exact .full hm hfull hfit
      · cases h
    · cases hi : findEntry st pm.sourceAid pm.tid with
      | none =>
        rw [fusionDecodeApply_refused cap hm hfull (Or.inl hi)] at h
        cases h
        exact .refused hm hfull (Or.inl hi)
      | some i =>
        by_cases hdiff : pm.cmd = Cmd.dataDiff
        · rw [fusionDecodeApply_diff cap hm hdiff hi, decodeDiff_eq hc (hok.entry i)] at h
          cases h
          exact .diff hm hdiff hi
        · by_cases hheart : pm.cmd = Cmd.dataHeart
          · rw [fusionDecodeApply_heart cap hm hheart hi, decodeHeart_eq (hok.entry i)] at h
            cases h
            exact .heart hm hheart hi
          · rw [fusionDecodeApply_refused cap hm hfull (Or.inr ⟨hdiff, hheart⟩)] at h
            cases h
            exact .refused hm hfull (Or.inr ⟨hdiff, hheart⟩)

end Osfx
