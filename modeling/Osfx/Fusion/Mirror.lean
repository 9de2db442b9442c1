import Osfx.Fusion.Redelivery
import Osfx.Fusion.Streams
import Osfx.Fusion.Lockstep

/-!
# One stream at the receiver

`streamDecode` is a receiver for one stream: what it keeps is the cached entry. Once a
stream is cached the table behaves as one such receiver for it, whatever arrives of the
others (`decodeStep_watched`).

Two entries agree if they hold the same structure and the same texts; what lies behind
the texts in their cells may differ, and does where the two have had different pasts.
Packets are answered by agreeing entries alike, and leave them in agreement
(`Agree.streamDecode`); a FULL brings any two entries into agreement (`agree_refreshed`).
-/

namespace Osfx

open SlotTable Text Cells Streams

variable {c : FusionSizes}

/-! ## Entries that agree -/

/-- The two entries hold the same structure and the same texts. -/
structure Agree (e e' : FusionEntry c) : Prop where
  sensors : e'.sensorCount = e.sensorCount
  vals : e'.valCount = e.valCount
  sig : e'.sigText = e.sigText
  tags : ∀ i < e.sensorCount.toNat, cellText e'.tagNames i = cellText e.tagNames i
  texts : ∀ i < e.valCount.toNat, cellText e'.lastVals i = cellText e.lastVals i

theorem sigText_eq (e : FusionEntry c) : e.sigText = e.sigBase.toList.takeWhile (· ≠ 0) :=
  (List.prefix_iff_eq_take.mp (List.takeWhile_prefix _)).symm

theorem sigEmpty_iff (e : FusionEntry c) : e.sigEmpty = true ↔ e.sigText = [] := by
  rw [sigText_eq, FusionEntry.sigEmpty]
  cases e.sigBase.toList with
  | nil => simp
  | cons x xs => by_cases hx : x = 0 <;> simp [hx]

namespace Agree

variable {e e' : FusionEntry c} (h : Agree e e')
include h

theorem text (hok : EntryOk e) (ts : UInt64) : e'.text ts = e.text ts := by
  have hsensors : e'.sensors = e.sensors := by
    rw [FusionEntry.sensors, FusionEntry.sensors, h.sensors]
    apply List.map_congr_left
    intro i hi
    have hcount := hok.vals_eq
    have hlt := List.mem_range.mp hi
    simp only [FusionEntry.sensorAt, h.tags i hlt, h.texts (i * 2) (by omega),
      h.texts (i * 2 + 1) (by omega)]
  rw [FusionEntry.text, FusionEntry.text, h.sig, hsensors]

theorem rebuilds (hok : EntryOk e) (ts : UInt64) (cap : Nat) :
    Rebuilds e' ts cap ↔ Rebuilds e ts cap := by
  have hempty : e'.sigEmpty = false ↔ e.sigEmpty = false := by
    rw [← Bool.not_eq_true, ← Bool.not_eq_true, sigEmpty_iff, sigEmpty_iff, h.sig]
  rw [Rebuilds, Rebuilds, hempty, h.sensors, h.text hok]

theorem diffRead (body : Bytes) : diffRead e' body = diffRead e body := by
  rw [Osfx.diffRead, Osfx.diffRead, h.vals]

end Agree

theorem cellText_set {m k : Nat} (cells : Vector (Cell m) k) {j : Nat} {b : Bytes} (hj : j < k)
    (hfit : Fits m b) (i : Nat) :
    cellText (cells.set j (cells[j].store b)) i = if i = j then b else cellText cells i := by
  by_cases h : i = j
  · subst h
    simp [cellText, hj, Cell.bytes_store hfit.1 hfit.2]
  · simp [cellText, h, Ne.symm h]

/-- Stored in cells with the same texts, the same fields leave the same texts. -/
theorem cellText_storeFields {m k n : Nat} {fields : List (Nat × Bytes)}
    {cells cells' : Vector (Cell m) k} (hfit : ∀ f ∈ fields, f.1 < k ∧ Fits m f.2)
    (h : ∀ i < n, cellText cells' i = cellText cells i) :
    ∀ i < n, cellText (storeFields cells' fields) i = cellText (storeFields cells fields) i := by
  induction fields generalizing cells cells' with
  | nil => exact h
  | cons f fields ih =>
    obtain ⟨j, b⟩ := f
    rw [List.forall_mem_cons] at hfit
    obtain ⟨⟨hj, hb⟩, hrest⟩ := hfit
    rw [storeFields, storeFields, dif_pos hj, dif_pos hj]
    apply ih hrest
    intro i hi
    rw [cellText_set cells' hj hb, cellText_set cells hj hb, h i hi]

theorem Agree.applied (hc : c.FieldsFit) {e e' : FusionEntry c} (h : Agree e e') (hok : EntryOk e)
    (body : Bytes) : Agree (applied e body) (applied e' body) where
  sensors := h.sensors
  vals := h.vals
  sig := h.sig
  tags := h.tags
  texts := by
    have hle := hok.vals_le
    rw [Osfx.applied, Osfx.applied, h.diffRead]
    apply cellText_storeFields _ h.texts
    intro f hf
    simp only [Osfx.diffRead] at hf
    split at hf
    · cases hf
    · obtain ⟨-, hlt, hfit⟩ := diffFields_fits hc.valLen_le f hf
      exact ⟨by omega, hfit⟩

theorem takeWhile_terminated (s rest : Bytes) :
    (s ++ 0 :: rest).takeWhile (· ≠ 0) = s.takeWhile (· ≠ 0) := by
  induction s with
  | nil => simp
  | cons x s ih =>
    rw [List.cons_append, List.takeWhile_cons, List.takeWhile_cons, ih]

theorem cellText_held {m k : Nat} {cells cells' : Vector (Cell m) k} {bs : List Bytes}
    (h : Holds cells 0 bs) (h' : Holds cells' 0 bs) :
    ∀ i < bs.length, cellText cells' i = cellText cells i := by
  intro i hi
  have hb := List.getElem?_eq_getElem hi
  have htext := cellText_eq h hb
  have htext' := cellText_eq h' hb
  rw [Nat.zero_add] at htext htext'
  rw [htext, htext']

/-- A FULL leaves all entries in agreement. -/
theorem agree_refreshed (hc : c.FieldsFit) (e e' : FusionEntry c) {p : Parsed}
    (hp : ParsedFits c p) : Agree (refreshed e p) (refreshed e' p) where
  sensors := rfl
  vals := rfl
  sig := by
    have hsig : ∀ e : FusionEntry c, (refreshed e p).sigText = p.sigBase.takeWhile (· ≠ 0) := by
      intro e
      have hlen : (p.sigBase ++ [(0 : UInt8)]).length ≤ c.maxPrefix := by simpa using hp.sig_lt
      rw [sigText_eq]
      simp only [refreshed, memcpy_toList e.sigBase hlen, List.append_assoc, List.singleton_append]
      exact takeWhile_terminated _ _
    rw [hsig, hsig]
  tags := by
    intro i hi
    rw [refreshed_sensorCount hc hp] at hi
    exact cellText_held (caches_refreshed hc e hp).tags (caches_refreshed hc e' hp).tags i hi
  texts := by
    intro i hi
    rw [refreshed_valCount hc hp, ← hp.slots_eq] at hi
    exact cellText_held (caches_refreshed hc e hp).slots (caches_refreshed hc e' hp).slots i hi

/-! ## The receiver of one stream -/

/-- The stream of a packet; bytes that are no packet have none. -/
def packetStream (packet : Bytes) : Option (UInt32 × UInt8) :=
  (packetDecodeMeta packet).map fun pm => (pm.sourceAid, pm.tid)

/-- The text of an entry, if it has one and it fits the buffer. -/
def rebuilt (e : FusionEntry c) (pm : PacketMeta) (outBodyCap : Nat) : DecodeAnswer :=
  if Rebuilds e pm.timestampRaw outBodyCap then some (e.text pm.timestampRaw, pm) else none

def streamDecode (e : FusionEntry c) (x : Arrival) : FusionEntry c × DecodeAnswer :=
  match packetDecodeMeta x.packet with
  | none => (e, none)
  | some pm =>
    let body := pm.body x.packet
    if pm.cmd = Cmd.dataFull then
      (if keptSensors c body = [] then e else refreshed e (parsed c body),
        if x.outBodyCap < body.length then none else some (body, pm))
    else if pm.cmd = Cmd.dataDiff then
      (applied e body,
        if (diffRead e body).2 then rebuilt (applied e body) pm x.outBodyCap else none)
    else if pm.cmd = Cmd.dataHeart then (e, rebuilt e pm x.outBodyCap)
    else (e, none)

theorem Agree.rebuilt {e e' : FusionEntry c} (h : Agree e e') (hok : EntryOk e) (pm : PacketMeta)
    (cap : Nat) : rebuilt e' pm cap = rebuilt e pm cap := by
  simp only [Osfx.rebuilt, h.rebuilds hok, h.text hok]

/-- The body of a FULL stays within the arrays. -/
def FullFits (c : FusionSizes) (packet : Bytes) : Prop :=
  ∀ pm, packetDecodeMeta packet = some pm → pm.cmd = Cmd.dataFull → SlotsFit c (pm.body packet)

theorem Agree.streamDecode (hc : c.FieldsFit) {e e' : FusionEntry c} (h : Agree e e')
    (hok : EntryOk e) {x : Arrival} (hfit : FullFits c x.packet) :
    Agree (streamDecode e x).1 (streamDecode e' x).1 ∧
      (streamDecode e' x).2 = (streamDecode e x).2 := by
  unfold Osfx.streamDecode
  cases hm : packetDecodeMeta x.packet with
  | none => exact ⟨h, rfl⟩
  | some pm =>
    have happlied := h.applied hc hok (pm.body x.packet)
    have hrebuilt := happlied.rebuilt (entryOk_applied hc hok (pm.body x.packet)) pm x.outBodyCap
    by_cases hfull : pm.cmd = Cmd.dataFull
    · simp only [if_pos hfull, and_true]
      by_cases hk : keptSensors c (pm.body x.packet) = []
      · rw [if_pos hk, if_pos hk]
        exact h
      · rw [if_neg hk, if_neg hk]
        exact agree_refreshed hc e e' (parsed_fits hc hk (hfit pm hm hfull))
    · simp only [if_neg hfull]
      by_cases hdiff : pm.cmd = Cmd.dataDiff
      · simp only [if_pos hdiff, h.diffRead, hrebuilt, and_true]
        exact happlied
      · simp only [if_neg hdiff]
        by_cases hheart : pm.cmd = Cmd.dataHeart
        · simp only [if_pos hheart, h.rebuilt hok, and_true]
          exact h
        · simp only [if_neg hheart, and_true]
          exact h

/-! ## The table as a receiver of one stream -/

theorem fullFits_of_decode (hc : c.FieldsFit) {st : FusionState c} {packet : Bytes} {cap : Nat}
    {r : DecodeResult c} (h : fusionDecodeApply st packet cap = some r) : FullFits c packet := by
  intro pm hm hfull
  rw [fusionDecodeApply_full hc cap hm hfull] at h
  split at h
  · assumption
  · cases h

/-- The entry of a stream is the only one written. -/
theorem cacheSlot_set {st : FusionState c} {aid : UInt32} {tid : UInt8} {i : Fin c.maxEntries}
    {e e' : FusionEntry c} (h : EntryOf st aid tid i e) (hkey : e'.key = (aid, tid))
    (hused : e'.used = true) {k : UInt32 × UInt8} (hk : k ≠ (aid, tid)) :
    cacheSlot (st.set i e' i.isLt) k = cacheSlot st k := by
  have hslot : SlotOf FusionEntry.used FusionEntry.key st (aid, tid) i :=
    h.slotOf (x := ⟨⟨aid, tid, 0, [], 0⟩, ⟨[], 0, 0⟩⟩)
  exact cacheSlot_wrote (x := ⟨⟨aid, tid, 0, [], 0⟩, ⟨[], 0, 0⟩⟩) (.entry hslot hkey hused) hk

theorem cacheSlot_learned {st : FusionState c} {aid : UInt32} {tid : UInt8}
    (body : Bytes) {k : UInt32 × UInt8} (hk : k ≠ (aid, tid)) :
    cacheSlot (learned st aid tid body) k = cacheSlot st k := by
  unfold learned
  split
  · rfl
  · cases he : findOrAllocEntry st aid tid with
    | none => rfl
    | some ie =>
      obtain ⟨i, e⟩ := ie
      have hentry := findOrAllocEntry_some he
      have hkey : (refreshed e (parsed c body)).key = (aid, tid) := hentry.key
      have hused : (refreshed e (parsed c body)).used = true := hentry.used
      exact cacheSlot_set hentry hkey hused hk

/-- A packet of another stream leaves the entry of the stream as it is. -/
theorem decode_others (hc : c.FieldsFit) {st : FusionState c} (hok : StateOk st) {packet : Bytes}
    {cap : Nat} {r : DecodeResult c} (h : fusionDecodeApply st packet cap = some r)
    {k : UInt32 × UInt8} (hk : packetStream packet ≠ some k) :
    cacheSlot r.state k = cacheSlot st k := by
  have hother : ∀ {pm}, packetDecodeMeta packet = some pm → k ≠ (pm.sourceAid, pm.tid) := by
    intro pm hm hkey
    rw [packetStream, hm, Option.map_some, hkey] at hk
    exact hk rfl
  cases fusionDecodeApply_decoded hc hok h with
  | unread _ | heart _ _ _ | refused _ _ _ => rfl
  | full hm _ _ => exact cacheSlot_learned _ (hother hm)
  | @diff pm i hm _ hi =>
    obtain ⟨hu, hk'⟩ := lookup_some hi
    have hkey : (applied (st.get i) (pm.body packet)).key = (pm.sourceAid, pm.tid) := hk'
    have hused : (applied (st.get i) (pm.body packet)).used = true := hu
    exact cacheSlot_set (.cached hi) hkey hused (hother hm)

/-- A packet of a cached stream works on its entry. -/
theorem decode_own (hc : c.FieldsFit) {st : FusionState c} (hok : StateOk st) {x : Arrival}
    {r : DecodeResult c} (h : fusionDecodeApply st x.packet x.outBodyCap = some r)
    {k : UInt32 × UInt8} (hk : packetStream x.packet = some k) {i : Fin c.maxEntries}
    (hi : findEntry st k.1 k.2 = some i) :
    r = ⟨st.set i (streamDecode (st.get i) x).1 i.isLt, (streamDecode (st.get i) x).2⟩ := by
  obtain ⟨pm, hm, rfl⟩ := Option.map_eq_some_iff.mp hk
  have hfound : findOrAllocEntry st pm.sourceAid pm.tid = some (i, st.get i) := by
    rw [findOrAllocEntry, hi]
  have hnot : ¬ Cmd.dataDiff = Cmd.dataFull ∧ ¬ Cmd.dataHeart = Cmd.dataFull ∧
    ¬ Cmd.dataHeart = Cmd.dataDiff := by decide
  unfold streamDecode
  simp only [hm]
  cases fusionDecodeApply_decoded hc hok h with
  | unread hm' =>
    rw [hm] at hm'
    cases hm'
  | full hm' hcmd hfit =>
    rw [hm] at hm'
    cases hm'
    simp only [if_pos hcmd, learned, hfound]
    split
    · rw [set_get_self]
    · rfl
  | @diff _ j hm' hcmd hj =>
    rw [hm] at hm'
    cases hm'
    rw [hi] at hj
    cases hj
    simp only [hcmd, if_neg hnot.1, if_true, rebuilt, ite_and]
  | @heart _ j hm' hcmd hj =>
    rw [hm] at hm'
    cases hm'
    rw [hi] at hj
    cases hj
    simp only [hcmd, if_neg hnot.2.1, if_neg hnot.2.2, if_true, rebuilt, set_get_self]
  | refused hm' hfull hno =>
    rw [hm] at hm'
    cases hm'
    rw [hi] at hno
    obtain ⟨hdiff, hheart⟩ := hno.resolve_left (by simp)
    simp only [if_neg hfull, if_neg hdiff, if_neg hheart, set_get_self]

/-- A packet given to an entry again is answered as before and changes nothing. -/
theorem streamDecode_again (hc : c.FieldsFit) {e : FusionEntry c} (hok : EntryOk e) {x : Arrival}
    (hfit : FullFits c x.packet) :
    streamDecode (streamDecode e x).1 x = streamDecode e x := by
  have hread : ∀ body, diffRead (applied e body) body = diffRead e body := fun _ => rfl
  unfold streamDecode
  cases hm : packetDecodeMeta x.packet with
  | none => rfl
  | some pm =>
    by_cases hfull : pm.cmd = Cmd.dataFull
    · simp only [if_pos hfull]
      by_cases hk : keptSensors c (pm.body x.packet) = []
      · simp only [if_pos hk]
      · simp only [if_neg hk, refreshed_again hc hok (parsed_fits hc hk (hfit pm hm hfull))]
    · simp only [if_neg hfull]
      by_cases hdiff : pm.cmd = Cmd.dataDiff
      · simp only [if_pos hdiff, applied_again hc hok, hread]
      · simp only [if_neg hdiff]
        split <;> rfl

theorem streamDecode_keeps (hc : c.FieldsFit) {e : FusionEntry c} (hok : EntryOk e) {x : Arrival}
    (hfit : FullFits c x.packet) :
    (streamDecode e x).1.key = e.key ∧ (streamDecode e x).1.used = e.used ∧
      EntryOk (streamDecode e x).1 := by
  unfold streamDecode
  cases hm : packetDecodeMeta x.packet with
  | none => exact ⟨rfl, rfl, hok⟩
  | some pm =>
    simp only
    split
    · rename_i hfull
      by_cases hk : keptSensors c (pm.body x.packet) = []
      · rw [if_pos hk]
        exact ⟨rfl, rfl, hok⟩
      · rw [if_neg hk]
        exact ⟨rfl, rfl, entryOk_refreshed hc (parsed_fits hc hk (hfit pm hm hfull)) e hok⟩
    · split
      · exact ⟨rfl, rfl, entryOk_applied hc hok _⟩
      · split <;> exact ⟨rfl, rfl, hok⟩

/-- The stream is cached, as this entry. -/
def Cached (k : UInt32 × UInt8) (st : FusionState c) (e : FusionEntry c) : Prop :=
  StateOk st ∧ ∃ i, cacheSlot st k = some (i, e)

theorem cacheSlot_some {st : FusionState c} {k : UInt32 × UInt8} {i : Fin c.maxEntries}
    {e : FusionEntry c} :
    cacheSlot st k = some (i, e) ↔ findEntry st k.1 k.2 = some i ∧ st.get i = e := by
  simp only [cacheSlot, Option.map_eq_some_iff, Prod.mk.injEq]
  constructor
  · rintro ⟨j, hj, rfl, rfl⟩
    exact ⟨hj, rfl⟩
  · rintro ⟨hi, rfl⟩
    exact ⟨i, hi, rfl, rfl⟩

theorem cached_set {st : FusionState c} (hok : StateOk st) {aid : UInt32} {tid : UInt8}
    {i : Fin c.maxEntries} {e e' : FusionEntry c} (h : EntryOf st aid tid i e)
    (hkey : e'.key = (aid, tid)) (hused : e'.used = true) (he : EntryOk e') :
    Cached (aid, tid) (st.set i e' i.isLt) e' :=
  ⟨h.stateOk_set hok hkey he, i,
    cacheSlot_some.mpr ⟨h.findEntry_set hok hused hkey he, get_set_self _ _ _⟩⟩

/-- What a packet that is received does to the entry of its stream. -/
def Receives (e : FusionEntry c) (r : Arrival × DecodeAnswer) (e' : FusionEntry c) : Prop :=
  FullFits c r.1.packet ∧ streamDecode e r.1 = (e', r.2)

theorem decodeStep_watched (hc : c.FieldsFit) (k : UInt32 × UInt8) :
    Watched (decodeStep (c := c)) Receives (fun x => packetStream x.packet = some k)
      (Cached k) where
  ours := by
    rintro st e x t a ⟨hok, i, hi⟩ hk hstep
    obtain ⟨hfind, rfl⟩ := cacheSlot_some.mp hi
    have hdec := decodeStep_some.mp hstep
    have hown := decode_own hc hok hdec hk hfind
    have hfit := fullFits_of_decode hc hdec
    obtain ⟨hused, hkey⟩ := lookup_some hfind
    obtain ⟨hkey', hused', hentry⟩ := streamDecode_keeps hc (hok.entry i) hfit
    refine ⟨(streamDecode (st.get i) x).1, ?_, ?_⟩
    · cases hown
      exact ⟨hfit, rfl⟩
    · cases hown
      exact cached_set hok (.cached hfind) (hkey'.trans hkey) (hused'.trans hused) hentry
  others := by
    rintro st e x t a ⟨hok, i, hi⟩ hk hstep
    refine ⟨decodeStep_stateOk hc hok hstep, i, ?_⟩
    rw [← hi]
    exact decode_others hc hok (decodeStep_some.mp hstep) hk

end Osfx
