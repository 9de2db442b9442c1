import Osfx.Fusion.Bounds

/-!
# Failed calls

Both directions write the cache before their last check: the encoder before the
packet is framed, the decoder before the body is handed out, and the decoder
looks at neither checksum. The three results here say for which calls this shows:
`fusionEncode_failure_iff` for a failed encode, `fusionDecodeApply_failure_iff` for
a rejected packet, `fusionDecodeApply_corrupt_iff` for a packet with a bad checksum.
-/

namespace Osfx

open EventSystem SlotTable Cells

variable {c : FusionSizes}

/-! ## A failed encode -/

/-- Bytes the changed texts take, each behind its length. -/
def changedSize {m k : Nat} (cells : Vector (Cell m) k) : Nat → List Bytes → Nat
  | _, [] => 0
  | i, b :: bs => (if Holds cells i [b] then 0 else b.length + 1) + changedSize cells (i + 1) bs

theorem length_changedTexts {m k : Nat} (cells : Vector (Cell m) k) (i : Nat) (bs : List Bytes) :
    (changedTexts cells i bs).length = changedSize cells i bs := by
  induction bs generalizing i with
  | nil => rfl
  | cons b bs ih =>
    rw [changedTexts, changedSize, List.length_append, ih]
    split <;> rfl

/-- The size of the body an encode call has to send: nothing if the cached stream
is the one to send, the changed slots if its structure is, else all of it. -/
def payloadSize (e : FusionEntry c) (p : Parsed) (fullBody : Bytes) : Nat :=
  if SameStructure e p then
    if Holds e.lastVals 0 p.slots then 0
    else (p.sensorCount * 2 + 7) / 8 + changedSize e.lastVals 0 p.slots
  else fullBody.length

theorem length_chosenBody (e : FusionEntry c) (p : Parsed) (fullBody : Bytes) :
    (chosenBody e p fullBody).length = payloadSize e p fullBody := by
  unfold chosenBody payloadSize
  split
  · split
    · rfl
    · simp [diffBody, length_changedTexts]
  · rfl

/-- The call finds nothing to cache, or its stream cached already as the body has it,
or its packet fits. -/
def EncodeHarmless (st : FusionState c) (call : FusionCall) : Prop :=
  keptSensors c call.fullBody = [] ∨
  ∀ i e, findOrAllocEntry st call.sourceAid call.tid = some (i, e) →
    findEntry st call.sourceAid call.tid = some i ∧ Caches e (parsed c call.fullBody) ∨
    FrameFits (payloadSize e (parsed c call.fullBody) call.fullBody) call.outPacketCap

/-- What a failed call has to leave alone, and what that means for a retry. -/
def LeavesNoTrace (st : FusionState c) (call : FusionCall) (out : EncodeOut)
    (r : EncodeResult c) : Prop :=
  r.state = st ∧ r.out.outPacketLen = out.outPacketLen ∧ r.out.outCmd = out.outCmd ∧
  ∀ cap out', fusionEncode r.state { call with outPacketCap := cap } out' =
    fusionEncode st { call with outPacketCap := cap } out'

theorem leavesNoTrace_iff {st : FusionState c} {call : FusionCall} {out : EncodeOut}
    {r : EncodeResult c} (hlen : r.out.outPacketLen = out.outPacketLen)
    (hcmd : r.out.outCmd = out.outCmd) : LeavesNoTrace st call out r ↔ r.state = st := by
  constructor
  · exact fun h => h.1
  · intro h
    refine ⟨h, hlen, hcmd, fun cap out' => ?_⟩
    rw [h]

theorem sendFrame_failed {st : FusionState c} {call : FusionCall} {cmd : UInt8} {body : Bytes}
    {out : EncodeOut} (h : (sendFrame st call cmd body out).ret = false) :
    (sendFrame st call cmd body out).out.outPacketLen = out.outPacketLen ∧
    (sendFrame st call cmd body out).out.outCmd = out.outCmd := by
  simp only [sendFrame] at h ⊢
  split at h
  · rename_i hn
    simp [hn]
  · cases h

theorem encodeHarmless_iff {st : FusionState c} {call : FusionCall} {i : Fin c.maxEntries}
    {e : FusionEntry c} (hk : keptSensors c call.fullBody ≠ [])
    (he : findOrAllocEntry st call.sourceAid call.tid = some (i, e)) :
    EncodeHarmless st call ↔
      findEntry st call.sourceAid call.tid = some i ∧ Caches e (parsed c call.fullBody) ∨
      FrameFits (payloadSize e (parsed c call.fullBody) call.fullBody) call.outPacketCap := by
  constructor
  · rintro (h | h)
    · exact absurd h hk
    · exact h i e he
  · intro h
    refine Or.inr ?_
    intro i' e' he'
    rw [he] at he'
    cases he'
    exact h

/-- Refreshing the entry of a stream changes nothing exactly if it is cached as it is. -/
theorem set_refreshed_eq_self (hc : c.Small) {st : FusionState c} (hok : StateOk st)
    {aid : UInt32} {tid : UInt8} {body : Bytes} {i : Fin c.maxEntries} {e : FusionEntry c}
    (he : findOrAllocEntry st aid tid = some (i, e)) (hp : ParsedFits c (parsed c body)) :
    st.set i (refreshed e (parsed c body)) i.isLt = st ↔
      findEntry st aid tid = some i ∧ Caches e (parsed c body) := by
  have hentry := findOrAllocEntry_some he
  have hused := (refreshed_used e (parsed c body)).trans hentry.used
  rw [hentry.set_eq_self hused, refreshed_eq_self hc (hentry.entryOk hc hok) hp]

/-- A failed encode changes nothing exactly if the call is harmless. -/
theorem fusionEncode_failure_iff (hc : c ∈ FusionSizes.shipped) {st : FusionState c}
    (hst : Reachable st) {call : FusionCall} {out : EncodeOut} {r : EncodeResult c}
    (hr : fusionEncode st call out = some r) :
    (r.ret = false → LeavesNoTrace st call out r) ↔ EncodeHarmless st call := by
  have hsmall := FusionSizes.shipped_small hc
  have hok := hst.stateOk hsmall
  cases fusionEncode_encoded hsmall hok hr with
  | empty hne =>
    have hharm : EncodeHarmless st call := Or.inl (by rw [hne]; exact keptSensors_nil)
    simp only [hharm, iff_true]
    exact fun _ => (leavesNoTrace_iff rfl rfl).mpr rfl
  | uncached hk =>
    have hharm : EncodeHarmless st call := Or.inl hk
    simp only [hharm, iff_true]
    intro hfail
    obtain ⟨hlen, hcmd⟩ := sendFrame_failed hfail
    exact (leavesNoTrace_iff hlen hcmd).mpr (sendFrame_state ..)
  | noEntry he =>
    have hharm : EncodeHarmless st call := by
      refine Or.inr ?_
      intro i e h
      rw [he] at h
      cases h
    simp only [hharm, iff_true]
    exact fun _ => (leavesNoTrace_iff rfl rfl).mpr rfl
  | @cached i e hk hfit he =>
    have hset := set_refreshed_eq_self hsmall hok he (parsed_fits hsmall hk hfit)
    rw [encodeHarmless_iff hk he, ← hset, ← length_chosenBody, ← Bool.not_eq_true,
      sendFrame_ret_iff]
    by_cases hframe : FrameFits
        (chosenBody e (parsed c call.fullBody) call.fullBody).length call.outPacketCap
    · simp [hframe]
    · have hfail : (sendFrame (st.set i (refreshed e (parsed c call.fullBody)) i.isLt) call
          (chosenCmd e (parsed c call.fullBody))
          (chosenBody e (parsed c call.fullBody) call.fullBody) out).ret = false := by
        rw [← Bool.not_eq_true, sendFrame_ret_iff]
        exact hframe
      obtain ⟨hlen, hcmd⟩ := sendFrame_failed hfail
      rw [leavesNoTrace_iff hlen hcmd, sendFrame_state]
      simp [hframe]

/-- The first packet of a stream, with a buffer that is too small. -/
def firstCall : FusionCall := ⟨1, 1, 0, ascii "A.U.1|T>m:v|", 10⟩

theorem firstCall_failure_iff :
    ∃ r, fusionEncode (fusionStateInit FusionSizes.headerDefault) firstCall ⟨[], 0, 0⟩ = some r ∧
      ((r.ret = false → LeavesNoTrace (fusionStateInit FusionSizes.headerDefault) firstCall
        ⟨[], 0, 0⟩ r) ↔ EncodeHarmless (fusionStateInit FusionSizes.headerDefault) firstCall) := by
  have hrun := Option.some_get (x := fusionEncode (fusionStateInit FusionSizes.headerDefault)
    firstCall ⟨[], 0, 0⟩) (by decide +kernel)
  exact ⟨_, hrun.symm, fusionEncode_failure_iff (by decide) ⟨[], rfl⟩ hrun.symm⟩

/-- Retried with room enough, the failed first packet goes out as a HEART, although
no FULL was ever sent. -/
theorem retry_after_failure_sends_heart :
    (fusionEncode (fusionStateInit FusionSizes.headerDefault) firstCall ⟨[], 0, 0⟩).map
      EncodeResult.ret = some false ∧
    ((fusionEncode (fusionStateInit FusionSizes.headerDefault) firstCall ⟨[], 0, 0⟩).bind fun r =>
      fusionEncode r.state { firstCall with outPacketCap := 512 } ⟨[], 0, 0⟩).map
        (fun r => (r.ret, r.out.outCmd)) = some (true, Cmd.dataHeart) ∧
    (fusionEncode (fusionStateInit FusionSizes.headerDefault)
      { firstCall with outPacketCap := 512 } ⟨[], 0, 0⟩).map
        (fun r => (r.ret, r.out.outCmd)) = some (true, Cmd.dataFull) := by
  decide +kernel

/-! ## A rejected packet -/

/-- The packet stores nothing that is not stored already: a FULL without a sensor,
without a free entry or cached as it is; a DIFF whose fields, up to the first
malformed one, are cached; or no FULL and no DIFF. -/
def Inert (st : FusionState c) (pm : PacketMeta) (body : Bytes) : Prop :=
  if pm.cmd = Cmd.dataFull then
    keptSensors c body = [] ∨ findOrAllocEntry st pm.sourceAid pm.tid = none ∨
    ∃ i, findEntry st pm.sourceAid pm.tid = some i ∧ Caches (st.get i) (parsed c body)
  else if pm.cmd = Cmd.dataDiff then
    ∀ i, findEntry st pm.sourceAid pm.tid = some i →
      ∀ f ∈ (diffRead (st.get i) body).1, FieldCached (st.get i).lastVals f
  else True

/-- The packet has nothing to hand out: a FULL with too long a body; a packet of a
stream that is not cached; a DIFF that is malformed or whose text has no room; a
HEART whose text has none; or another command. -/
def Refused (st : FusionState c) (pm : PacketMeta) (body : Bytes) (cap : Nat) : Prop :=
  if pm.cmd = Cmd.dataFull then cap < body.length
  else
    ∀ i, findEntry st pm.sourceAid pm.tid = some i →
      (pm.cmd = Cmd.dataDiff → (diffRead (st.get i) body).2 = true →
        ¬ Rebuilds (applied (st.get i) body) pm.timestampRaw cap) ∧
      (pm.cmd = Cmd.dataHeart → ¬ Rebuilds (st.get i) pm.timestampRaw cap)

theorem learned_eq_self (hc : c.Small) {st : FusionState c} (hok : StateOk st) {aid : UInt32}
    {tid : UInt8} {body : Bytes} (hfit : SlotsFit c body) :
    learned st aid tid body = st ↔ keptSensors c body = [] ∨ findOrAllocEntry st aid tid = none ∨
      ∃ i, findEntry st aid tid = some i ∧ Caches (st.get i) (parsed c body) := by
  unfold learned
  by_cases hk : keptSensors c body = []
  · simp [hk]
  · rw [if_neg hk]
    cases he : findOrAllocEntry st aid tid with
    | none => simp
    | some ie =>
      obtain ⟨i, e⟩ := ie
      have hentry := findOrAllocEntry_some he
      have hset := set_refreshed_eq_self hc hok he (parsed_fits hc hk hfit)
      simp only [hk, reduceCtorEq, false_or, hset]
      constructor
      · rintro ⟨hf, hcached⟩
        refine ⟨i, hf, ?_⟩
        cases hentry with
        | cached _ => exact hcached
        | fresh hn _ =>
          rw [hn] at hf
          cases hf
      · rintro ⟨j, hf, hcached⟩
        cases hentry with
        | cached hi =>
          obtain rfl : i = j := Option.some.inj (hi ▸ hf)
          exact ⟨hi, hcached⟩
        | fresh hn _ =>
          rw [hn] at hf
          cases hf

theorem set_applied_eq_self (hc : c.Small) {st : FusionState c} {i : Fin c.maxEntries}
    (hok : EntryOk (st.get i)) (body : Bytes) :
    st.set i (applied (st.get i) body) i.isLt = st ↔
      ∀ f ∈ (diffRead (st.get i) body).1, FieldCached (st.get i).lastVals f := by
  rw [← applied_eq_self hc hok body]
  constructor
  · intro h
    have hi := get_set_self st i (applied (st.get i) body)
    rw [h] at hi
    exact hi.symm
  · intro h
    rw [h, set_get_self]

/-- What a packet does to the table and whether it is refused. -/
theorem fusionDecodeApply_outcome (hc : c.Small) {st : FusionState c} (hok : StateOk st)
    {packet : Bytes} {cap : Nat} {r : DecodeResult c}
    (hr : fusionDecodeApply st packet cap = some r) {pm : PacketMeta}
    (hm : packetDecodeMeta packet = some pm) :
    (r.state = st ↔ Inert st pm (pm.body packet)) ∧
    (r.out = none ↔ Refused st pm (pm.body packet) cap) := by
  have hdifffull : Cmd.dataDiff ≠ Cmd.dataFull := by decide
  have hheartfull : Cmd.dataHeart ≠ Cmd.dataFull := by decide
  have hheartdiff : Cmd.dataHeart ≠ Cmd.dataDiff := by decide
  cases fusionDecodeApply_decoded hc hok hr with
  | unread hnone =>
    rw [hm] at hnone
    cases hnone
  | full hm' hcmd hfit =>
    cases hm.symm.trans hm'
    simp only [Inert, Refused, if_pos hcmd]
    constructor
    · exact learned_eq_self hc hok hfit
    · split
      · rename_i hlt
        simp [hlt]
      · rename_i hge
        simp [hge]
  | @diff pm' i hm' hcmd hi =>
    cases hm.symm.trans hm'
    simp only [Inert, Refused, hcmd, if_neg hdifffull, hi, Option.some.injEq, forall_eq', if_true,
      forall_const]
    constructor
    · exact set_applied_eq_self hc (hok.entry i) (pm.body packet)
    · simp [hheartdiff.symm]
  | @heart pm' i hm' hcmd hi =>
    cases hm.symm.trans hm'
    simp [Inert, Refused, hcmd, hheartfull, hi, hheartdiff]
  | refused hm' hfull hwhy =>
    cases hm.symm.trans hm'
    simp only [Inert, Refused, if_neg hfull]
    obtain hi | ⟨hdiff, hheart⟩ := hwhy
    · simp [hi]
    · simp [hdiff, hheart]

/-- A rejected packet leaves the table as it is exactly if it is inert. -/
theorem fusionDecodeApply_failure_iff (hc : c ∈ FusionSizes.shipped) {st : FusionState c}
    (hst : Reachable st) {packet : Bytes} {cap : Nat} {r : DecodeResult c}
    (hr : fusionDecodeApply st packet cap = some r) :
    (r.out = none → r.state = st) ↔
      ∀ pm, packetDecodeMeta packet = some pm →
        Refused st pm (pm.body packet) cap → Inert st pm (pm.body packet) := by
  have hsmall := FusionSizes.shipped_small hc
  have hok := hst.stateOk hsmall
  cases hm : packetDecodeMeta packet with
  | none =>
    simp only [fusionDecodeApply, hm] at hr
    cases hr
    simp
  | some pm =>
    obtain ⟨hstate, hout⟩ := fusionDecodeApply_outcome hsmall hok hr hm
    simp only [Option.some.injEq, forall_eq', hstate, hout]

/-- A FULL of a first sensor. -/
def firstFull : Bytes := packetFrame Cmd.dataFull 1 1 0 (ascii "A.U.1|T>m:v|")

theorem firstFull_failure_iff :
    ∃ r, fusionDecodeApply (fusionStateInit FusionSizes.headerDefault) firstFull 4 = some r ∧
      ((r.out = none → r.state = fusionStateInit FusionSizes.headerDefault) ↔
        ∀ pm, packetDecodeMeta firstFull = some pm →
          Refused (fusionStateInit FusionSizes.headerDefault) pm (pm.body firstFull) 4 →
          Inert (fusionStateInit FusionSizes.headerDefault) pm (pm.body firstFull)) := by
  have hrun := Option.some_get (x := fusionDecodeApply (fusionStateInit FusionSizes.headerDefault)
    firstFull 4) (by decide +kernel)
  exact ⟨_, hrun.symm, fusionDecodeApply_failure_iff (by decide) ⟨[], rfl⟩ hrun.symm⟩

/-- A FULL with no room for its body is rejected and cached all the same. -/
theorem rejected_full_is_cached :
    ∃ r, fusionDecodeApply (fusionStateInit FusionSizes.headerDefault) firstFull 4 = some r ∧
      r.out = none ∧ r.state ≠ fusionStateInit FusionSizes.headerDefault := by
  have hrun := Option.some_get (x := fusionDecodeApply (fusionStateInit FusionSizes.headerDefault)
    firstFull 4) (by decide +kernel)
  refine ⟨_, hrun.symm, ?_, ?_⟩ <;> decide +kernel

/-- A packet with a bad checksum is rejected without a trace exactly if it is
refused and inert for what it says. -/
theorem fusionDecodeApply_corrupt_iff (hc : c ∈ FusionSizes.shipped) {st : FusionState c}
    (hst : Reachable st) {packet : Bytes} {cap : Nat} {r : DecodeResult c}
    (hr : fusionDecodeApply st packet cap = some r) {pm : PacketMeta}
    (hm : packetDecodeMin packet = some pm) :
    (pm.crc16Ok = false ∨ pm.crc8Ok = false → r.out = none ∧ r.state = st) ↔
      (pm.crc16Ok = true ∧ pm.crc8Ok = true) ∨
      (Refused st pm (pm.body packet) cap ∧ Inert st pm (pm.body packet)) := by
  have hsmall := FusionSizes.shipped_small hc
  obtain ⟨hstate, hout⟩ := fusionDecodeApply_outcome hsmall (hst.stateOk hsmall) hr hm
  rw [hstate, hout]
  cases pm.crc16Ok <;> cases pm.crc8Ok <;> simp

/-- The first FULL with the last bit of its CRC16 flipped. -/
def corruptFull : Bytes := firstFull.take 27 ++ [firstFull.getD 27 0 ^^^ 1]

theorem corruptFull_corrupt_iff :
    ∃ r pm, fusionDecodeApply (fusionStateInit FusionSizes.headerDefault) corruptFull 512 = some r ∧
      packetDecodeMin corruptFull = some pm ∧
      ((pm.crc16Ok = false ∨ pm.crc8Ok = false →
          r.out = none ∧ r.state = fusionStateInit FusionSizes.headerDefault) ↔
        (pm.crc16Ok = true ∧ pm.crc8Ok = true) ∨
        (Refused (fusionStateInit FusionSizes.headerDefault) pm (pm.body corruptFull) 512 ∧
          Inert (fusionStateInit FusionSizes.headerDefault) pm (pm.body corruptFull))) := by
  have hrun := Option.some_get (x := fusionDecodeApply (fusionStateInit FusionSizes.headerDefault)
    corruptFull 512) (by decide +kernel)
  have hmeta := Option.some_get (x := packetDecodeMin corruptFull) (by decide +kernel)
  exact ⟨_, _, hrun.symm, hmeta.symm,
    fusionDecodeApply_corrupt_iff (by decide) ⟨[], rfl⟩ hrun.symm hmeta.symm⟩

/-- A FULL whose CRC16 is wrong is accepted and cached. -/
theorem corrupt_full_is_cached :
    ∃ r pm, fusionDecodeApply (fusionStateInit FusionSizes.headerDefault) corruptFull 512 = some r ∧
      packetDecodeMin corruptFull = some pm ∧ pm.crc16Ok = false ∧
      r.out ≠ none ∧ r.state ≠ fusionStateInit FusionSizes.headerDefault := by
  have hrun := Option.some_get (x := fusionDecodeApply (fusionStateInit FusionSizes.headerDefault)
    corruptFull 512) (by decide +kernel)
  have hmeta := Option.some_get (x := packetDecodeMin corruptFull) (by decide +kernel)
  refine ⟨_, _, hrun.symm, hmeta.symm, ?_, ?_, ?_⟩ <;> decide +kernel

end Osfx
