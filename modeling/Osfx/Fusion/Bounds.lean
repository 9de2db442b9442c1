import Osfx.Fusion.Table
import Osfx.Lib.Run

/-!
# Runs of the fusion table

Encode calls, received packets and resets on one table, in any order. A call that
leaves one of the arrays has no result, so a run that has one stayed in bounds
throughout. `run_isSome_iff` gives the runs that do: those whose bodies never
hold more sensors than half of `OSFX_FUSION_MAX_VALS`, which the sizes guarantee
only where `2 * OSFX_FUSION_MAX_SENSORS` is no more than that.
-/

namespace Osfx

open EventSystem SlotTable

variable {c : FusionSizes}

inductive FusionOp where
  | reset
  | encode (call : FusionCall) (out : EncodeOut)
  | decode (packet : Bytes) (outBodyCap : Nat)
  deriving DecidableEq

def fusionStep (st : FusionState c) : FusionOp → Option (FusionState c)
  | .reset => some (fusionStateInit c)
  | .encode call out => (fusionEncode st call out).map EncodeResult.state
  | .decode packet outBodyCap => (fusionDecodeApply st packet outBodyCap).map DecodeResult.state

/-- States a freshly initialised table can be brought to. -/
def Reachable (st : FusionState c) : Prop :=
  ∃ ops, run fusionStep (fusionStateInit c) ops = some st

/-! ## What a call can do to the table -/

theorem sendFrame_ret {st : FusionState c} {call : FusionCall} {cmd : UInt8} {body : Bytes}
    {out : EncodeOut} : (sendFrame st call cmd body out).ret = true ↔
      0 < (packetEncodeFull cmd call.sourceAid call.tid call.timestampRaw body
        call.outPacketCap).2 := by
  simp only [sendFrame]
  split <;> simp <;> omega

/-- A body of this many bytes can be framed: the buffer holds the frame, and its
length is positive as an `int`. -/
def FrameFits (size cap : Nat) : Prop := size + 16 ≤ cap ∧ 0 < castInt (size + 16)

theorem sendFrame_ret_iff {st : FusionState c} {call : FusionCall} {cmd : UInt8} {body : Bytes}
    {out : EncodeOut} :
    (sendFrame st call cmd body out).ret = true ↔ FrameFits body.length call.outPacketCap := by
  rw [sendFrame_ret, packetEncodeFull, FrameFits]
  split
  · simp
    omega
  · simp only [length_packetFrame]
    constructor
    · intro h
      exact ⟨by omega, h⟩
    · exact fun h => h.2

theorem sendFrame_outCmd {st : FusionState c} {call : FusionCall} {cmd : UInt8} {body : Bytes}
    {out : EncodeOut} (h : (sendFrame st call cmd body out).ret = true) :
    (sendFrame st call cmd body out).out.outCmd = cmd := by
  simp only [sendFrame, if_neg (Int.not_le.mpr (sendFrame_ret.mp h))]

/-- The packet of a frame that is sent and fits an `int` is the frame. -/
theorem sendFrame_frame {st : FusionState c} {call : FusionCall} {cmd : UInt8} {body : Bytes}
    {out : EncodeOut} (h : (sendFrame st call cmd body out).ret = true)
    (hint : body.length + 16 < 2 ^ 31) :
    (sendFrame st call cmd body out).out.packet =
      packetFrame cmd call.sourceAid call.tid call.timestampRaw body := by
  have hroom := (sendFrame_ret_iff.mp h).1
  have hpos := sendFrame_ret.mp h
  have hlen := length_packetFrame cmd call.sourceAid call.tid call.timestampRaw body
  have htake := take_frame (hlen ▸ hint)
  simp only [packetEncodeFull, if_neg (by omega : ¬ call.outPacketCap < 13 + body.length + 3)]
    at hpos
  simp only [sendFrame, packetEncodeFull,
    if_neg (by omega : ¬ call.outPacketCap < 13 + body.length + 3), if_neg (Int.not_le.mpr hpos),
    EncodeOut.packet, htake]

/-- An encode call leaves the table as it is, or writes back the entry of its
stream, refreshed with its body. -/
theorem fusionEncode_state (hc : c.FieldsFit) {st : FusionState c} (hok : StateOk st)
    {call : FusionCall} {out : EncodeOut} {r : EncodeResult c}
    (h : fusionEncode st call out = some r) :
    r.state = st ∨ ∃ i e, findOrAllocEntry st call.sourceAid call.tid = some (i, e) ∧
      keptSensors c call.fullBody ≠ [] ∧ SlotsFit c call.fullBody ∧
      r.state = st.set i (refreshed e (parsed c call.fullBody)) i.isLt := by
  cases fusionEncode_encoded hc hok h with
  | empty _ | noEntry _ => exact Or.inl rfl
  | uncached _ => exact Or.inl (sendFrame_state ..)
  | cached hk hfit he => exact Or.inr ⟨_, _, he, hk, hfit, sendFrame_state ..⟩

theorem stateOk_refreshed (hc : c.FieldsFit) {st : FusionState c} (hok : StateOk st) {aid : UInt32}
    {tid : UInt8} {body : Bytes} {i : Fin c.maxEntries} {e : FusionEntry c}
    (he : findOrAllocEntry st aid tid = some (i, e)) (hk : keptSensors c body ≠ [])
    (hfit : SlotsFit c body) : StateOk (st.set i (refreshed e (parsed c body)) i.isLt) := by
  have hentry := findOrAllocEntry_some he
  exact hentry.stateOk_set hok ((refreshed_key e _).trans hentry.key)
    (entryOk_refreshed hc (parsed_fits hc hk hfit) e (hentry.entryOk hc hok))

theorem stateOk_learned (hc : c.FieldsFit) {st : FusionState c} (hok : StateOk st) (aid : UInt32)
    (tid : UInt8) {body : Bytes} (hfit : SlotsFit c body) : StateOk (learned st aid tid body) := by
  unfold learned
  split
  · exact hok
  · rename_i hk
    split
    · exact hok
    · rename_i i e he
      exact stateOk_refreshed hc hok he hk hfit

theorem stateOk_applied (hc : c.FieldsFit) {st : FusionState c} (hok : StateOk st) {aid : UInt32}
    {tid : UInt8} {i : Fin c.maxEntries} (hi : findEntry st aid tid = some i) (body : Bytes) :
    StateOk (st.set i (applied (st.get i) body) i.isLt) := by
  have hentry : EntryOf st aid tid i (st.get i) := .cached hi
  exact hentry.stateOk_set hok hentry.key (entryOk_applied hc (hok.entry i) body)

/-- A received packet leaves the table as it is, teaches it the body of a FULL, or
applies the fields of a DIFF to the entry of its stream. -/
theorem fusionDecodeApply_state (hc : c.FieldsFit) {st : FusionState c} (hok : StateOk st)
    {packet : Bytes} {cap : Nat} {r : DecodeResult c}
    (h : fusionDecodeApply st packet cap = some r) :
    r.state = st ∨
    (∃ pm, packetDecodeMeta packet = some pm ∧ pm.cmd = Cmd.dataFull ∧
      SlotsFit c (pm.body packet) ∧
      r.state = learned st pm.sourceAid pm.tid (pm.body packet)) ∨
    (∃ pm i, packetDecodeMeta packet = some pm ∧ pm.cmd = Cmd.dataDiff ∧
      findEntry st pm.sourceAid pm.tid = some i ∧
      r.state = st.set i (applied (st.get i) (pm.body packet)) i.isLt) := by
  cases fusionDecodeApply_decoded hc hok h with
  | unread _ | heart _ _ _ | refused _ _ _ => exact Or.inl rfl
  | full hm hcmd hfit => exact Or.inr (Or.inl ⟨_, hm, hcmd, hfit, rfl⟩)
  | diff hm hcmd hi => exact Or.inr (Or.inr ⟨_, _, hm, hcmd, hi, rfl⟩)

/-- Every call keeps the invariant of the table. -/
theorem fusionStep_stateOk (hc : c.FieldsFit) (st : FusionState c) (op : FusionOp)
    (st' : FusionState c) (hok : StateOk st) (h : fusionStep st op = some st') : StateOk st' := by
  cases op with
  | reset =>
    cases h
    exact stateOk_init hc
  | encode call out =>
    obtain ⟨r, hr, rfl⟩ := Option.map_eq_some_iff.mp h
    rcases fusionEncode_state hc hok hr with hs | ⟨i, e, he, hk, hfit, hs⟩
    · exact hs ▸ hok
    · exact hs ▸ stateOk_refreshed hc hok he hk hfit
  | decode packet cap =>
    obtain ⟨r, hr, rfl⟩ := Option.map_eq_some_iff.mp h
    rcases fusionDecodeApply_state hc hok hr with hs | ⟨pm, -, -, hfit, hs⟩ | ⟨pm, i, -, -, hi, hs⟩
    · exact hs ▸ hok
    · exact hs ▸ stateOk_learned hc hok _ _ hfit
    · exact hs ▸ stateOk_applied hc hok hi _

theorem Reachable.stateOk (hc : c.FieldsFit) {st : FusionState c} (h : Reachable st) :
    StateOk st := by
  obtain ⟨ops, hr⟩ := h
  exact run_invariant fusionStep (fusionStep_stateOk hc) (stateOk_init hc) hr

/-! ## Slot indices -/

/-- The body a call has parsed has two slot rows for every sensor taken of it. -/
def OpFits (c : FusionSizes) : FusionOp → Prop
  | .reset => True
  | .encode call _ => SlotsFit c call.fullBody
  | .decode packet _ => ∀ pm, packetDecodeMeta packet = some pm → pm.cmd = Cmd.dataFull →
      SlotsFit c (pm.body packet)

/-- Where there are two slot rows for every sensor row, every body fits. -/
theorem slotsFit_of_sizes (h : 2 * c.maxSensors ≤ c.maxVals) (body : Bytes) : SlotsFit c body := by
  have := keptSensors_length_le (c := c) body
  unfold SlotsFit
  omega

theorem opFits_of_sizes (h : 2 * c.maxSensors ≤ c.maxVals) (op : FusionOp) : OpFits c op := by
  cases op with
  | reset => trivial
  | encode call out => exact slotsFit_of_sizes h _
  | decode packet cap => exact fun _ _ _ => slotsFit_of_sizes h _

theorem keptSensors_nil : keptSensors c [] = [] := rfl

theorem fusionStep_isSome_iff (hc : c.FieldsFit) {st : FusionState c} (hok : StateOk st)
    (op : FusionOp) : (fusionStep st op).isSome = true ↔ OpFits c op := by
  cases op with
  | reset => simp [fusionStep, OpFits]
  | encode call out =>
    simp only [fusionStep, Option.isSome_map, OpFits]
    by_cases hne : call.fullBody = []
    · simp [fusionEncode, hne, SlotsFit, keptSensors_nil]
    by_cases hfit : SlotsFit c call.fullBody
    · simp only [hfit, iff_true]
      by_cases hk : keptSensors c call.fullBody = []
      · rw [fusionEncode_uncached _ out hne hk]
        rfl
      · cases he : findOrAllocEntry st call.sourceAid call.tid with
        | none =>
          rw [fusionEncode_noEntry out hfit hk he]
          rfl
        | some ie =>
          rw [fusionEncode_cached hc hok out hne hfit hk he]
          rfl
    · simp [fusionEncode_overflow out hne hfit, hfit]
  | decode packet cap =>
    simp only [fusionStep, Option.isSome_map, OpFits]
    cases hm : packetDecodeMeta packet with
    | none => simp [fusionDecodeApply, hm]
    | some pm =>
      simp only [Option.some.injEq, forall_eq']
      by_cases hfull : pm.cmd = Cmd.dataFull
      · rw [fusionDecodeApply_full hc cap hm hfull]
        by_cases hfit : SlotsFit c (pm.body packet) <;> simp [hfit, hfull]
      · simp only [hfull, false_implies, iff_true]
        cases hi : findEntry st pm.sourceAid pm.tid with
        | none =>
          rw [fusionDecodeApply_refused cap hm hfull (Or.inl hi)]
          rfl
        | some i =>
          by_cases hdiff : pm.cmd = Cmd.dataDiff
          · rw [fusionDecodeApply_diff cap hm hdiff hi, decodeDiff_eq hc (hok.entry i)]
            rfl
          · by_cases hheart : pm.cmd = Cmd.dataHeart
            · rw [fusionDecodeApply_heart cap hm hheart hi, decodeHeart_eq (hok.entry i)]
              rfl
            · rw [fusionDecodeApply_refused cap hm hfull (Or.inr ⟨hdiff, hheart⟩)]
              rfl

theorem run_isSome_iff (hc : c.FieldsFit) {st : FusionState c} (hok : StateOk st)
    (ops : List FusionOp) :
    (run fusionStep st ops).isSome = true ↔ ∀ op ∈ ops, OpFits c op := by
  induction ops generalizing st with
  | nil => simp
  | cons op ops ih =>
    have hstep := fusionStep_isSome_iff hc hok op
    rw [run_cons, List.forall_mem_cons, ← hstep]
    cases hs : fusionStep st op with
    | none => simp
    | some st' =>
      have hnext := ih (fusionStep_stateOk hc st op st' hok hs)
      simpa using hnext

/-- In every shipped configuration a run stays within the arrays exactly if each
body it parses has two slot rows for every sensor. -/
theorem slot_indices_in_bounds_iff (hc : c ∈ FusionSizes.shipped) (ops : List FusionOp) :
    (run fusionStep (fusionStateInit c) ops).isSome = true ↔ ∀ op ∈ ops, OpFits c op :=
  run_isSome_iff (FusionSizes.shipped_small hc) (stateOk_init (FusionSizes.shipped_small hc)) ops

/-- A body of as many sensors as the header defaults have rows for, and a reset. -/
def fourSensors : List FusionOp :=
  [.encode ⟨1, 1, 0, ascii "A.U.1|a>b:c|d>e:f|g>h:i|j>k:l|", 512⟩ ⟨[], 0, 0⟩, .reset]

theorem headerDefault_in_bounds :
    (run fusionStep (fusionStateInit FusionSizes.headerDefault) fourSensors).isSome = true ↔
      ∀ op ∈ fourSensors, OpFits FusionSizes.headerDefault op :=
  slot_indices_in_bounds_iff (by decide) fourSensors

/-- With eight sensor rows and eight slot rows, the fifth sensor is out of bounds. -/
theorem cortexm4_fifth_sensor_out_of_bounds :
    FusionSizes.cortexm4 ∈ FusionSizes.shipped ∧
    ¬ (run fusionStep (fusionStateInit FusionSizes.cortexm4)
      [.encode ⟨1, 1, 0, ascii "A.U.1|a>b:c|d>e:f|g>h:i|j>k:l|m>n:o|", 512⟩
        ⟨[], 0, 0⟩]).isSome = true := by
  constructor
  · decide
  · decide +kernel

end Osfx
