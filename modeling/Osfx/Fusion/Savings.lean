import Osfx.Fusion.Failure
import Osfx.Fusion.Lockstep

/-!
# What a delta saves

A HEART is a bare frame. A DIFF carries no tag, no header and no separator but one length
for each text, so even with every slot changed it stays shorter than the FULL would have
been, by two bytes a sensor and more (`delta_saves`).
-/

namespace Osfx

open EventSystem Numeral Text Cells

variable {c : FusionSizes}

/-- Bytes the texts take, each behind its length. -/
def textsSize (bs : List Bytes) : Nat := (bs.map fun b => b.length + 1).sum

theorem changedSize_le {m k : Nat} (cells : Vector (Cell m) k) (i : Nat) (bs : List Bytes) :
    changedSize cells i bs ≤ textsSize bs := by
  induction bs generalizing i with
  | nil => exact Nat.le_refl _
  | cons b bs ih =>
    have hrest := ih (i + 1)
    simp only [changedSize, textsSize, List.map_cons, List.sum_cons] at hrest ⊢
    split <;> omega

/-! ## The sensors of a body -/

theorem length_ended (sep : UInt8) (ps : List Bytes) : (ended sep ps).length = textsSize ps := by
  induction ps with
  | nil => rfl
  | cons p ps ih =>
    simp only [ended, textsSize, List.length_append, List.length_cons, List.map_cons,
      List.sum_cons] at ih ⊢
    omega

/-- The pieces of a text and the separators between them are the text. -/
theorem textsSize_splitOn (sep : UInt8) (l : Bytes) : textsSize (l.splitOn sep) = l.length + 1 := by
  obtain ⟨ps, rest, rfl, hps, hrest⟩ := exists_ended sep l
  rw [splitOn_ended_rest hps hrest, List.length_append, length_ended]
  simp [textsSize]
  omega

theorem textsSize_filterMap (segs : List Bytes) :
    textsSize ((segs.filterMap (parseSegment c)).map segmentText) ≤ textsSize segs := by
  induction segs with
  | nil => exact Nat.le_refl _
  | cons seg segs ih =>
    cases hs : parseSegment c seg with
    | none =>
      rw [List.filterMap_cons_none hs]
      simp only [textsSize, List.map_cons, List.sum_cons] at ih ⊢
      omega
    | some s =>
      have hseg := (parseSegment_eq_some.mp hs).1
      rw [List.filterMap_cons_some hs]
      simp only [textsSize, List.map_cons, List.sum_cons, hseg] at ih ⊢
      omega

theorem textsSize_take (n : Nat) (bs : List Bytes) : textsSize (bs.take n) ≤ textsSize bs := by
  have happ : textsSize (bs.take n ++ bs.drop n) =
      textsSize (bs.take n) + textsSize (bs.drop n) := by
    simp [textsSize]
  rw [List.take_append_drop] at happ
  omega

/-- The slots of a sensor take two bytes less than its segment and a separator. -/
theorem textsSize_slotsOf {sensors : List Sensor} (hfit : ∀ s ∈ sensors, SensorFits c s) :
    textsSize (slotsOf sensors) + 2 * sensors.length ≤ textsSize (sensors.map segmentText) := by
  induction sensors with
  | nil => exact Nat.le_refl _
  | cons s sensors ih =>
    rw [List.forall_mem_cons] at hfit
    have hrest := ih hfit.2
    have htag := List.length_pos_iff.mpr hfit.1.tag_ne
    have hcons : slotsOf (s :: sensors) = s.2.1 :: s.2.2 :: slotsOf sensors := rfl
    simp only [textsSize, hcons, List.map_cons, List.sum_cons, List.length_cons, segmentText,
      List.length_append] at hrest ⊢
    omega

/-- What the cache takes of a body is shorter than the body. -/
theorem textsSize_slots_lt {body : Bytes} (hk : keptSensors c body ≠ []) :
    textsSize (slotsOf (keptSensors c body)) + 2 * (keptSensors c body).length + 1 ≤
      body.length := by
  obtain ⟨name, tail, rest, hsig, hbody, -, -, -, hheader⟩ := header_of_kept hk
  have hslots := textsSize_slotsOf fun s (hs : s ∈ keptSensors c body) => keptSensors_fits hs
  have hsegs : textsSize ((keptSensors c body).map segmentText) ≤ rest.length + 1 := by
    rw [keptSensors_eq hheader, List.map_take]
    apply Nat.le_trans (textsSize_take _ _)
    apply Nat.le_trans (textsSize_filterMap _)
    exact Nat.le_of_eq (textsSize_splitOn bar rest)
  have hlen := congrArg List.length hbody
  simp only [List.length_append, List.length_cons, hsig, List.length_nil] at hlen
  omega

/-! ## The packets -/

/-- A HEART is 16 bytes. A DIFF of `n` sensors is shorter than the FULL of its body, by at
least `2 * n + 1` bytes less the mask. -/
theorem delta_saves (hc : c ∈ FusionSizes.shipped) {st : FusionState c} (hst : Reachable st)
    {call : FusionCall} {out : EncodeOut} {r : EncodeResult c}
    (hr : fusionEncode st call out = some r) (hret : r.ret = true) :
    (r.out.outCmd = Cmd.dataHeart → r.out.packet.length = 16) ∧
    (r.out.outCmd = Cmd.dataDiff →
      r.out.packet.length + 2 * (keptSensors c call.fullBody).length + 1 ≤
        (packetFrame Cmd.dataFull call.sourceAid call.tid call.timestampRaw call.fullBody).length +
          (2 * (keptSensors c call.fullBody).length + 7) / 8) := by
  have hsmall := FusionSizes.shipped_small hc
  have hfull : Cmd.dataFull ≠ Cmd.dataHeart ∧ Cmd.dataFull ≠ Cmd.dataDiff ∧
    Cmd.dataHeart ≠ Cmd.dataDiff := by decide
  cases fusionEncode_encoded hsmall (hst.stateOk hsmall) hr with
  | empty _ | noEntry _ => cases hret
  | uncached _ =>
    rw [sendFrame_outCmd hret]
    exact ⟨fun h => absurd h hfull.1, fun h => absurd h hfull.2.1⟩
  | @cached i e hk hfit he =>
    have hp := parsed_fits hsmall hk hfit
    rw [sendFrame_outCmd hret]
    by_cases hsame : SameStructure e (parsed c call.fullBody)
    · by_cases hheld : Holds e.lastVals 0 (parsed c call.fullBody).slots
      · simp only [chosenCmd, chosenBody, if_pos hsame, if_pos hheld] at hret ⊢
        refine ⟨fun _ => ?_, fun h => absurd h hfull.2.2⟩
        rw [sendFrame_frame hret (by decide), length_packetFrame]
        rfl
      · simp only [chosenCmd, chosenBody, if_pos hsame, if_neg hheld] at hret ⊢
        refine ⟨fun h => absurd h.symm hfull.2.2, fun _ => ?_⟩
        have hdiff : (diffBody e (parsed c call.fullBody)).length =
            ((keptSensors c call.fullBody).length * 2 + 7) / 8 +
              changedSize e.lastVals 0 (slotsOf (keptSensors c call.fullBody)) := by
          simp only [diffBody, List.length_append, length_beBytes, length_changedTexts,
            sensorCount_parsed]
          rfl
        have hchanged := changedSize_le e.lastVals 0 (slotsOf (keptSensors c call.fullBody))
        have hslots := textsSize_slots_lt hk
        rw [sendFrame_frame hret (length_diffBody_lt hsmall e hp), length_packetFrame,
          length_packetFrame, hdiff]
        omega
    · simp only [chosenCmd, if_neg hsame]
      exact ⟨fun h => absurd h hfull.1, fun h => absurd h hfull.2.1⟩

/-- The first body of a stream, and one with both slots of its sensor changed. -/
def shortCall : FusionCall := ⟨1, 1, 0, ascii ".|T>m:v", 64⟩

def shortChanged : FusionCall := ⟨1, 1, 0, ascii ".|T>n:w", 64⟩

/-- The bound is met: the DIFF has 21 bytes, and the FULL would have had 23. -/
theorem short_delta_saves : ∃ st r,
    run fusionStep (fusionStateInit FusionSizes.headerDefault) [.encode shortCall ⟨[], 0, 0⟩] =
      some st ∧
    fusionEncode st shortChanged ⟨[], 0, 0⟩ = some r ∧ r.out.packet.length = 21 ∧
    r.out.packet.length + 2 * 1 + 1 ≤ 23 + (2 * 1 + 7) / 8 := by
  have hsome : ((run fusionStep (fusionStateInit FusionSizes.headerDefault)
      [.encode shortCall ⟨[], 0, 0⟩]).bind fun st => fusionEncode st shortChanged ⟨[], 0, 0⟩).map
        (fun r => (r.ret, r.out.outCmd, r.out.packet.length)) = some (true, Cmd.dataDiff, 21) := by
    decide +kernel
  obtain ⟨r, hr, heq⟩ := Option.map_eq_some_iff.mp hsome
  obtain ⟨st, hst, hr⟩ := Option.bind_eq_some_iff.mp hr
  rw [Prod.mk.injEq, Prod.mk.injEq] at heq
  obtain ⟨hret, hcmd, hlen⟩ := heq
  exact ⟨st, r, hst, hr, hlen, (delta_saves (by decide) ⟨_, hst⟩ hr hret).2 hcmd⟩

end Osfx
