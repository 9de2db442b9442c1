import Osfx.Fusion.Selection

/-!
# Stretches without a FULL

Only a new template, or a body without a sensor, makes the encoder send a FULL again
(`stretch_without_full_iff`). No count of packets does: a stream whose body stays the same
is never sent in full after its first packet (`no_bound_on_full`).
-/

namespace Osfx

open Streams

variable {c : FusionSizes}

theorem selectedCmd_ne_full {prev : Option Parsed} {p : Parsed} :
    selectedCmd prev p ≠ Cmd.dataFull ↔
      ∃ q, prev = some q ∧ p.sensorCount ≠ 0 ∧ SameTemplate q p := by
  unfold selectedCmd
  cases prev with
  | none => simp
  | some q =>
    by_cases h : p.sensorCount = 0 ∨ ¬ SameTemplate q p
    · have hno : ¬ (p.sensorCount ≠ 0 ∧ SameTemplate q p) := by
        rintro ⟨hpos, hsame⟩
        rcases h with hz | hn
        · exact hpos hz
        · exact hn hsame
      simpa [h] using hno
    · have hyes : p.sensorCount ≠ 0 ∧ SameTemplate q p := by
        rw [not_or, not_not] at h
        exact h
      refine ⟨fun _ => ⟨q, rfl, hyes⟩, fun _ => ?_⟩
      simp only [if_neg h]
      split <;> decide

/-- Template sameness goes through the parse in between. -/
theorem sameTemplate_trans {q p r : Parsed} (h : SameTemplate q p) :
    SameTemplate p r ↔ SameTemplate q r := by
  have htwice : cString p.sigBase = cString q.sigBase := by
    rw [← h.1, cString_eq_self (nul_not_mem_cString _)]
  rw [SameTemplate, SameTemplate, htwice, h.2]

/-- Every body of the stream in a stretch has a sensor and the template of the latest one
before it. -/
def KeepsTemplate (c : FusionSizes) (k : UInt32 × UInt8) (before stretch : List FusionCall) :
    Prop :=
  (∀ call ∈ stretch, call.stream ≠ k) ∨
  ∃ q, latest c k before = some q ∧ ∀ call ∈ stretch, call.stream = k →
    keptSensors c call.fullBody ≠ [] ∧ SameTemplate q (parsed c call.fullBody)

theorem keepsTemplate_other {k : UInt32 × UInt8} {before stretch : List FusionCall}
    {call : FusionCall} (h : call.stream ≠ k) :
    KeepsTemplate c k before (call :: stretch) ↔ KeepsTemplate c k (before ++ [call]) stretch := by
  have hsame : latest c k (before ++ [call]) = latest c k before := by
    rw [latest_append, if_neg fun hn => h hn.1]
  simp [KeepsTemplate, hsame, h]

theorem keepsTemplate_own {k : UInt32 × UInt8} {before stretch : List FusionCall}
    {call : FusionCall} (h : call.stream = k) : KeepsTemplate c k before (call :: stretch) ↔
      selectedCmd (latest c k before) (parsed c call.fullBody) ≠ Cmd.dataFull ∧
      KeepsTemplate c k (before ++ [call]) stretch := by
  rw [selectedCmd_ne_full]
  have hcount : (parsed c call.fullBody).sensorCount ≠ 0 ↔ keptSensors c call.fullBody ≠ [] := by
    simp
  rw [hcount]
  constructor
  · rintro (hnone | ⟨q, hq, hall⟩)
    · exact absurd h (hnone call List.mem_cons_self)
    · obtain ⟨hk, hsame⟩ := hall call List.mem_cons_self h
      refine ⟨⟨q, hq, hk, hsame⟩, Or.inr ⟨parsed c call.fullBody, ?_, fun x hx hxk => ?_⟩⟩
      · rw [latest_append, if_pos ⟨h, hk⟩]
      · obtain ⟨hxs, hxt⟩ := hall x (List.mem_cons_of_mem call hx) hxk
        exact ⟨hxs, (sameTemplate_trans hsame).mpr hxt⟩
  · rintro ⟨⟨q, hq, hk, hsame⟩, hrest⟩
    refine Or.inr ⟨q, hq, fun x hx hxk => ?_⟩
    rcases List.mem_cons.mp hx with rfl | hx
    · exact ⟨hk, hsame⟩
    · rcases hrest with hnone | ⟨p, hp, hall⟩
      · exact absurd hxk (hnone x hx)
      · rw [latest_append, if_pos ⟨h, hk⟩] at hp
        cases hp
        obtain ⟨hxs, hxt⟩ := hall x hx hxk
        exact ⟨hxs, (sameTemplate_trans hsame).mp hxt⟩

/-- A stretch of a run has no FULL of a stream exactly if the stream keeps its template. -/
theorem stretch_without_full_iff (hc : c.Small) {calls : List EncodeCall} {st : FusionState c}
    {log : List (EncodeCall × EncodeAnswer)}
    (hrun : trace encodeStep (fusionStateInit c) calls = some (st, log))
    (hret : ∀ r ∈ log, r.2.1 = true) (k : UInt32 × UInt8)
    {before stretch after : List (EncodeCall × EncodeAnswer)}
    (hlog : log = before ++ stretch ++ after) :
    (∀ r ∈ stretch, r.1.call.stream = k → r.2.2.outCmd ≠ Cmd.dataFull) ↔
      KeepsTemplate c k (before.map fun r => r.1.call) (stretch.map fun r => r.1.call) := by
  have hsent := run_sent hc hrun hret
  clear hrun hret
  induction stretch generalizing before with
  | nil => simp [KeepsTemplate]
  | cons r stretch ih =>
    have hstep := @ih (before ++ [r]) (by simpa using hlog)
    have hhere := (hsent before r (stretch ++ after) (by simpa using hlog)).cmd
    rw [List.map_append, List.map_singleton] at hstep
    rw [List.forall_mem_cons, List.map_cons]
    by_cases hk : r.1.call.stream = k
    · rw [keepsTemplate_own hk, hhere, hk]
      refine and_congr ?_ hstep
      simp
    · rw [keepsTemplate_other hk]
      refine Iff.trans ?_ hstep
      simp [hk]

theorem fourCalls_stretch_iff : ∃ st log,
    trace encodeStep (fusionStateInit FusionSizes.headerDefault) fourCalls = some (st, log) ∧
    ((∀ r ∈ log.drop 2, r.1.call.stream = (1, 1) → r.2.2.outCmd ≠ Cmd.dataFull) ↔
      KeepsTemplate FusionSizes.headerDefault (1, 1) ((log.take 2).map fun r => r.1.call)
        ((log.drop 2).map fun r => r.1.call)) := by
  obtain ⟨st, log, hrun, hret⟩ := fourCalls_run
  have hsplit : log = log.take 2 ++ log.drop 2 ++ [] := by
    rw [List.append_nil, List.take_append_drop]
  exact ⟨st, log, hrun, stretch_without_full_iff (FusionSizes.shipped_small (by decide)) hrun hret
    (1, 1) hsplit⟩

/-! ## A stream that does not change -/

/-- A call that is made again and again. -/
def sameCall : EncodeCall := ⟨⟨1, 1, 7, ascii "A.U.7|T>m:v|", 512⟩, ⟨[], 0, 0⟩⟩

/-- The second packet is a HEART and leaves the table as it is. -/
def settles (first : Option (FusionState FusionSizes.headerDefault × EncodeAnswer)) : Bool :=
  first.any fun r => r.2.1 && (encodeStep r.1 sameCall).any fun s =>
    decide (s.1 = r.1) && s.2.1 && s.2.2.outCmd == Cmd.dataHeart

theorem sameCall_settles : ∃ st full heart,
    encodeStep (fusionStateInit FusionSizes.headerDefault) sameCall = some (st, true, full) ∧
    encodeStep st sameCall = some (st, true, heart) ∧ heart.outCmd = Cmd.dataHeart := by
  have hcheck :
      settles (encodeStep (fusionStateInit FusionSizes.headerDefault) sameCall) = true := by
    decide +kernel
  cases hfirst : encodeStep (fusionStateInit FusionSizes.headerDefault) sameCall with
  | none =>
    rw [hfirst] at hcheck
    cases hcheck
  | some r =>
    rw [hfirst, settles, Option.any_some, Bool.and_eq_true] at hcheck
    obtain ⟨st, ret, full⟩ := r
    obtain ⟨rfl, hagain⟩ := hcheck
    cases hsecond : encodeStep st sameCall with
    | none =>
      rw [hsecond] at hagain
      cases hagain
    | some s =>
      obtain ⟨st', ret', heart⟩ := s
      rw [hsecond, Option.any_some, Bool.and_eq_true, Bool.and_eq_true, decide_eq_true_eq,
        beq_iff_eq] at hagain
      obtain ⟨⟨rfl, rfl⟩, hcmd⟩ := hagain
      exact ⟨_, full, heart, rfl, hsecond, hcmd⟩

/-- However many packets of a stream are waited for, none of them need be a FULL. -/
theorem no_bound_on_full : ¬ ∃ n, ∀ (calls : List EncodeCall)
    (st : FusionState FusionSizes.headerDefault) (log : List (EncodeCall × EncodeAnswer)),
    trace encodeStep (fusionStateInit FusionSizes.headerDefault) calls = some (st, log) →
    (∀ r ∈ log, r.2.1 = true) → ∀ k before window after,
      (log.filter fun r => r.1.call.stream = k) = before ++ window ++ after → window.length = n →
      ∃ r ∈ window, r.2.2.outCmd = Cmd.dataFull := by
  rintro ⟨n, hn⟩
  obtain ⟨st, full, heart, hfirst, hagain, hcmd⟩ := sameCall_settles
  have hrest := trace_replicate encodeStep hagain n
  have hrun : trace encodeStep (fusionStateInit FusionSizes.headerDefault)
      (sameCall :: List.replicate n sameCall) =
      some (st, (sameCall, true, full) :: List.replicate n (sameCall, true, heart)) :=
    (trace_cons encodeStep).mpr ⟨st, (true, full), _, hfirst, hrest, rfl⟩
  obtain ⟨r, hr, hfull⟩ := hn _ _ _ hrun (by simp) (1, 1) [(sameCall, true, full)]
    (List.replicate n (sameCall, true, heart)) [] (by
      rw [List.append_nil, List.filter_eq_self.mpr]
      · rfl
      · intro x hx
        have hcall : x.1 = sameCall := by
          rcases List.mem_cons.mp hx with rfl | hx
          · rfl
          · rw [List.eq_of_mem_replicate hx]
        rw [hcall]
        decide) List.length_replicate
  rw [List.eq_of_mem_replicate hr, hcmd] at hfull
  exact absurd hfull (by decide)

end Osfx
