import Osfx.Fusion.Failure
import Osfx.Fusion.Selection
import Osfx.Lib.Watch

/-!
# Packets delivered again

What a packet leaves in the table makes the same packet harmless: the texts it stores are
held already, and what it hands out is read from them. So a packet that arrives several
times in a row, accepted or refused, is answered the same each time and changes the
table once (`redelivery_harmless`).
-/

namespace Osfx

open SlotTable Numeral Text Cells Streams

variable {c : FusionSizes}

/-! ## An entry a packet has been applied to -/

theorem holds_storeFields {m k : Nat} {fields : List (Nat × Bytes)} {cells : Vector (Cell m) k}
    {i : Nat} {b : Bytes} (hh : FieldCached cells (i, b)) (hne : ∀ f ∈ fields, f.1 ≠ i) :
    FieldCached (storeFields cells fields) (i, b) := by
  obtain ⟨⟨hi, hb⟩, -⟩ := hh
  refine ⟨⟨hi, ?_⟩, trivial⟩
  rw [getElem_storeFields_ne hi hne]
  exact hb

/-- The fields of a DIFF have ascending slots, so none overwrites another. -/
theorem fieldCached_stored {m k : Nat} (hm : m ≤ 256) {mask n j : Nat} {body : Bytes}
    (cells : Vector (Cell m) k) (hroom : j + n ≤ k) :
    ∀ f ∈ (diffFields m mask n j body).1,
      FieldCached (storeFields cells (diffFields m mask n j body).1) f := by
  induction n generalizing j body cells with
  | zero => simp [diffFields]
  | succ n ih =>
    unfold diffFields
    split
    · cases body with
      | nil => simp
      | cons len body =>
        simp only
        split
        · simp
        · rename_i hlen
          have hj : j < k := by omega
          have hfit : (body.take len.toNat).length < 256 ∧ (body.take len.toNat).length < m := by
            rw [List.length_take]
            omega
          have hlater : ∀ f ∈ (diffFields m mask n (j + 1) (body.drop len.toNat)).1,
              j + 1 ≤ f.1 ∧ f.1 < j + 1 + n ∧ Fits m f.2 := diffFields_fits hm
          rw [List.forall_mem_cons]
          simp only [storeFields, dif_pos hj]
          constructor
          · apply holds_storeFields
            · exact ⟨⟨hj, by simpa using Cell.bytes_store (c := cells[j]) hfit.1 hfit.2⟩, trivial⟩
            · intro f hf
              have := (hlater f hf).1
              omega
          · exact ih _ (by omega)
    · exact ih _ (by omega)

theorem applied_again (hc : c.FieldsFit) {e : FusionEntry c} (hok : EntryOk e) (body : Bytes) :
    applied (applied e body) body = applied e body := by
  have hread : diffRead (applied e body) body = diffRead e body := rfl
  rw [applied_eq_self hc (entryOk_applied hc hok body), hread]
  intro f hf
  rw [diffRead] at hf
  split at hf
  · cases hf
  · rename_i hstop
    have hstored := fieldCached_stored hc.valLen_le e.lastVals
      (by simpa using hok.vals_le : 0 + e.valCount.toNat ≤ c.maxVals) f hf
    simpa only [applied, diffRead, if_neg hstop] using hstored

theorem refreshed_again (hc : c.FieldsFit) {e : FusionEntry c} {p : Parsed} (hok : EntryOk e)
    (hp : ParsedFits c p) : refreshed (refreshed e p) p = refreshed e p :=
  (refreshed_eq_self hc (entryOk_refreshed hc hp e hok) hp).mpr (caches_refreshed hc e hp)

/-! ## The same packet twice -/

/-- A FULL that was learned is learned again as the same entry. -/
theorem learned_again (hc : c.Small) {st : FusionState c} (hok : StateOk st) (aid : UInt32)
    (tid : UInt8) {body : Bytes} (hfit : SlotsFit c body) :
    learned (learned st aid tid body) aid tid body = learned st aid tid body := by
  by_cases hk : keptSensors c body = []
  · simp only [learned, if_pos hk]
  cases he : findOrAllocEntry st aid tid with
  | none => simp only [learned, if_neg hk, he]
  | some ie =>
    obtain ⟨i, e⟩ := ie
    have hentry := findOrAllocEntry_some he
    have heok := hentry.entryOk hc hok
    have hp := parsed_fits hc hk hfit
    have hset : learned st aid tid body = st.set i (refreshed e (parsed c body)) i.isLt := by
      simp only [learned, if_neg hk, he]
    rw [hset, learned_eq_self hc (stateOk_refreshed hc hok he hk hfit) hfit]
    refine Or.inr (Or.inr ⟨i, ?_, ?_⟩)
    · exact hentry.findEntry_set hok hentry.used hentry.key (entryOk_refreshed hc hp e heok)
    · rw [get_set_self]
      exact caches_refreshed hc e hp

/-- The packet is answered as before, and the table stays as it is. -/
theorem fusionDecodeApply_again (hc : c.Small) {st : FusionState c} (hok : StateOk st)
    {packet : Bytes} {cap : Nat} {r : DecodeResult c}
    (h : fusionDecodeApply st packet cap = some r) :
    fusionDecodeApply r.state packet cap = some r := by
  cases fusionDecodeApply_decoded hc hok h with
  | unread _ | heart _ _ _ | refused _ _ _ => exact h
  | @full pm hm hcmd hfit =>
    rw [fusionDecodeApply_full hc cap hm hcmd, if_pos hfit, learned_again hc hok _ _ hfit]
  | @diff pm i hm hcmd hi =>
    have heok := entryOk_applied hc (hok.entry i) (pm.body packet)
    have hfind : findEntry (st.set i (applied (st.get i) (pm.body packet)) i.isLt) pm.sourceAid
        pm.tid = some i := by
      obtain ⟨hused, hkey⟩ := lookup_some hi
      exact (EntryOf.cached hi).findEntry_set hok hused hkey heok
    have hread : diffRead (applied (st.get i) (pm.body packet)) (pm.body packet) =
        diffRead (st.get i) (pm.body packet) := rfl
    have hget : (st.set i (applied (st.get i) (pm.body packet)) i.isLt).get i =
        applied (st.get i) (pm.body packet) := get_set_self _ _ _
    rw [fusionDecodeApply_diff cap hm hcmd hfind,
      decodeDiff_eq hc (by rw [hget]; exact heok), hget, applied_again hc (hok.entry i), hread]
    simp only [Vector.set_set]

/-! ## Runs -/

/-- A packet that arrives, and the buffer its body is handed out in. -/
structure Arrival where
  packet : Bytes
  outBodyCap : Nat
  deriving DecidableEq

/-- What a packet is answered: the body and the metadata, nothing if it is refused. -/
abbrev DecodeAnswer := Option (Bytes × PacketMeta)

def decodeStep (st : FusionState c) (x : Arrival) : Option (FusionState c × DecodeAnswer) :=
  (fusionDecodeApply st x.packet x.outBodyCap).map fun r => (r.state, r.out)

theorem decodeStep_some {st st' : FusionState c} {x : Arrival} {a : DecodeAnswer} :
    decodeStep st x = some (st', a) ↔
      fusionDecodeApply st x.packet x.outBodyCap = some ⟨st', a⟩ := by
  rw [decodeStep, Option.map_eq_some_iff]
  constructor
  · rintro ⟨r, hr, heq⟩
    cases heq
    exact hr
  · exact fun h => ⟨_, h, rfl⟩

theorem decodeStep_stateOk (hc : c.FieldsFit) {st st' : FusionState c} {x : Arrival}
    {a : DecodeAnswer} (hok : StateOk st) (h : decodeStep st x = some (st', a)) : StateOk st' := by
  apply fusionStep_stateOk hc st (.decode x.packet x.outBodyCap) st' hok
  rw [fusionStep, decodeStep_some.mp h]
  rfl

/-- Packets that are delivered again, however often, leave the table they would have left
and are answered as they were. -/
theorem redelivery_harmless (hc : c ∈ FusionSizes.shipped) {st st' : FusionState c}
    (hst : Reachable st) {arrivals : List (Arrival × Nat)} {log : List (Arrival × DecodeAnswer)}
    (hrun : trace decodeStep st (arrivals.map Prod.fst) = some (st', log)) :
    trace decodeStep st (echoed arrivals) =
      some (st', echoed (log.zip (arrivals.map Prod.snd))) := by
  have hsmall := FusionSizes.shipped_small hc
  have hfit : c.FieldsFit := hsmall
  apply trace_echoed (I := StateOk) _ _ (hst.stateOk hfit) hrun
  · exact fun s x t a hok hstep => decodeStep_stateOk hfit hok hstep
  · intro s x t a hok hstep
    exact decodeStep_some.mpr (fusionDecodeApply_again hsmall hok (decodeStep_some.mp hstep))

/-- A FULL that arrives three times, and a HEART that arrives twice. -/
def repeatedArrivals : List (Arrival × Nat) :=
  [(⟨firstFull, 512⟩, 2), (⟨packetFrame Cmd.dataHeart 1 1 7 [], 512⟩, 1)]

theorem repeated_arrivals_harmless : ∃ st log,
    trace decodeStep (fusionStateInit FusionSizes.headerDefault)
      (repeatedArrivals.map Prod.fst) = some (st, log) ∧
    trace decodeStep (fusionStateInit FusionSizes.headerDefault) (echoed repeatedArrivals) =
      some (st, echoed (log.zip (repeatedArrivals.map Prod.snd))) := by
  have hsome : (trace decodeStep (fusionStateInit FusionSizes.headerDefault)
      (repeatedArrivals.map Prod.fst)).isSome = true := by decide +kernel
  obtain ⟨⟨st, log⟩, hrun⟩ := Option.isSome_iff_exists.mp hsome
  exact ⟨st, log, hrun, redelivery_harmless (by decide) ⟨[], rfl⟩ hrun⟩

end Osfx
