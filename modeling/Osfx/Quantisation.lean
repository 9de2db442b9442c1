import Osfx.Lib.Rounding
import Osfx.SensorPacket
import Osfx.Standardization

/-!
# Values in steps

`osfx_core_encode_sensor_packet` sends a value as a multiple of a ten-thousandth of the
standard unit. It converts the scaled value to a `long long`, which drops what comes behind
the point, and C does not say what becomes of a value that does not fit: that is `undef`.
`quantised_iff` says which values are sent as the nearest step.
-/

namespace Osfx

open Rounding

/-- `OSFX_VALUE_SCALE`. -/
def valueScale : Rat := 10000

/-- The conversion of a `double` to a `long long`. -/
def toLongLong (undef : Rat → Int64) (x : Rat) : Int64 :=
  if -2 ^ 63 - 1 < x ∧ x < 2 ^ 63 then Int64.ofInt (truncate x) else undef x

/-- The scaled value and the standard unit of a value. -/
def scaledStandard (undef : Rat → Int64) (inputValue : Rat) (inputUnit : Bytes) : Int64 × Bytes :=
  let std := standardized inputValue inputUnit
  (toLongLong undef (std.1 * valueScale), std.2)

/-- The standard value of a call. -/
def SensorCall.stdValue (call : SensorCall Rat) : Rat :=
  (standardized call.inputValue call.inputUnit).1

/-- The nearest integer of the scaled value is one of a `long long`. -/
def SensorCall.ScaledFits (call : SensorCall Rat) : Prop :=
  ∃ n : Int64, Nearest (call.stdValue * valueScale) n.toInt

/-- What is sent is the nearest step to the standard value, so that what is read from it is off
by half a step at most. A value with no such step is refused. -/
structure Quantised (undef : Rat → Int64) (call : SensorCall Rat) : Prop where
  framed : ∀ packet, coreEncodeSensorPacket (scaledStandard undef) call = some packet →
    packet = packetFrame Cmd.dataFull call.sourceAid call.tid call.timestampRaw
      (call.body (scaledStandard undef))
  nearest : ∀ packet, coreEncodeSensorPacket (scaledStandard undef) call = some packet →
    Nearest (call.stdValue * valueScale) (call.scaled (scaledStandard undef)).toInt
  close : ∀ packet, coreEncodeSensorPacket (scaledStandard undef) call = some packet →
    |((call.scaled (scaledStandard undef)).toInt : Rat) / valueScale - call.stdValue| ≤ 1 / 20000
  refused : ¬ call.ScaledFits → coreEncodeSensorPacket (scaledStandard undef) call = none

/-- The unit, the body or the packet does not fit its buffer. -/
def SensorCall.TooLong {V : Type} (resolve : V → Bytes → Int64 × Bytes) (call : SensorCall V) :
    Prop :=
  16 ≤ (call.stdUnit resolve).length ∨ 255 < (call.body resolve).length ∨
    call.outPacketCap < (call.body resolve).length + 16

/-- The scaled value is in the range of the conversion, and what is dropped of it is not more
than a half. -/
def SensorCall.TruncatesToNearest (call : SensorCall Rat) : Prop :=
  (-2 ^ 63 - 1 < call.stdValue * valueScale ∧ call.stdValue * valueScale < 2 ^ 63) ∧
    |call.stdValue * valueScale - truncate (call.stdValue * valueScale)| ≤ 1 / 2

/-! ## What is refused -/

section
variable {V : Type} {resolve : V → Bytes → Int64 × Bytes} {call : SensorCall V}

theorem sensorPacketBody_fits (hunit : (call.stdUnit resolve).length < 16)
    (hbody : (call.body resolve).length ≤ 255) :
    sensorPacketBody resolve call = some (call.body resolve) := by
  have hstd : standardizeValue resolve 16 call.inputValue call.inputUnit =
      some (call.scaled resolve, call.stdUnit resolve) := by
    have hcopy : copyText 16 (call.stdUnit resolve) = some (call.stdUnit resolve) := by
      rw [copyText, if_neg (by omega)]
    rw [standardizeValue, ← SensorCall.stdUnit, hcopy]
    rfl
  have hroom : ¬ 256 < (call.body resolve).length + 1 := by omega
  simp only [sensorPacketBody, hstd, Option.bind_eq_bind, Option.bind_some,
    b62EncodeI64_eq _ (by decide : 13 ≤ 64), u32toa_eq]
  exact if_neg hroom

/-- A call returns 0 exactly if something is too long. -/
theorem coreEncodeSensorPacket_none_iff :
    coreEncodeSensorPacket resolve call = none ↔ call.TooLong resolve := by
  by_cases hbody : sensorPacketBody resolve call = some (call.body resolve)
  · have hlen := (sensorPacketBody_some hbody).2
    obtain ⟨std, hstd, -⟩ := Option.bind_eq_some_iff.mp hbody
    obtain ⟨rfl, hlt⟩ := standardizeValue_some hstd
    have hunit : ¬ 16 ≤ (call.stdUnit resolve).length := Nat.not_le.mpr hlt
    rw [coreEncodeSensorPacket_eq hbody, SensorCall.TooLong, or_iff_right hunit,
      or_iff_right (Nat.not_lt.mpr hlen)]
    split
    · rename_i hcap
      exact iff_of_true rfl hcap
    · rename_i hcap
      exact iff_of_false (fun h => nomatch h) hcap
  · have hnone : sensorPacketBody resolve call = none := by
      cases hb : sensorPacketBody resolve call with
      | none => rfl
      | some body =>
        rw [(sensorPacketBody_some hb).1] at hb
        exact absurd hb hbody
    have hencode : coreEncodeSensorPacket resolve call = none := by
      rw [coreEncodeSensorPacket, hnone]
      rfl
    refine iff_of_true hencode (Classical.byContradiction fun hfits => ?_)
    simp only [SensorCall.TooLong, not_or, Nat.not_le, Nat.not_lt] at hfits
    exact hbody (sensorPacketBody_fits hfits.1 hfits.2.1)

end

/-! ## What is sent -/

theorem cast_low : ((-2 ^ 63 : Int) : Rat) = -2 ^ 63 := by norm_num

theorem cast_high : ((2 ^ 63 : Int) : Rat) = 2 ^ 63 := by norm_num

theorem toLongLong_toInt {x : Rat} (h : -2 ^ 63 - 1 < x ∧ x < 2 ^ 63) (undef : Rat → Int64) :
    (toLongLong undef x).toInt = truncate x := by
  have hbounds := truncate_bounds (x := x) (by decide : (-2 ^ 63 : Int) ≤ 0)
    (by decide : (0 : Int) < 2 ^ 63) (by rw [cast_low]; exact h.1) (by rw [cast_high]; exact h.2)
  rw [toLongLong, if_pos h, Int64.toInt_ofInt_of_le hbounds.1 hbounds.2]

theorem nearest_toLongLong_iff {x : Rat} (undef : Rat → Int64) :
    Nearest x (toLongLong undef x).toInt ↔
      (-2 ^ 63 - 1 < x ∧ x < 2 ^ 63) ∧ |x - truncate x| ≤ 1 / 2 := by
  constructor
  · intro h
    have hrange : -2 ^ 63 - 1 < x ∧ x < 2 ^ 63 := by
      have hwithin := nearest_range h (Int64.le_toInt _) (Int64.toInt_lt _)
      rwa [cast_low, cast_high] at hwithin
    rw [toLongLong_toInt hrange] at h
    exact ⟨hrange, nearest_iff.mp h⟩
  · rintro ⟨hrange, hhalf⟩
    rw [toLongLong_toInt hrange]
    exact nearest_iff.mpr hhalf

/-- A value is sent as the nearest step or refused, exactly if the call is too long for its
buffers anyway, or the step next to the scaled value on the side of zero is a nearest one. -/
theorem quantised_iff (undef : Rat → Int64) (call : SensorCall Rat) :
    Quantised undef call ↔ call.TooLong (scaledStandard undef) ∨ call.TruncatesToNearest := by
  have hscaled : (call.scaled (scaledStandard undef)).toInt =
      (toLongLong undef (call.stdValue * valueScale)).toInt := rfl
  constructor
  · intro h
    refine Classical.or_iff_not_imp_left.mpr fun hfits => ?_
    rw [← coreEncodeSensorPacket_none_iff] at hfits
    obtain ⟨packet, hpacket⟩ := Option.ne_none_iff_exists'.mp hfits
    have hnearest := h.nearest packet hpacket
    rw [hscaled] at hnearest
    exact (nearest_toLongLong_iff undef).mp hnearest
  · intro h
    have hsent : ∀ packet, coreEncodeSensorPacket (scaledStandard undef) call = some packet →
        Nearest (call.stdValue * valueScale) (call.scaled (scaledStandard undef)).toInt := by
      intro packet hpacket
      rcases h with hlong | hstep
      · rw [← coreEncodeSensorPacket_none_iff, hpacket] at hlong
        cases hlong
      · rw [hscaled]
        exact (nearest_toLongLong_iff undef).mpr hstep
    refine ⟨fun packet hpacket => (coreEncodeSensorPacket_some hpacket).1, hsent,
      fun packet hpacket => ?_, fun hnone => ?_⟩
    · have hclose := nearest_unscaled (by decide : 0 < valueScale) (hsent packet hpacket)
      have hstep : 1 / (2 * valueScale) = 1 / 20000 := by decide +kernel
      rwa [hstep] at hclose
    · refine Classical.byContradiction fun hsome => ?_
      obtain ⟨packet, hpacket⟩ := Option.ne_none_iff_exists'.mp hsome
      exact hnone ⟨_, hsent packet hpacket⟩

/-- 3 / 2^15 pascals, which is 0.9 of a step and more. -/
def almostStep : SensorCall Rat :=
  ⟨77, 3, 1710000103, ascii "P1", 3 / 32768, ascii "Pa", 128⟩

/-- It is sent as 0, though 1 is nearer. -/
theorem almostStep_dropped :
    almostStep.stdValue * valueScale = 1875 / 2048 ∧
    (almostStep.scaled (scaledStandard fun _ => 0)).toInt = 0 ∧
    coreEncodeSensorPacket (scaledStandard fun _ => 0) almostStep ≠ none ∧
    ¬ Quantised (fun _ => 0) almostStep := by
  have hvalue : almostStep.stdValue * valueScale = 1875 / 2048 := by decide +kernel
  have hscaled : (almostStep.scaled (scaledStandard fun _ => 0)).toInt = 0 := by decide +kernel
  have hsent : coreEncodeSensorPacket (scaledStandard fun _ => 0) almostStep ≠ none := by
    decide +kernel
  refine ⟨hvalue, hscaled, hsent, fun h => ?_⟩
  obtain ⟨packet, hpacket⟩ := Option.ne_none_iff_exists'.mp hsent
  have hnearest := nearest_iff.mp (h.nearest packet hpacket)
  rw [hvalue, hscaled] at hnearest
  norm_num [abs_of_pos] at hnearest

end Osfx
