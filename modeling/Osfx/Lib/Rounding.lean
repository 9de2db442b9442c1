import Mathlib.Algebra.Order.Round
import Mathlib.Data.Rat.Floor

/-!
# Rounding to an integer

`Nearest x n` says that no integer is nearer to `x` than `n`, and `truncate` drops what
comes behind the point. A value is truncated to a nearest integer exactly if that is at
most a half.
-/

namespace Rounding

section
variable {K : Type} [Field K] [LinearOrder K] [IsStrictOrderedRing K] [FloorRing K]

def Nearest (x : K) (n : ℤ) : Prop := ∀ m : ℤ, |x - n| ≤ |x - m|

/-- The integer part, towards zero. -/
def truncate (x : K) : ℤ := if 0 ≤ x then ⌊x⌋ else ⌈x⌉

/-- Different integers are at least 1 apart. -/
theorem one_le_abs_sub {m n : ℤ} (h : m ≠ n) : (1 : K) ≤ |(m : K) - n| := by
  have hint : (1 : ℤ) ≤ |m - n| := Int.one_le_abs (sub_ne_zero.mpr h)
  have hcast : ((1 : ℤ) : K) ≤ ((|m - n| : ℤ) : K) := Int.cast_le.mpr hint
  rwa [Int.cast_one, Int.cast_abs, Int.cast_sub] at hcast

theorem nearest_iff {x : K} {n : ℤ} : Nearest x n ↔ |x - n| ≤ 1 / 2 := by
  constructor
  · intro h
    exact le_trans (h (round x)) (abs_sub_round x)
  · intro h m
    by_cases hm : m = n
    · rw [hm]
    · have hapart := one_le_abs_sub (K := K) hm
      have htriangle : |(m : K) - n| ≤ |(m : K) - x| + |x - n| := abs_sub_le _ _ _
      rw [abs_sub_comm (m : K) x] at htriangle
      linarith

omit [IsStrictOrderedRing K] in
theorem truncate_bounds {x : K} {low high : ℤ} (hlow : low ≤ 0) (hhigh : 0 < high)
    (habove : (low : K) - 1 < x) (hbelow : x < high) :
    low ≤ truncate x ∧ truncate x < high := by
  unfold truncate
  split
  · rename_i hpos
    exact ⟨le_trans hlow (Int.floor_nonneg.mpr hpos), Int.floor_lt.mpr hbelow⟩
  · rename_i hneg
    constructor
    · have hlt : low - 1 < ⌈x⌉ := by
        rw [Int.lt_ceil, Int.cast_sub, Int.cast_one]
        exact habove
      omega
    · have hle : ⌈x⌉ ≤ 0 := by
        rw [Int.ceil_le, Int.cast_zero]
        exact le_of_lt (not_le.mp hneg)
      omega

/-- A value that has a nearest integer in a range lies within a half of the range. -/
theorem nearest_range {x : K} {low high n : ℤ} (h : Nearest x n) (hlow : low ≤ n)
    (hhigh : n < high) : (low : K) - 1 < x ∧ x < high := by
  have habs := abs_le.mp (nearest_iff.mp h)
  have hge : (low : K) ≤ n := Int.cast_le.mpr hlow
  have hle : (n : K) + 1 ≤ high := by
    rw [← Int.cast_one, ← Int.cast_add]
    exact Int.cast_le.mpr hhigh
  constructor
  · linarith
  · linarith

/-- Divided by the scale again, a nearest integer is within half a step of the value. -/
theorem nearest_unscaled {x scale : K} {n : ℤ} (hscale : 0 < scale) (h : Nearest (x * scale) n) :
    |n / scale - x| ≤ 1 / (2 * scale) := by
  have hhalf := nearest_iff.mp h
  have hsub : (n : K) / scale - x = -((x * scale - n) / scale) := by
    field_simp
    ring
  rw [hsub, abs_neg, abs_div, abs_of_pos hscale, div_le_iff₀ hscale]
  refine le_trans hhalf (le_of_eq ?_)
  field_simp

end

end Rounding
