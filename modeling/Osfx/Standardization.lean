import Osfx.Sizes
import Mathlib.Data.Rat.Defs

/-!
# Units and prefixes

`osfx_library_catalog.c` with its generated tables, and what `osfx_standardization.c` makes
of a value and a unit. A `double` is a rational, a constant the one it is written as, and
what is computed with them is exact.
-/

namespace Osfx

structure UnitRecord where
  key : Bytes
  ucum : Bytes
  baseUnit : Bytes
  factor : Rat
  offset : Rat
  canTakePrefix : Bool
  deriving DecidableEq, Repr

structure PrefixRecord where
  key : Bytes
  factor : Rat
  deriving DecidableEq, Repr

/-- `OSFX_UNIT_RECORDS`. -/
def unitRecords : List UnitRecord :=
  [ ⟨ascii "%", ascii "%", ascii "%", 1, 0, false⟩,
    ⟨ascii "A", ascii "A", ascii "A", 1, 0, true⟩,
    ⟨ascii "AU", ascii "AU", ascii "m", 149597870700, 0, false⟩,
    ⟨ascii "Bd", ascii "Bd", ascii "bit", 1, 0, true⟩,
    ⟨ascii "Bi", ascii "Bi", ascii "A", 10, 0, true⟩,
    ⟨ascii "By", ascii "By", ascii "bit", 8, 0, true⟩,
    ⟨ascii "Cel", ascii "Cel", ascii "K", 1, 273.14999999999998, false⟩,
    ⟨ascii "F", ascii "F", ascii "V", 1, 0, true⟩,
    ⟨ascii "Gau", ascii "Gau", ascii "A", 3.335641e-10, 0, false⟩,
    ⟨ascii "Hz", ascii "Hz", ascii "Hz", 1, 0, true⟩,
    ⟨ascii "J", ascii "J", ascii "W", 1, 0, true⟩,
    ⟨ascii "K", ascii "K", ascii "K", 1, 0, true⟩,
    ⟨ascii "Ohm", ascii "Ohm", ascii "V", 1, 0, true⟩,
    ⟨ascii "Pa", ascii "Pa", ascii "Pa", 1, 0, true⟩,
    ⟨ascii "V", ascii "V", ascii "V", 1, 0, true⟩,
    ⟨ascii "W", ascii "W", ascii "W", 1, 0, true⟩,
    ⟨ascii "ang", ascii "Ang", ascii "m", 1e-10, 0, false⟩,
    ⟨ascii "ann", ascii "year", ascii "s", 31557600, 0, true⟩,
    ⟨ascii "atm", ascii "atm", ascii "Pa", 101325, 0, false⟩,
    ⟨ascii "bar", ascii "bar", ascii "Pa", 100000, 0, true⟩,
    ⟨ascii "bit", ascii "bit", ascii "bit", 1, 0, true⟩,
    ⟨ascii "cal", ascii "cal_IT", ascii "W", 4.1867999999999999, 0, true⟩,
    ⟨ascii "cd", ascii "cd", ascii "cd", 1, 0, true⟩,
    ⟨ascii "count", ascii "{particles}", ascii "mol", 1.6605390666e-24, 0, false⟩,
    ⟨ascii "cp", ascii "[cp_i]", ascii "cd", 0.98099999999999998, 0, false⟩,
    ⟨ascii "d", ascii "d", ascii "s", 86400, 0, false⟩,
    ⟨ascii "deg/s", ascii "deg/s", ascii "Hz", 0.0027777777777777779, 0, false⟩,
    ⟨ascii "degF", ascii "[degF]", ascii "K", 0.55555555555555558, 255.37222222222223, false⟩,
    ⟨ascii "degRe", ascii "[degRe]", ascii "K", 1.25, 273.14999999999998, false⟩,
    ⟨ascii "eq", ascii "eq", ascii "mol", 1, 0, true⟩,
    ⟨ascii "ft", ascii "[ft_i]", ascii "m", 0.30480000000000002, 0, false⟩,
    ⟨ascii "g", ascii "g", ascii "g", 0.001, 0, true⟩,
    ⟨ascii "h", ascii "h", ascii "s", 3600, 0, false⟩,
    ⟨ascii "hk", ascii "[hk_i]", ascii "cd", 0.90300000000000002, 0, false⟩,
    ⟨ascii "hp", ascii "[hp_m]", ascii "W", 735.49874999999997, 0, false⟩,
    ⟨ascii "in", ascii "[in_i]", ascii "m", 0.025399999999999999, 0, false⟩,
    ⟨ascii "lb", ascii "[lb_i]", ascii "g", 0.45359237000000002, 0, false⟩,
    ⟨ascii "m", ascii "m", ascii "m", 1, 0, true⟩,
    ⟨ascii "min", ascii "min", ascii "s", 60, 0, false⟩,
    ⟨ascii "mm[Hg]", ascii "mm[Hg]", ascii "Pa", 133.32238699999999, 0, false⟩,
    ⟨ascii "mol", ascii "mol", ascii "mol", 1, 0, true⟩,
    ⟨ascii "nmi", ascii "[nmi_i]", ascii "m", 1852, 0, false⟩,
    ⟨ascii "osm", ascii "osm", ascii "mol", 1, 0, true⟩,
    ⟨ascii "oz", ascii "[oz_i]", ascii "g", 0.028349523000000001, 0, false⟩,
    ⟨ascii "psi", ascii "[psi]", ascii "Pa", 6894.7572899999996, 0, false⟩,
    ⟨ascii "rad/s", ascii "rad/s", ascii "Hz", 0.15915494309189535, 0, false⟩,
    ⟨ascii "rpm", ascii "min-1", ascii "Hz", 0.016666666666666666, 0, false⟩,
    ⟨ascii "s", ascii "s", ascii "s", 1, 0, true⟩,
    ⟨ascii "t", ascii "t", ascii "g", 1000, 0, true⟩,
    ⟨ascii "u", ascii "u", ascii "g", 1.6605390659999999e-27, 0, false⟩,
    ⟨ascii "wk", ascii "wk", ascii "s", 604800, 0, false⟩ ]

/-- `OSFX_PREFIX_RECORDS`. -/
def prefixRecords : List PrefixRecord :=
  [ ⟨ascii "Gi", 1073741824⟩,
    ⟨ascii "Ki", 1024⟩,
    ⟨ascii "Mi", 1048576⟩,
    ⟨ascii "Ti", 1099511627776⟩,
    ⟨ascii "da", 10⟩,
    ⟨ascii "E", 1e18⟩,
    ⟨ascii "G", 1000000000⟩,
    ⟨ascii "M", 1000000⟩,
    ⟨ascii "P", 1000000000000000⟩,
    ⟨ascii "Q", 1e30⟩,
    ⟨ascii "R", 1e27⟩,
    ⟨ascii "T", 1000000000000⟩,
    ⟨ascii "Y", 9.9999999999999998e23⟩,
    ⟨ascii "Z", 1e21⟩,
    ⟨ascii "a", 1.0000000000000001e-18⟩,
    ⟨ascii "c", 0.01⟩,
    ⟨ascii "d", 0.10000000000000001⟩,
    ⟨ascii "f", 1.0000000000000001e-15⟩,
    ⟨ascii "h", 100⟩,
    ⟨ascii "k", 1000⟩,
    ⟨ascii "m", 0.001⟩,
    ⟨ascii "n", 1.0000000000000001e-9⟩,
    ⟨ascii "p", 9.9999999999999998e-13⟩,
    ⟨ascii "q", 1.0000000000000001e-30⟩,
    ⟨ascii "r", 1e-27⟩,
    ⟨ascii "u", 9.9999999999999995e-7⟩,
    ⟨ascii "y", 9.9999999999999992e-25⟩,
    ⟨ascii "z", 9.9999999999999991e-22⟩ ]

/-- `tolower` of a byte. -/
def toLower (b : UInt8) : UInt8 := if 65 ≤ b ∧ b ≤ 90 then b + 32 else b

def equalsIgnoreCase (a b : Bytes) : Bool := decide (a.map toLower = b.map toLower)

/-- `osfx_library_find_unit`. -/
def findUnit (unitKey : Bytes) : Option UnitRecord :=
  unitRecords.find? fun u => equalsIgnoreCase unitKey u.key || equalsIgnoreCase unitKey u.ucum

/-- The factor, the offset and the base unit of a unit with a prefix. -/
def resolveWithPrefix (inputUnit : Bytes) : Option (Rat × Rat × Bytes) :=
  prefixRecords.findSome? fun p =>
    if p.key = [] ∨ inputUnit.length ≤ p.key.length ∨ p.key.isPrefixOf inputUnit = false then none
    else if 64 ≤ inputUnit.length - p.key.length then none
    else
      match findUnit (inputUnit.drop p.key.length) with
      | none => none
      | some u => if u.canTakePrefix then some (u.factor * p.factor, u.offset, u.baseUnit) else none

/-- What `osfx_standardize_value` computes before it copies the unit. -/
def standardized (inputValue : Rat) (inputUnit : Bytes) : Rat × Bytes :=
  match findUnit inputUnit with
  | some u => (inputValue * u.factor + u.offset, u.baseUnit)
  | none =>
    match resolveWithPrefix inputUnit with
    | some (factor, offset, baseUnit) => (inputValue * factor + offset, baseUnit)
    | none => (inputValue, inputUnit)

/-! ## Standard units -/

/-- A prefix of the catalog is taken from a unit of the catalog. -/
theorem resolveWithPrefix_some {inputUnit baseUnit : Bytes} {factor offset : Rat}
    (h : resolveWithPrefix inputUnit = some (factor, offset, baseUnit)) :
    ∃ unit u p, findUnit unit = some u ∧ p ∈ prefixRecords ∧ u.factor * p.factor = factor ∧
      u.offset = offset ∧ u.baseUnit = baseUnit := by
  obtain ⟨p, hmem, hp⟩ := List.exists_of_findSome?_eq_some h
  split at hp
  · cases hp
  · split at hp
    · cases hp
    · split at hp
      · cases hp
      · rename_i u hu
        split at hp
        · cases hp
          exact ⟨_, u, p, hu, hmem, rfl, rfl, rfl⟩
        · cases hp

/-! ## Standardising again -/

/-- `osfx_standardize_value`: the value and the unit, where the unit fits `out_unit`. -/
def Standardization.standardizeValue (inputValue : Rat) (inputUnit : Bytes) (outUnitCap : Nat) :
    Option (Rat × Bytes) :=
  let out := standardized inputValue inputUnit
  (copyText outUnitCap out.2).map fun outUnit => (out.1, outUnit)

/-- The factor, the offset and the base unit of a unit of the catalog, or of one with a
prefix. -/
def resolved (unit : Bytes) : Option (Rat × Rat × Bytes) :=
  match findUnit unit with
  | some u => some (u.factor, u.offset, u.baseUnit)
  | none => resolveWithPrefix unit

/-- What comes out of a standardisation is not changed by another. -/
def StandardisedOnce (inputValue : Rat) (inputUnit : Bytes) : Prop :=
  ∀ outUnitCap v u, Standardization.standardizeValue inputValue inputUnit outUnitCap = some (v, u) →
    Standardization.standardizeValue v u outUnitCap = some (v, u)

theorem standardized_eq (inputValue : Rat) (unit : Bytes) : standardized inputValue unit =
    match resolved unit with
    | some (factor, offset, baseUnit) => (inputValue * factor + offset, baseUnit)
    | none => (inputValue, unit) := by
  unfold standardized resolved
  cases findUnit unit with
  | some u => rfl
  | none => rfl

/-- Every base unit is one of the catalog, and all but the gram stand for themselves there. -/
theorem baseUnit_resolved : ∀ u ∈ unitRecords, resolved u.baseUnit =
    some (if u.baseUnit = ascii "g" then 1 / 1000 else 1, 0, u.baseUnit) := by
  decide +kernel

theorem gram_factor : ∀ u ∈ unitRecords, u.baseUnit = ascii "g" → u.factor ≠ 0 ∧ u.offset = 0 := by
  decide +kernel

theorem prefix_factor : ∀ p ∈ prefixRecords, p.factor ≠ 0 := by
  decide +kernel

/-- What a unit is resolved to stands for itself, but for the gram, which no unit is resolved to
with an offset. -/
theorem resolved_some {unit baseUnit : Bytes} {factor offset : Rat}
    (h : resolved unit = some (factor, offset, baseUnit)) :
    resolved baseUnit = some (if baseUnit = ascii "g" then 1 / 1000 else 1, 0, baseUnit) ∧
      (baseUnit = ascii "g" → factor ≠ 0 ∧ offset = 0) := by
  unfold resolved at h
  cases hu : findUnit unit with
  | some u =>
    rw [hu] at h
    cases h
    have hmem := List.mem_of_find?_eq_some hu
    exact ⟨baseUnit_resolved u hmem, gram_factor u hmem⟩
  | none =>
    rw [hu] at h
    obtain ⟨unit', u, p, hu', hp, rfl, rfl, rfl⟩ := resolveWithPrefix_some h
    have hmem := List.mem_of_find?_eq_some hu'
    refine ⟨baseUnit_resolved u hmem, fun hg => ?_⟩
    obtain ⟨hfactor, hoffset⟩ := gram_factor u hmem hg
    refine ⟨fun hzero => ?_, hoffset⟩
    rcases Rat.mul_eq_zero.mp hzero with hzero | hzero
    · exact hfactor hzero
    · exact prefix_factor p hp hzero

theorem Standardization.standardizeValue_some {inputValue v : Rat} {inputUnit u : Bytes}
    {outUnitCap : Nat} :
    Standardization.standardizeValue inputValue inputUnit outUnitCap = some (v, u) ↔
      standardized inputValue inputUnit = (v, u) ∧ u.length < outUnitCap := by
  simp only [Standardization.standardizeValue, Option.map_eq_some_iff, Prod.mk.injEq]
  constructor
  · rintro ⟨text, hcopy, rfl, rfl⟩
    obtain ⟨rfl, hfit⟩ := copyText_some hcopy
    exact ⟨rfl, hfit⟩
  · rintro ⟨hout, hfit⟩
    rw [hout]
    exact ⟨u, copyText_of_lt hfit, rfl, rfl⟩

theorem standardisedOnce_eq (inputValue : Rat) (inputUnit : Bytes) :
    StandardisedOnce inputValue inputUnit ↔
      standardized (standardized inputValue inputUnit).1 (standardized inputValue inputUnit).2 =
        standardized inputValue inputUnit := by
  constructor
  · intro honce
    have hfirst := Standardization.standardizeValue_some.mpr
      ⟨Eq.refl (standardized inputValue inputUnit), Nat.lt_succ_self _⟩
    exact (Standardization.standardizeValue_some.mp (honce _ _ _ hfirst)).1
  · intro hsame outUnitCap v u h
    obtain ⟨hout, hfit⟩ := Standardization.standardizeValue_some.mp h
    rw [hout] at hsame
    exact Standardization.standardizeValue_some.mpr ⟨hsame, hfit⟩

/-- A value standardised again is the same exactly if it is 0 or its unit is not one of the
catalog's grams. -/
theorem standardised_once_iff (inputValue : Rat) (inputUnit : Bytes) :
    StandardisedOnce inputValue inputUnit ↔
      inputValue = 0 ∨ (resolved inputUnit).map (fun r => r.2.2) ≠ some (ascii "g") := by
  rw [standardisedOnce_eq, standardized_eq inputValue]
  cases hr : resolved inputUnit with
  | none =>
    simp only [Option.map_none]
    rw [standardized_eq, hr]
    simp
  | some r =>
    obtain ⟨factor, offset, baseUnit⟩ := r
    obtain ⟨hbase, hgram⟩ := resolved_some hr
    simp only [standardized_eq, hbase, Option.map_some]
    by_cases hg : baseUnit = ascii "g"
    · obtain ⟨hfactor, hoffset⟩ := hgram hg
      subst hg hoffset
      rw [if_pos rfl, Prod.mk.injEq, Rat.add_zero, Rat.add_zero]
      constructor
      · rintro ⟨hscaled, -⟩
        have hzero : inputValue * factor = 0 := by grind
        exact Or.inl ((Rat.mul_eq_zero.mp hzero).resolve_right hfactor)
      · rintro (rfl | hne)
        · rw [Rat.zero_mul, Rat.zero_mul]
          exact ⟨rfl, rfl⟩
        · exact absurd rfl hne
    · rw [if_neg hg, Rat.mul_one, Rat.add_zero]
      exact iff_of_true rfl (Or.inr fun he => hg (Option.some.inj he))

/-- 1000 grams are 1 gram after the first time, and less after the second. -/
theorem gram_shrinks : ¬ ∀ inputValue inputUnit, StandardisedOnce inputValue inputUnit := by
  intro hall
  have hsame := (standardisedOnce_eq 1000 (ascii "g")).mp (hall 1000 (ascii "g"))
  exact absurd hsame (by decide +kernel)

end Osfx
