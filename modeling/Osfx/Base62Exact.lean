import Mathlib.Data.Nat.Digits.Lemmas
import Mathlib.Tactic.Ring
import Osfx.Base62

/-!
# Base62 numerals and the range of a long long

`b62_round_trip_iff`: a `long long` is written and read back without an overflow exactly
if it is not the smallest one, whose negation is out of range. `b62_decode_exact_iff`: the
decoder computes modulo 2^64 and does not check the value, so it is right about a text
exactly if the number the text stands for is in range.
-/

namespace Osfx

/-- The range of a `long long`. -/
def InI64 (n : Int) : Prop := -2 ^ 63 ≤ n ∧ n < 2 ^ 63

instance (n : Int) : Decidable (InI64 n) := inferInstanceAs (Decidable (_ ∧ _))

/-! ## Digits -/

theorem toInt_eq_bmod (value : Int64) : value.toInt = (value.toUInt64.toNat : Int).bmod (2 ^ 64) :=
  BitVec.toInt_eq_toNat_bmod value.toBitVec

theorem b62Magnitude_eq (value : Int64) : b62Magnitude value = value.toInt.natAbs := by
  have hlo := value.le_toInt
  have hhi := value.toInt_lt
  unfold b62Magnitude
  split
  · rename_i hneg
    have hword := toInt_eq_bmod (-value)
    have hlt := (-value).toUInt64.toNat_lt
    simp only [Int64.lt_iff_toInt_lt, Int64.toInt_zero] at hneg
    simp only [Int64.toInt_neg, Int.bmod_def] at hword
    omega
  · rename_i hpos
    have hword := toInt_eq_bmod value
    have hlt := value.toUInt64.toNat_lt
    simp only [Int64.lt_iff_toInt_lt, Int64.toInt_zero] at hpos
    simp only [Int.bmod_def] at hword
    omega

/-- The loop writes a digit for each one that the number has. -/
theorem length_b62Low_eq {room n : Nat} (h : n < 62 ^ room) :
    (b62Low room n).length = (Nat.digits 62 n).length := by
  induction room generalizing n with
  | zero =>
    obtain rfl : n = 0 := by omega
    rfl
  | succ room ih =>
    unfold b62Low
    split
    · rename_i hzero
      rw [hzero]
      rfl
    · rename_i hne
      have hlt : n / 62 < 62 ^ room := by
        rw [Nat.pow_succ] at h
        omega
      rw [Nat.digits_def' (by decide) (by omega), List.length_cons, List.length_cons, ih hlt]

/-- Digits of the magnitude, of which 0 has one, and a minus. -/
def b62NumeralLength (value : Int64) : Nat :=
  max 1 (Nat.digits 62 value.toInt.natAbs).length + if value.toInt < 0 then 1 else 0

/-- A number is written exactly if its digits, its sign and a NUL fit. -/
theorem b62EncodeI64_isSome (value : Int64) (outLen : Nat) :
    (b62EncodeI64 value outLen).isSome = true ↔ b62NumeralLength value + 1 ≤ outLen := by
  have hlt : b62Magnitude value < 62 ^ 95 :=
    Nat.lt_of_lt_of_le (b62Magnitude_lt value) (Nat.pow_le_pow_right (by decide) (by decide))
  have hlen := length_b62Low_eq hlt
  have hsign : value < 0 ↔ value.toInt < 0 := by rw [Int64.lt_iff_toInt_lt, Int64.toInt_zero]
  rw [b62Magnitude_eq] at hlen
  unfold b62EncodeI64
  by_cases hshort : outLen < 2
  · rw [if_pos hshort]
    simp only [Option.isSome_none, Bool.false_eq_true, false_iff, b62NumeralLength]
    omega
  rw [if_neg hshort]
  by_cases hzero : value = 0
  · rw [if_pos hzero, hzero]
    have hone : b62NumeralLength 0 = 1 := by decide
    simp only [Option.isSome_some, hone, true_iff]
    omega
  have hdigits : (b62Low 95 value.toInt.natAbs).reverse ≠ [] := by
    rw [ne_eq, List.reverse_eq_nil_iff, ← b62Magnitude_eq]
    exact b62Low_ne_nil (b62Magnitude_ne_zero hzero)
  have hpos : 0 < (Nat.digits 62 value.toInt.natAbs).length := by
    rw [← hlen, ← List.length_reverse]
    exact List.length_pos_of_ne_nil hdigits
  simp only [if_neg hzero, b62Magnitude_eq, if_neg hdigits, List.length_reverse, hlen, hsign,
    b62NumeralLength, Nat.max_eq_right hpos]
  by_cases hroom : (Nat.digits 62 value.toInt.natAbs).length +
      (if value.toInt < 0 then 1 else 0) + 1 > outLen
  · rw [if_pos hroom]
    simpa using hroom
  · rw [if_neg hroom]
    simpa using hroom

/-! ## Signed operations -/

/-- The exact result of each signed operation of `osfx_b62_encode_i64`: the negation in
front of the conversion to unsigned. -/
def b62EncodeSigned (value : Int64) (outLen : Nat) : List Int :=
  if 2 ≤ outLen ∧ value < 0 then [-value.toInt] else []

def b62DigitSigned (ch : UInt8) : List Int :=
  let c : Int := ch.toNat
  if 48 ≤ c ∧ c ≤ 57 then [c - 48]
  else if 97 ≤ c ∧ c ≤ 122 then [c - 97, 10 + (c - 97)]
  else if 65 ≤ c ∧ c ≤ 90 then [c - 65, 36 + (c - 65)]
  else []

/-- Those of the digit loop, which stops at what is no digit. -/
def b62ValSigned : Bytes → List Int
  | [] => []
  | ch :: rest => b62DigitSigned ch ++ if (b62Digit ch).isSome then b62ValSigned rest else []

/-- Those of `osfx_b62_decode_i64`: the digits, and the negation behind the conversion to
signed. -/
def b62DecodeSigned : Bytes → List Int
  | [] => []
  | ch :: rest =>
    if ch = 45 then
      b62ValSigned rest ++
        if rest = [] then [] else ((b62Val 0 rest).map fun val => -val.toInt64.toInt).toList
    else b62ValSigned (ch :: rest)

theorem mem_b62ValSigned {s : Bytes} {n : Int} (h : n ∈ b62ValSigned s) : InI64 n := by
  induction s with
  | nil => cases h
  | cons ch s ih =>
    rw [b62ValSigned, List.mem_append] at h
    obtain h | h := h
    · have hlt := ch.toNat_lt
      have hsmall : 0 ≤ n ∧ n < 62 := by
        simp only [b62DigitSigned] at h
        split at h
        · rw [List.mem_singleton] at h
          omega
        split at h
        · simp only [List.mem_cons, List.not_mem_nil, or_false] at h
          omega
        split at h
        · simp only [List.mem_cons, List.not_mem_nil, or_false] at h
          omega
        · cases h
      constructor <;> omega
    · split at h
      · exact ih h
      · cases h

/-- Only a negation can leave the range, and only that of the smallest number. -/
theorem mem_b62DecodeSigned {s : Bytes} {n : Int} (h : n ∈ b62DecodeSigned s) :
    InI64 n ∨ ∃ value, b62DecodeI64 s = some (-value) ∧ n = -value.toInt := by
  cases s with
  | nil => cases h
  | cons ch rest =>
    by_cases hminus : ch = 45
    · rw [b62DecodeSigned, if_pos hminus, List.mem_append] at h
      obtain h | h := h
      · exact Or.inl (mem_b62ValSigned h)
      · split at h
        · cases h
        rename_i hrest
        obtain ⟨val, hval, rfl⟩ := Option.map_eq_some_iff.mp (Option.mem_toList.mp h)
        refine Or.inr ⟨val.toInt64, ?_, rfl⟩
        rw [b62DecodeI64, if_pos hminus, if_neg hrest, hval]
        rfl
    · rw [b62DecodeSigned, if_neg hminus] at h
      exact Or.inl (mem_b62ValSigned h)

theorem inI64_neg {value : Int64} (h : value ≠ Int64.minValue) : InI64 (-value.toInt) := by
  have hlo := value.le_toInt
  have hhi := value.toInt_lt
  have hne : value.toInt ≠ -2 ^ 63 := fun hmin => h (Int64.toInt.inj hmin)
  constructor <;> omega

/-! ## The round trip -/

/-- `value` is written into 13 bytes or more and read back, no signed operation leaves the
range, and a smaller buffer is refused exactly if the numeral does not fit. -/
structure B62RoundTrip (value : Int64) : Prop where
  read_back : ∀ outLen, 13 ≤ outLen →
    ∃ text, b62EncodeI64 value outLen = some text ∧ b62DecodeI64 text = some value
  encode_range : ∀ outLen, ∀ n ∈ b62EncodeSigned value outLen, InI64 n
  decode_range : ∀ outLen text, b62EncodeI64 value outLen = some text →
    ∀ n ∈ b62DecodeSigned text, InI64 n
  room : ∀ outLen, (b62EncodeI64 value outLen).isSome = true ↔ b62NumeralLength value + 1 ≤ outLen

/-- What is written is the numeral, whatever the room. -/
theorem b62EncodeI64_some {value : Int64} {outLen : Nat} {text : Bytes}
    (h : b62EncodeI64 value outLen = some text) : text = b62Numeral value := by
  unfold b62EncodeI64 at h
  by_cases hshort : outLen < 2
  · rw [if_pos hshort] at h
    cases h
  rw [if_neg hshort] at h
  unfold b62Numeral
  by_cases hzero : value = 0
  · rw [if_pos hzero] at h ⊢
    exact (Option.some.inj h).symm
  simp only [if_neg hzero, Option.ite_none_left_eq_some] at h ⊢
  exact (Option.some.inj h.2.2).symm

/-- The round trip without an overflow, for every number but the smallest. -/
theorem b62_round_trip_iff (value : Int64) : B62RoundTrip value ↔ value ≠ Int64.minValue := by
  constructor
  · rintro h rfl
    have hrange := h.encode_range 13 (-Int64.minValue.toInt) (by decide)
    revert hrange
    decide
  · intro hmin
    refine ⟨fun outLen hroom => ?_, fun outLen n hn => ?_, fun outLen text htext n hn => ?_,
      b62EncodeI64_isSome value⟩
    · exact ⟨b62Numeral value, b62EncodeI64_eq value hroom, b62DecodeI64_numeral value⟩
    · unfold b62EncodeSigned at hn
      split at hn
      · rw [List.mem_singleton] at hn
        rw [hn]
        exact inI64_neg hmin
      · cases hn
    · obtain hrange | ⟨read, hread, rfl⟩ := mem_b62DecodeSigned hn
      · exact hrange
      · rw [b62EncodeI64_some htext, b62DecodeI64_numeral, Option.some.injEq] at hread
        apply inI64_neg
        rintro rfl
        exact hmin hread

/-- The negation in the encoder overflows. -/
theorem smallest_overflows :
    b62EncodeSigned Int64.minValue 13 = [2 ^ 63] ∧ ¬ InI64 (2 ^ 63) ∧
      ¬ B62RoundTrip Int64.minValue := by
  refine ⟨by decide, by decide, fun h => ?_⟩
  have hrange := h.encode_range 13 (2 ^ 63) (by decide)
  revert hrange
  decide

/-! ## Numbers out of range -/

/-- The number an optional minus and one or more digits stand for. -/
def b62Number : Bytes → Option Int
  | [] => none
  | ch :: rest =>
    if ch = 45 then
      if rest = [] then none
      else (rest.mapM b62Digit).map fun ds => -((Nat.ofDigits 62 ds.reverse : Nat) : Int)
    else ((ch :: rest).mapM b62Digit).map fun ds => ((Nat.ofDigits 62 ds.reverse : Nat) : Int)

/-- The loop computes the number modulo 2^64. -/
theorem b62Val_eq (val : UInt64) (s : Bytes) : b62Val val s = (s.mapM b62Digit).map fun ds =>
    UInt64.ofNat (val.toNat * 62 ^ ds.length + Nat.ofDigits 62 ds.reverse) := by
  induction s generalizing val with
  | nil => simp [b62Val]
  | cons ch s ih =>
    rw [b62Val, List.mapM_cons]
    cases b62Digit ch with
    | none => rfl
    | some d =>
      simp only [Option.bind_eq_bind, Option.bind_some, ih]
      cases s.mapM b62Digit with
      | none => rfl
      | some ds =>
        have hstep : val * 62 + UInt64.ofNat d = UInt64.ofNat (val.toNat * 62 + d) := by
          rw [UInt64.ofNat_add, UInt64.ofNat_mul, UInt64.ofNat_toNat]
          rfl
        have hmod : ∀ m k : Nat, UInt64.ofNat ((UInt64.ofNat m).toNat * 62 ^ ds.length + k) =
            UInt64.ofNat (m * 62 ^ ds.length + k) := by
          intro m k
          rw [UInt64.ofNat_add, UInt64.ofNat_mul, UInt64.ofNat_toNat, ← UInt64.ofNat_mul,
            ← UInt64.ofNat_add]
        have hsum : (val.toNat * 62 + d) * 62 ^ ds.length + Nat.ofDigits 62 ds.reverse =
            val.toNat * 62 ^ (ds.length + 1) +
              (Nat.ofDigits 62 ds.reverse + 62 ^ ds.length * d) := by
          ring
        simp only [Option.map_some, hstep, hmod, Option.bind_some, Option.pure_def,
          List.length_cons, List.reverse_cons, Nat.ofDigits_append, Nat.ofDigits_singleton,
          List.length_reverse, hsum]

/-- The digit loop gives the residue of the number the digits stand for. -/
theorem b62Val_zero (s : Bytes) : b62Val 0 s =
    (s.mapM b62Digit).map fun ds => UInt64.ofNat (Nat.ofDigits 62 ds.reverse) := by
  rw [b62Val_eq]
  simp

/-- The decoder gives the number of a text modulo 2^64. -/
theorem b62DecodeI64_eq (s : Bytes) : b62DecodeI64 s = (b62Number s).map Int64.ofInt := by
  have hcast : ∀ n : Nat, (UInt64.ofNat n).toInt64 = Int64.ofInt n := by
    intro n
    rw [UInt64.toInt64_ofNat', Int64.ofInt_eq_ofNat]
  cases s with
  | nil => rfl
  | cons ch rest =>
    rw [b62DecodeI64, b62Number]
    by_cases hminus : ch = 45
    · rw [if_pos hminus, if_pos hminus]
      by_cases hrest : rest = []
      · rw [if_pos hrest, if_pos hrest]
        rfl
      · rw [if_neg hrest, if_neg hrest, b62Val_zero, Option.map_map, Option.map_map]
        congr 1
        funext ds
        simp only [Function.comp_apply, hcast, Int64.ofInt_neg]
    · rw [if_neg hminus, if_neg hminus, b62Val_zero, Option.map_map, Option.map_map]
      exact congrArg (fun f => Option.map f _) (funext fun ds => hcast _)

/-- `*ok` is set exactly for the numbers in range, and the number is returned. -/
def DecodesExactly (s : Bytes) : Prop :=
  (b62DecodeI64 s).map Int64.toInt = (b62Number s).filter fun n => InI64 n

/-- The decoder is right about a text exactly if the number it stands for, if any, is in
range. -/
theorem b62_decode_exact_iff (s : Bytes) :
    DecodesExactly s ↔ ∀ n, b62Number s = some n → InI64 n := by
  unfold DecodesExactly
  rw [b62DecodeI64_eq]
  cases b62Number s with
  | none => simp
  | some n =>
    constructor
    · rintro h m hm
      cases hm
      refine Decidable.byContradiction fun hout => ?_
      simp [Option.filter, hout] at h
    · intro h
      have hrange := h n rfl
      simp only [Option.map_some, Option.filter, decide_eq_true hrange, if_true,
        Int64.toInt_ofInt_of_le hrange.1 hrange.2]

/-- 2^63 is taken for the smallest `long long`. -/
theorem too_large_accepted : b62Number (ascii "aZl8N0y58M8") = some (2 ^ 63) ∧
    b62DecodeI64 (ascii "aZl8N0y58M8") = some Int64.minValue ∧
    ¬ DecodesExactly (ascii "aZl8N0y58M8") := by
  have hnumber : b62Number (ascii "aZl8N0y58M8") = some (2 ^ 63) := by decide +kernel
  have hdecode : b62DecodeI64 (ascii "aZl8N0y58M8") = some Int64.minValue := by decide +kernel
  refine ⟨hnumber, hdecode, fun h => ?_⟩
  rw [DecodesExactly, hnumber, hdecode] at h
  revert h
  decide

end Osfx
