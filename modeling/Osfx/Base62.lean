import Osfx.Sizes
import Mathlib.Algebra.Group.Nat.Defs

/-!
# Base62 numerals

`osfx_b62_encode_i64` and `osfx_b62_decode_i64` of `osfx_solidity.c`: an optional
minus and base 62 digits, the most significant first. The negation of a
`long long` wraps, as that of the smallest one does on every target.
`b62DecodeI64_numeral` is the round trip.
-/

namespace Osfx

/-- `OSFX_B62`. -/
def b62Table : Bytes := ascii "0123456789abcdefghijklmnopqrstuvwxyzABCDEFGHIJKLMNOPQRSTUVWXYZ"

/-- The digits of a number, the least significant first, while `room` lasts. -/
def b62Low : Nat → Nat → Bytes
  | 0, _ => []
  | room + 1, n => if n = 0 then [] else b62Table.getD (n % 62) 0 :: b62Low room (n / 62)

/-- The magnitude of a `long long`. -/
def b62Magnitude (value : Int64) : Nat := (if value < 0 then -value else value).toUInt64.toNat

def b62EncodeI64 (value : Int64) (outLen : Nat) : Option Bytes :=
  if outLen < 2 then none
  else if value = 0 then some [48]
  else
    let digits := (b62Low 95 (b62Magnitude value)).reverse
    if digits = [] then none
    else if digits.length + (if value < 0 then 1 else 0) + 1 > outLen then none
    else some ((if value < 0 then [45] else []) ++ digits)

def b62Digit (ch : UInt8) : Option Nat :=
  let c := ch.toNat
  if 48 ≤ c ∧ c ≤ 57 then some (c - 48)
  else if 97 ≤ c ∧ c ≤ 122 then some (10 + (c - 97))
  else if 65 ≤ c ∧ c ≤ 90 then some (36 + (c - 65))
  else none

def b62Val : UInt64 → Bytes → Option UInt64
  | val, [] => some val
  | val, ch :: rest => do
    let d ← b62Digit ch
    b62Val (val * 62 + UInt64.ofNat d) rest

/-- The value, where `*ok` is set. -/
def b62DecodeI64 : Bytes → Option Int64
  | [] => none
  | ch :: rest =>
    if ch = 45 then
      if rest = [] then none else (b62Val 0 rest).map fun val => -val.toInt64
    else (b62Val 0 (ch :: rest)).map fun val => val.toInt64

/-! ## The round trip -/

theorem b62Digit_table {d : Nat} (h : d < 62) : b62Digit (b62Table.getD d 0) = some d := by
  have all : ∀ d : Fin 62, b62Digit (b62Table.getD d.val 0) = some d.val := by decide +kernel
  exact all ⟨d, h⟩

theorem b62Val_append (val : UInt64) (s : Bytes) (ch : UInt8) :
    b62Val val (s ++ [ch]) =
      (b62Val val s).bind fun v => (b62Digit ch).map fun d => v * 62 + UInt64.ofNat d := by
  induction s generalizing val with
  | nil =>
    simp only [List.nil_append, b62Val, Option.bind_some, Option.bind_eq_bind]
    cases b62Digit ch <;> rfl
  | cons x s ih =>
    simp only [List.cons_append, b62Val, Option.bind_eq_bind]
    cases b62Digit x with
    | none => rfl
    | some d => exact ih _

theorem b62Val_b62Low {room n : Nat} (h : n < 62 ^ room) :
    b62Val 0 (b62Low room n).reverse = some (UInt64.ofNat n) := by
  induction room generalizing n with
  | zero =>
    obtain rfl : n = 0 := by omega
    rfl
  | succ room ih =>
    unfold b62Low
    split
    · rename_i hzero
      rw [hzero]
      rfl
    · have hlt : n / 62 < 62 ^ room := by
        rw [Nat.pow_succ] at h
        omega
      have hsum : n / 62 * 62 + n % 62 = n := Nat.div_add_mod' n 62
      rw [List.reverse_cons, b62Val_append, ih hlt, Option.bind_some,
        b62Digit_table (Nat.mod_lt n (by decide)), Option.map_some,
        show (62 : UInt64) = UInt64.ofNat 62 from rfl, ← UInt64.ofNat_mul, ← UInt64.ofNat_add, hsum]

theorem length_b62Low (room : Nat) {n k : Nat} (h : n < 62 ^ k) : (b62Low room n).length ≤ k := by
  induction room generalizing n k with
  | zero => exact Nat.zero_le k
  | succ room ih =>
    unfold b62Low
    split
    · exact Nat.zero_le k
    · cases k with
      | zero => omega
      | succ k =>
        have hlt : n / 62 < 62 ^ k := by
          rw [Nat.pow_succ] at h
          omega
        exact Nat.succ_le_succ (ih hlt)

theorem b62Low_ne_nil {room n : Nat} (h : n ≠ 0) : b62Low (room + 1) n ≠ [] := by
  rw [b62Low, if_neg h]
  exact List.cons_ne_nil _ _

theorem b62Magnitude_ne_zero {value : Int64} (h : value ≠ 0) : b62Magnitude value ≠ 0 := by
  intro hzero
  apply h
  have hword : (if value < 0 then -value else value).toUInt64 = 0 := UInt64.toNat.inj hzero
  have hint : (if value < 0 then -value else value) = 0 := by
    have := congrArg UInt64.toInt64 hword
    simpa using this
  split at hint
  · have := congrArg (fun v : Int64 => -v) hint
    simpa using this
  · exact hint

theorem b62Magnitude_lt (value : Int64) : b62Magnitude value < 62 ^ 11 := by
  have hlt := (if value < 0 then -value else value).toUInt64.toNat_lt
  have hpow : 2 ^ 64 ≤ 62 ^ 11 := by decide
  exact Nat.lt_of_lt_of_le hlt hpow

/-- The numeral of a number. -/
def b62Numeral (value : Int64) : Bytes :=
  if value = 0 then [48]
  else (if value < 0 then [45] else []) ++ (b62Low 95 (b62Magnitude value)).reverse

theorem length_b62Numeral (value : Int64) : (b62Numeral value).length ≤ 12 := by
  have hlen := length_b62Low 95 (b62Magnitude_lt value)
  unfold b62Numeral
  split
  · decide
  · split <;> simp <;> omega

/-- In a buffer of 13 bytes there is room for any numeral. -/
theorem b62EncodeI64_eq (value : Int64) {outLen : Nat} (h : 13 ≤ outLen) :
    b62EncodeI64 value outLen = some (b62Numeral value) := by
  have hlen := length_b62Low 95 (b62Magnitude_lt value)
  unfold b62EncodeI64 b62Numeral
  rw [if_neg (by omega)]
  split
  · rfl
  · rename_i hne
    have hdigits : (b62Low 95 (b62Magnitude value)).reverse ≠ [] := by
      rw [ne_eq, List.reverse_eq_nil_iff]
      exact b62Low_ne_nil (b62Magnitude_ne_zero hne)
    have hroom : ¬ (b62Low 95 (b62Magnitude value)).reverse.length +
        (if value < 0 then 1 else 0) + 1 > outLen := by
      rw [List.length_reverse]
      split <;> omega
    simp only [if_neg hdigits, if_neg hroom]

theorem mem_b62Low {room n : Nat} {b : UInt8} (h : b ∈ b62Low room n) : b ∈ b62Table := by
  induction room generalizing n with
  | zero => cases h
  | succ room ih =>
    unfold b62Low at h
    split at h
    · cases h
    · rcases List.mem_cons.mp h with rfl | h
      · have hlt : n % 62 < b62Table.length := Nat.mod_lt n (by decide)
        rw [List.getD_eq_getElem?_getD, List.getElem?_eq_getElem hlt, Option.getD_some]
        exact List.getElem_mem hlt
      · exact ih h

/-- A numeral is a minus and letters and digits. -/
theorem mem_b62Numeral {value : Int64} {b : UInt8} (h : b ∈ b62Numeral value) :
    b ∈ 45 :: b62Table := by
  unfold b62Numeral at h
  split at h
  · rw [List.mem_singleton] at h
    rw [h]
    decide
  · rcases List.mem_append.mp h with h | h
    · split at h
      · rw [List.mem_singleton] at h
        rw [h]
        exact List.mem_cons_self
      · cases h
    · exact List.mem_cons_of_mem _ (mem_b62Low (List.mem_reverse.mp h))

theorem b62Numeral_ne_nil (value : Int64) : b62Numeral value ≠ [] := by
  unfold b62Numeral
  split
  · decide
  · rename_i hne
    intro hnil
    have hdigits := (List.append_eq_nil_iff.mp hnil).2
    rw [List.reverse_eq_nil_iff] at hdigits
    exact b62Low_ne_nil (b62Magnitude_ne_zero hne) hdigits

/-- A numeral is read back as the number it was written for. -/
theorem b62DecodeI64_numeral (value : Int64) : b62DecodeI64 (b62Numeral value) = some value := by
  have hlt : b62Magnitude value < 62 ^ 95 :=
    Nat.lt_of_lt_of_le (b62Magnitude_lt value) (Nat.pow_le_pow_right (by decide) (by decide))
  have hval := b62Val_b62Low hlt
  unfold b62Numeral
  split
  · rename_i hzero
    rw [hzero]
    decide
  · rename_i hne
    have hdigits : (b62Low 95 (b62Magnitude value)).reverse ≠ [] := by
      rw [ne_eq, List.reverse_eq_nil_iff]
      exact b62Low_ne_nil (b62Magnitude_ne_zero hne)
    split
    · rename_i hneg
      rw [List.singleton_append, b62DecodeI64, if_pos rfl, if_neg hdigits, hval, b62Magnitude,
        if_pos hneg, UInt64.ofNat_toNat, Option.map_some, Int64.toInt64_toUInt64, Int64.neg_neg]
    · rename_i hpos
      obtain ⟨ch, rest, hcons⟩ := List.exists_cons_of_ne_nil hdigits
      have hmem : ch ∈ b62Low 95 (b62Magnitude value) := by
        rw [← List.mem_reverse, hcons]
        exact List.mem_cons_self
      have hdigit : ch ∈ b62Table := mem_b62Low hmem
      have hminus : ch ≠ 45 := by
        rintro rfl
        exact absurd hdigit (by decide)
      rw [List.nil_append, hcons, b62DecodeI64, if_neg hminus, ← hcons, hval, b62Magnitude,
        if_neg hpos, UInt64.ofNat_toNat, Option.map_some, Int64.toInt64_toUInt64]

end Osfx
