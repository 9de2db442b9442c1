import Mathlib.Data.Nat.Digits.Lemmas

/-!
# Numbers as bytes

Big-endian words of a fixed number of bytes (`beBytes`, `beNat`) and decimal
numerals without leading zeros (`decimal`), the two ways numbers stand in byte
strings. `beNat_beBytes` makes the first a round trip modulo the width;
`decimal_digits` and `decimal_length_le` say what a decimal numeral can contain and
how long it gets.
-/

namespace Numeral

/-- The `k` low bytes of `v`, the most significant first. -/
def beBytes : Nat → Nat → List UInt8
  | 0, _ => []
  | k + 1, v => UInt8.ofNat (v >>> (8 * k)) :: beBytes k v

/-- A big-endian word: the bytes are disjoint, so shifting and or-ing adds them up. -/
def beNat (l : List UInt8) : Nat :=
  l.foldl (fun acc b => acc * 256 + b.toNat) 0

@[simp] theorem length_beBytes (k v : Nat) : (beBytes k v).length = k := by
  induction k with
  | zero => rfl
  | succ k ih => simp [beBytes, ih]

theorem foldl_beNat (l : List UInt8) (acc : Nat) :
    l.foldl (fun acc b => acc * 256 + b.toNat) acc = acc * 256 ^ l.length + beNat l := by
  unfold beNat
  induction l generalizing acc with
  | nil => simp
  | cons b l ih =>
    simp only [List.foldl_cons, List.length_cons]
    rw [ih (acc * 256 + b.toNat), ih (0 * 256 + b.toNat), Nat.pow_succ]
    ring

theorem beNat_cons (b : UInt8) (l : List UInt8) :
    beNat (b :: l) = b.toNat * 256 ^ l.length + beNat l := by
  have := foldl_beNat l (0 * 256 + b.toNat)
  simpa [beNat] using this

theorem beNat_beBytes (k v : Nat) : beNat (beBytes k v) = v % 256 ^ k := by
  induction k with
  | zero => simp [beBytes, beNat, Nat.mod_one]
  | succ k ih =>
    have hs : v >>> (8 * k) = v / 256 ^ k := by
      rw [Nat.shiftRight_eq_div_pow, Nat.pow_mul]
    have hm : v % 256 ^ (k + 1) = v % 256 ^ k + 256 ^ k * (v / 256 ^ k % 256) := by
      rw [Nat.pow_succ, Nat.mod_mul]
    have hb : (UInt8.ofNat (v >>> (8 * k))).toNat = v / 256 ^ k % 256 := by
      rw [UInt8.toNat_ofNat', hs]
    rw [beBytes, beNat_cons, length_beBytes, ih, hb, hm, Nat.mul_comm, Nat.add_comm]

theorem beNat_beBytes_of_lt {k v : Nat} (h : v < 256 ^ k) : beNat (beBytes k v) = v := by
  rw [beNat_beBytes, Nat.mod_eq_of_lt h]

theorem beNat_lt (l : List UInt8) : beNat l < 256 ^ l.length := by
  induction l with
  | nil => decide
  | cons b l ih =>
    have hb := b.toNat_lt
    have hle : (b.toNat + 1) * 256 ^ l.length ≤ 256 * 256 ^ l.length :=
      Nat.mul_le_mul_right _ (by omega)
    rw [beNat_cons, List.length_cons, Nat.pow_succ, Nat.mul_comm _ 256]
    rw [Nat.add_mul] at hle
    omega

/-- A word has one numeral of its length. -/
theorem beNat_inj {l m : List UInt8} (hlen : l.length = m.length) (h : beNat l = beNat m) :
    l = m := by
  induction l generalizing m with
  | nil => exact (List.length_eq_zero_iff.mp hlen.symm).symm
  | cons b l ih =>
    cases m with
    | nil => cases hlen
    | cons d m =>
      have htail : l.length = m.length := by simpa using hlen
      have hpos : 0 < 256 ^ m.length := Nat.pow_pos (by decide)
      rw [beNat_cons, beNat_cons, htail] at h
      have hl : beNat l < 256 ^ m.length := htail ▸ beNat_lt l
      have hhead : b.toNat = d.toNat := by
        have hdiv := congrArg (· / 256 ^ m.length) h
        simpa [Nat.add_comm, Nat.add_mul_div_right _ _ hpos, Nat.div_eq_of_lt hl,
          Nat.div_eq_of_lt (beNat_lt m)] using hdiv
      rw [hhead] at h
      rw [UInt8.toNat_inj.mp hhead, ih htail (by omega)]

/-- The bytes of the number a word stands for are the word. -/
theorem beBytes_beNat (l : List UInt8) : beBytes l.length (beNat l) = l := by
  apply beNat_inj (length_beBytes _ _)
  exact beNat_beBytes_of_lt (beNat_lt l)

theorem u16_beBytes (w : UInt16) : UInt16.ofNat (beNat (beBytes 2 w.toNat)) = w := by
  rw [beNat_beBytes_of_lt w.toNat_lt, UInt16.ofNat_toNat]

theorem u32_beBytes (w : UInt32) : UInt32.ofNat (beNat (beBytes 4 w.toNat)) = w := by
  rw [beNat_beBytes_of_lt w.toNat_lt, UInt32.ofNat_toNat]

theorem u64_beBytes (w : UInt64) : UInt64.ofNat (beNat (beBytes 8 w.toNat)) = w := by
  rw [beNat_beBytes_of_lt w.toNat_lt, UInt64.ofNat_toNat]

/-- The decimal numeral `%llu` prints. -/
def decimal (n : Nat) : List UInt8 :=
  if n = 0 then [48] else (Nat.digits 10 n).reverse.map fun d => UInt8.ofNat (48 + d)

theorem decimal_ne_nil (n : Nat) : decimal n ≠ [] := by
  unfold decimal
  split
  · simp
  · rename_i h
    simpa using Nat.digits_ne_nil_iff_ne_zero.mpr h

/-- A decimal numeral consists of the characters 0 to 9. -/
theorem decimal_digits {n : Nat} {b : UInt8} (h : b ∈ decimal n) : 48 ≤ b.toNat ∧ b.toNat ≤ 57 := by
  unfold decimal at h
  split at h
  · simp at h; subst h; decide
  · simp only [List.mem_map, List.mem_reverse] at h
    obtain ⟨d, hd, rfl⟩ := h
    have := Nat.digits_lt_base (by omega : 1 < 10) hd
    rw [UInt8.toNat_ofNat', Nat.mod_eq_of_lt (by omega)]
    omega

theorem decimal_length_le {n k : Nat} (hk : 0 < k) (h : n < 10 ^ k) : (decimal n).length ≤ k := by
  unfold decimal
  split
  · exact hk
  · simp only [List.length_map, List.length_reverse]
    exact (Nat.digits_length_le_iff (b := 10) (by decide) n).mpr h

theorem decimal_u32_length (v : UInt32) : (decimal v.toNat).length ≤ 10 := by
  apply decimal_length_le (by decide)
  have := v.toNat_lt
  omega

theorem decimal_u64_length (v : UInt64) : (decimal v.toNat).length ≤ 20 := by
  apply decimal_length_le (by decide)
  have := v.toNat_lt
  omega

theorem decimal_length_mono {m n : Nat} (h : m ≤ n) : (decimal m).length ≤ (decimal n).length := by
  by_cases hm : m = 0
  · have hone : (decimal m).length = 1 := by simp [decimal, hm]
    have hpos := List.length_pos_of_ne_nil (decimal_ne_nil n)
    omega
  · have hn : n ≠ 0 := by omega
    simp only [decimal, if_neg hm, if_neg hn, List.length_map, List.length_reverse]
    exact Nat.le_length_digits_le 10 m n h

end Numeral
