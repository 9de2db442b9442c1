import Mathlib.Algebra.BigOperators.Fin
import Mathlib.Algebra.Field.ZMod

/-!
# Shift registers of cyclic redundancy checks

A register of `n + 1` bits that takes a message bit by bit and divides it by the
polynomial `x ^ (n + 1) + g`, the highest coefficient first.

* `remainder_xor`: the register is linear in its start and in the message;
* `remainder_ne_zero_of_burst`: if `g` has its constant term, no burst that is at most
  as long as the register leaves it at zero;
* `remainder_ne_zero_of_odd`: if `g` has an odd number of terms, so that `x + 1` divides
  the polynomial, no odd number of set bits leaves the register at zero.
-/

namespace Crc

section
variable {n : Nat} (g : BitVec (n + 1))

/-- One shift: the bit that leaves the register at the top is divided out. -/
def shift (r : BitVec (n + 1)) : BitVec (n + 1) :=
  if r.msb then (r <<< 1) ^^^ g else r <<< 1

/-- A bit at the top of the register. -/
def topBit (n : Nat) (b : Bool) : BitVec (n + 1) := if b then BitVec.twoPow (n + 1) n else 0#(n + 1)

/-- Take one bit of the message. -/
def feed (r : BitVec (n + 1)) (b : Bool) : BitVec (n + 1) := shift g (r ^^^ topBit n b)

/-- The register after a message. -/
def remainder (r : BitVec (n + 1)) (bits : List Bool) : BitVec (n + 1) := bits.foldl (feed g) r

/-! ## Linearity -/

theorem xor_xor_xor {w : Nat} (a b c d : BitVec w) :
    a ^^^ b ^^^ (c ^^^ d) = a ^^^ c ^^^ (b ^^^ d) := by
  ac_rfl

theorem shift_xor (a b : BitVec (n + 1)) : shift g (a ^^^ b) = shift g a ^^^ shift g b := by
  unfold shift
  rw [BitVec.msb_xor, BitVec.shiftLeft_xor_distrib]
  cases a.msb <;> cases b.msb
  · rfl
  · exact BitVec.xor_assoc _ _ _
  · simp only [Bool.bne_false, if_true, Bool.false_eq_true, if_false]
    ac_rfl
  · simp only [bne_self_eq_false, Bool.false_eq_true, if_false, if_true]
    rw [xor_xor_xor, BitVec.xor_self, BitVec.xor_zero]

theorem shift_zero : shift g 0#(n + 1) = 0#(n + 1) := by
  simp [shift]

theorem topBit_xor (a b : Bool) : topBit n (a ^^ b) = topBit n a ^^^ topBit n b := by
  cases a <;> cases b <;> simp [topBit]

theorem feed_xor (r s : BitVec (n + 1)) (a b : Bool) :
    feed g (r ^^^ s) (a ^^ b) = feed g r a ^^^ feed g s b := by
  rw [feed, topBit_xor, xor_xor_xor, shift_xor]
  rfl

theorem remainder_append (r : BitVec (n + 1)) (a b : List Bool) :
    remainder g r (a ++ b) = remainder g (remainder g r a) b := List.foldl_append

theorem remainder_xor {a b : List Bool} (h : a.length = b.length) (r s : BitVec (n + 1)) :
    remainder g (r ^^^ s) (List.zipWith xor a b) = remainder g r a ^^^ remainder g s b := by
  induction a generalizing b r s with
  | nil =>
    have hb : b = [] := List.length_eq_zero_iff.mp h.symm
    subst hb
    rfl
  | cons x a ih =>
    cases b with
    | nil => cases h
    | cons y b =>
      have hlen : a.length = b.length := by simpa using h
      have hfeed : feed g (r ^^^ s) (x ^^ y) = feed g r x ^^^ feed g s y := feed_xor g r s x y
      simp only [remainder, List.zipWith_cons_cons, List.foldl_cons, hfeed]
      exact ih hlen _ _

/-! ## Bursts -/

theorem remainder_zeros (r : BitVec (n + 1)) (m : Nat) :
    remainder g r (List.replicate m false) = (shift g)^[m] r := by
  induction m generalizing r with
  | zero => rfl
  | succ m ih =>
    have hfeed : feed g r false = shift g r := by simp [feed, topBit]
    rw [List.replicate_succ, remainder, List.foldl_cons, hfeed]
    exact ih (shift g r)

/-- A polynomial with its constant term divides no multiple of `x` it does not divide
already. -/
theorem shift_ne_zero (hg : g.getLsbD 0 = true) {r : BitVec (n + 1)} (h : r ≠ 0#(n + 1)) :
    shift g r ≠ 0#(n + 1) := by
  unfold shift
  split
  · intro hz
    have hbit := congrArg (fun x => BitVec.getLsbD x 0) hz
    rw [BitVec.getLsbD_eq_getElem (Nat.succ_pos n)] at hg
    simp [hg] at hbit
  · rename_i hmsb
    intro hz
    apply h
    apply BitVec.eq_of_getLsbD_eq
    intro i hi
    by_cases htop : i = n
    · subst htop
      rw [BitVec.msb_eq_getLsbD_last] at hmsb
      simpa using hmsb
    · have hbit := congrArg (fun x => BitVec.getLsbD x (i + 1)) hz
      have hlt : i + 1 < n + 1 := by omega
      simpa [BitVec.getLsbD_shiftLeft, hlt, hi] using hbit

theorem shifts_ne_zero (hg : g.getLsbD 0 = true) {r : BitVec (n + 1)} (h : r ≠ 0#(n + 1))
    (m : Nat) : (shift g)^[m] r ≠ 0#(n + 1) := by
  induction m with
  | zero => exact h
  | succ m ih =>
    rw [Function.iterate_succ_apply']
    exact shift_ne_zero g hg ih

/-- The bits of a message no longer than the register, the first at the top. -/
def word (n : Nat) : List Bool → BitVec (n + 1)
  | [] => 0#(n + 1)
  | b :: bs => topBit n b ^^^ (word n bs >>> 1)

theorem word_low {bs : List Bool} {i : Nat} (h : i + bs.length < n + 1) :
    (word n bs).getLsbD i = false := by
  induction bs generalizing i with
  | nil => simp [word]
  | cons b bs ih =>
    simp only [List.length_cons] at h
    have htop : (topBit n b).getLsbD i = false := by
      have hne : n ≠ i := by omega
      unfold topBit
      split <;> simp [BitVec.getLsbD_twoPow, hne]
    rw [word, BitVec.getLsbD_xor, htop, BitVec.getLsbD_ushiftRight, ih (by omega)]
    rfl

/-- A word shifted down and taken back up by the register. -/
theorem shift_down {x : BitVec (n + 1)} (h : x.getLsbD 0 = false) : shift g (x >>> 1) = x := by
  have hmsb : (x >>> 1).msb = false := by
    rw [BitVec.msb_eq_getLsbD_last, BitVec.getLsbD_ushiftRight]
    exact BitVec.getLsbD_of_ge _ _ (by omega)
  rw [shift, hmsb, if_neg Bool.false_ne_true]
  apply BitVec.eq_of_getLsbD_eq
  intro i hi
  cases i with
  | zero => rw [BitVec.getLsbD_shiftLeft, h]; simp
  | succ i => simp [hi, Nat.add_comm 1 i]

/-- Taking a short message is adding its word to the register and shifting. -/
theorem remainder_short (r : BitVec (n + 1)) {bs : List Bool} (h : bs.length ≤ n + 1) :
    remainder g r bs = (shift g)^[bs.length] (r ^^^ word n bs) := by
  induction bs generalizing r with
  | nil => simp [remainder, word]
  | cons b bs ih =>
    simp only [List.length_cons] at h
    have hlow : (word n bs).getLsbD 0 = false := word_low (by omega)
    have hstep : feed g r b ^^^ word n bs = shift g (r ^^^ word n (b :: bs)) := by
      rw [word, ← BitVec.xor_assoc, shift_xor, shift_down g hlow, feed]
    have hrest := ih (feed g r b) (by omega)
    rw [hstep] at hrest
    rw [List.length_cons, Function.iterate_succ_apply, ← hrest]
    rfl

theorem word_ne_zero {bs : List Bool} (hlen : bs.length ≤ n + 1) (h : true ∈ bs) :
    word n bs ≠ 0#(n + 1) := by
  induction bs with
  | nil => cases h
  | cons b bs ih =>
    simp only [List.length_cons] at hlen
    intro hz
    rw [word] at hz
    have hmsb : ((word n bs) >>> 1).getLsbD n = false := by
      rw [BitVec.getLsbD_ushiftRight]
      exact BitVec.getLsbD_of_ge _ _ (by omega)
    cases b with
    | true =>
      have hbit := congrArg (fun x => BitVec.getLsbD x n) hz
      simp only [BitVec.getLsbD_xor, hmsb] at hbit
      simp [topBit] at hbit
    | false =>
      have hmem : true ∈ bs := by simpa using h
      have hdown : word n bs >>> 1 = 0#(n + 1) := by simpa [topBit] using hz
      apply ih (by omega) hmem
      rw [← shift_down 0#(n + 1) (word_low (by omega) : (word n bs).getLsbD 0 = false), hdown,
        shift_zero]

theorem word_append (a b : List Bool) : word n (a ++ b) = word n a ^^^ (word n b >>> a.length) := by
  induction a with
  | nil => simp [word]
  | cons x a ih =>
    rw [List.cons_append, word, word, ih, BitVec.ushiftRight_xor_distrib, ← BitVec.shiftRight_add,
      List.length_cons, BitVec.xor_assoc]

/-- Set bits within `len` places of each other. -/
def Burst (len : Nat) (bits : List Bool) : Prop :=
  ∃ k, ∀ i : Nat, bits[i]? = some true → k ≤ i ∧ i < k + len

theorem eq_replicate_false {bits : List Bool} (h : ∀ i : Nat, bits[i]? ≠ some true) :
    bits = List.replicate bits.length false := by
  rw [List.eq_replicate_iff]
  refine ⟨rfl, fun b hb => ?_⟩
  obtain ⟨i, hi⟩ := List.mem_iff_getElem?.mp hb
  cases b with
  | true => exact absurd hi (h i)
  | false => rfl

theorem Burst.split {len : Nat} {bits : List Bool} (h : Burst len bits) :
    ∃ before burst after, bits = List.replicate before false ++ burst ++
      List.replicate after false ∧ burst.length ≤ len := by
  obtain ⟨k, hk⟩ := h
  have hbefore : bits.take k = List.replicate (bits.take k).length false := by
    apply eq_replicate_false
    intro i hi
    rw [List.getElem?_take] at hi
    split at hi
    · have := (hk i hi).1
      omega
    · cases hi
  have hafter : bits.drop (k + len) = List.replicate (bits.drop (k + len)).length false := by
    apply eq_replicate_false
    intro i hi
    rw [List.getElem?_drop] at hi
    have := (hk _ hi).2
    omega
  refine ⟨(bits.take k).length, (bits.drop k).take len, (bits.drop (k + len)).length, ?_,
    List.length_take_le _ _⟩
  rw [← hbefore, ← hafter, List.append_assoc, ← List.drop_drop, List.take_append_drop,
    List.take_append_drop]

/-- Fed into an empty register, a burst that the register can hold does not leave it
empty, whatever zeros are around it. -/
theorem remainder_ne_zero_of_burst (hg : g.getLsbD 0 = true) {bits : List Bool}
    (hburst : Burst (n + 1) bits) (h : true ∈ bits) :
    remainder g 0#(n + 1) bits ≠ 0#(n + 1) := by
  obtain ⟨before, burst, after, rfl, hlen⟩ := hburst.split
  have hmem : true ∈ burst := by simpa using h
  have hlead : (shift g)^[before] 0#(n + 1) = 0#(n + 1) :=
    Function.iterate_fixed (shift_zero g) before
  rw [remainder_append, remainder_append, remainder_zeros, remainder_zeros, hlead,
    remainder_short g _ hlen, BitVec.zero_xor]
  exact shifts_ne_zero g hg (shifts_ne_zero g hg (word_ne_zero hlen hmem) _) _

/-- A message followed by as many bits as the register has leaves it empty exactly if
they are the register after the message. -/
theorem remainder_append_eq_zero (hg : g.getLsbD 0 = true) (r : BitVec (n + 1))
    (message : List Bool) {check : List Bool} (hlen : check.length ≤ n + 1) :
    remainder g r (message ++ check) = 0#(n + 1) ↔ remainder g r message = word n check := by
  rw [remainder_append, remainder_short g _ hlen]
  constructor
  · intro h
    refine Classical.byContradiction fun hne => ?_
    refine shifts_ne_zero g hg (fun hz => hne ?_) check.length h
    exact BitVec.xor_eq_zero_iff.mp hz
  · intro h
    rw [h, BitVec.xor_self]
    exact Function.iterate_fixed (shift_zero g) _

/-! ## Parity -/

/-- A bit as a number modulo 2. -/
def bit (b : Bool) : ZMod 2 := if b then 1 else 0

theorem bit_xor (a b : Bool) : bit (a ^^ b) = bit a + bit b := by
  revert a b
  decide

/-- The value of a polynomial at 1. -/
def parity (r : BitVec (n + 1)) : ZMod 2 := ∑ i : Fin (n + 1), bit (r.getLsbD i)

theorem parity_xor (a b : BitVec (n + 1)) : parity (a ^^^ b) = parity a + parity b := by
  simp only [parity, BitVec.getLsbD_xor, bit_xor, Finset.sum_add_distrib]

theorem parity_shiftLeft (r : BitVec (n + 1)) : parity (r <<< 1) + bit r.msb = parity r := by
  have hlow : bit ((r <<< 1).getLsbD 0) = 0 := by simp [bit]
  have hbits : ∀ i : Fin n, bit ((r <<< 1).getLsbD (i.val + 1)) = bit (r.getLsbD i.val) := by
    intro i
    have hi : i.val < n := i.isLt
    simp [hi]
  have hmsb : r.msb = r.getLsbD n := by simp [BitVec.msb_eq_getLsbD_last]
  unfold parity
  rw [Fin.sum_univ_succ, Fin.sum_univ_castSucc (fun i : Fin (n + 1) => bit (r.getLsbD i))]
  simp only [Fin.val_zero, hlow, Fin.val_succ, hbits, Fin.val_castSucc, Fin.val_last, hmsb,
    zero_add]

/-- With `x + 1` a factor of the polynomial, a shift keeps the value at 1. -/
theorem parity_shift (hg : parity g = 1) (r : BitVec (n + 1)) : parity (shift g r) = parity r := by
  have hleft := parity_shiftLeft r
  unfold shift
  cases hmsb : r.msb with
  | true =>
    rw [hmsb] at hleft
    rw [if_pos rfl, parity_xor, hg]
    exact hleft
  | false =>
    rw [hmsb] at hleft
    rw [if_neg Bool.false_ne_true]
    simpa [bit] using hleft

theorem parity_topBit (b : Bool) : parity (topBit n b) = bit b := by
  cases b with
  | false => simp [topBit, parity, bit]
  | true =>
    have hbits : ∀ i : Fin (n + 1),
        bit ((BitVec.twoPow (n + 1) n).getLsbD i.val) = if i = Fin.last n then 1 else 0 := by
      intro i
      have hi := i.isLt
      simp [bit, BitVec.getLsbD_twoPow, Fin.ext_iff, eq_comm]
    rw [topBit, if_pos rfl, parity, Finset.sum_congr rfl fun i _ => hbits i]
    simp [bit]

/-- The value at 1 of a message. -/
def weight (bits : List Bool) : ZMod 2 := (bits.map bit).sum

theorem parity_remainder (hg : parity g = 1) (r : BitVec (n + 1)) (bits : List Bool) :
    parity (remainder g r bits) = parity r + weight bits := by
  induction bits generalizing r with
  | nil => simp [remainder, weight]
  | cons b bits ih =>
    have hrest := ih (feed g r b)
    rw [feed, parity_shift g hg, parity_xor, parity_topBit, add_assoc] at hrest
    exact hrest

theorem weight_eq_count (bits : List Bool) : weight bits = (bits.count true : ZMod 2) := by
  induction bits with
  | nil => rfl
  | cons b bits ih =>
    have hcons : weight (b :: bits) = bit b + weight bits := by simp [weight]
    rw [hcons, ih]
    cases b
    · simp [bit]
    · simp [bit, add_comm]

/-- Fed into an empty register, an odd number of set bits does not leave it empty. -/
theorem remainder_ne_zero_of_odd (hg : parity g = 1) {bits : List Bool}
    (h : bits.count true % 2 = 1) : remainder g 0#(n + 1) bits ≠ 0#(n + 1) := by
  intro hz
  have hzero : parity 0#(n + 1) = 0 := by simp [parity, bit]
  have hpar := parity_remainder g hg 0#(n + 1) bits
  rw [hz, hzero, zero_add, weight_eq_count, eq_comm, ZMod.natCast_eq_zero_iff] at hpar
  omega

end

end Crc
