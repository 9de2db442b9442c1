import Osfx.Lib.Numeral
import Osfx.Sizes

/-!
# The tokens of a body header

`osfx_u32toa` and `osfx_b64url_ts6` of `osfx_solidity.c`: the address in decimal, and the
low 48 bits of the timestamp in base64url. `decimal_ne_b64urlTs6` tells the second from
the decimal numeral of a timestamp.
-/

namespace Osfx

open Numeral

/-! ## osfx_u32toa -/

/-- The digits of a number, the least significant first, while `room` lasts. -/
def u32Low : Nat → UInt32 → Bytes
  | 0, _ => []
  | room + 1, n => if n = 0 then [] else UInt8.ofNat (48 + (n % 10).toNat) :: u32Low room (n / 10)

/-- `none` is a return of 0. -/
def u32toa (n : UInt32) (cap : Nat) : Option Bytes :=
  if cap < 2 then none
  else if n = 0 then some [48]
  else
    let digits := u32Low 11 n
    if cap ≤ digits.length then none else some digits.reverse

theorem u32Low_eq {room : Nat} {n : UInt32} (h : n.toNat < 10 ^ room) :
    u32Low room n = (Nat.digits 10 n.toNat).map fun d => UInt8.ofNat (48 + d) := by
  induction room generalizing n with
  | zero =>
    have hzero : n.toNat = 0 := by omega
    rw [hzero]
    rfl
  | succ room ih =>
    unfold u32Low
    split
    · rename_i hzero
      rw [hzero]
      rfl
    · rename_i hne
      have hpos : 0 < n.toNat := by
        rw [Nat.pos_iff_ne_zero]
        exact fun hzero => hne (UInt32.toNat.inj hzero)
      have hdiv : (n / 10).toNat = n.toNat / 10 := UInt32.toNat_div n 10
      have hmod : (n % 10).toNat = n.toNat % 10 := UInt32.toNat_mod n 10
      have hlt : (n / 10).toNat < 10 ^ room := by
        rw [hdiv]
        rw [Nat.pow_succ] at h
        omega
      rw [ih hlt, hdiv, hmod, Nat.digits_def' (by decide) hpos, List.map_cons]

/-- The buffer `char[11]` holds the numeral of any address. -/
theorem u32toa_eq (n : UInt32) : u32toa n 11 = some (decimal n.toNat) := by
  have hlt := n.toNat_lt
  have hlow : u32Low 11 n = (Nat.digits 10 n.toNat).map fun d => UInt8.ofNat (48 + d) :=
    u32Low_eq (by omega)
  have hlen := decimal_u32_length n
  unfold u32toa
  rw [if_neg (by decide)]
  by_cases hzero : n = 0
  · rw [if_pos hzero, hzero]
    rfl
  · have hne : n.toNat ≠ 0 := fun h => hzero (UInt32.toNat.inj h)
    have hdigits : (u32Low 11 n).reverse = decimal n.toNat := by
      rw [hlow, decimal, if_neg hne, List.map_reverse]
    rw [← hdigits, List.length_reverse] at hlen
    simp only [if_neg hzero, if_neg (show ¬ 11 ≤ (u32Low 11 n).length by omega), hdigits]

/-! ## osfx_b64url_ts6 -/

/-- `OSFX_B64URL`. -/
def b64urlTable : Bytes :=
  ascii "ABCDEFGHIJKLMNOPQRSTUVWXYZabcdefghijklmnopqrstuvwxyz0123456789-_"

/-- The four characters of three bytes. -/
def b64urlGroup (b0 b1 b2 : UInt8) : Bytes :=
  let g := (b0.toUInt32 <<< 16) ||| (b1.toUInt32 <<< 8) ||| b2.toUInt32
  [b64urlTable.getD ((g >>> 18) &&& 0x3F).toNat 0, b64urlTable.getD ((g >>> 12) &&& 0x3F).toNat 0,
    b64urlTable.getD ((g >>> 6) &&& 0x3F).toNat 0, b64urlTable.getD (g &&& 0x3F).toNat 0]

def b64urlTs6 (timestampRaw : UInt64) : Bytes :=
  let b := fun k : UInt64 => (timestampRaw >>> k).toUInt8
  b64urlGroup (b 40) (b 32) (b 24) ++ b64urlGroup (b 16) (b 8) (b 0)

@[simp] theorem length_b64urlTs6 (timestampRaw : UInt64) : (b64urlTs6 timestampRaw).length = 8 :=
  rfl

theorem b64url_getD_mem (g : UInt32) : b64urlTable.getD (g &&& 0x3F).toNat 0 ∈ b64urlTable := by
  have hlt : (g &&& 0x3F).toNat < b64urlTable.length := by
    have hand : (g &&& 0x3F).toNat = g.toNat &&& 63 := UInt32.toNat_and g 0x3F
    have hle : g.toNat &&& 63 ≤ 63 := Nat.and_le_right
    have hlen : b64urlTable.length = 64 := by decide
    omega
  rw [List.getD_eq_getElem?_getD, List.getElem?_eq_getElem hlt, Option.getD_some]
  exact List.getElem_mem hlt

theorem mem_b64urlTs6 {timestampRaw : UInt64} {b : UInt8} (h : b ∈ b64urlTs6 timestampRaw) :
    b ∈ b64urlTable := by
  simp only [b64urlTs6, b64urlGroup, List.cons_append, List.nil_append, List.mem_cons,
    List.not_mem_nil, or_false] at h
  obtain rfl | rfl | rfl | rfl | rfl | rfl | rfl | rfl := h <;> exact b64url_getD_mem _

/-- The first character of a group stands for the six highest bits of its first byte. -/
theorem b64url_first (b0 b1 b2 : UInt8) :
    (((b0.toUInt32 <<< 16) ||| (b1.toUInt32 <<< 8) ||| b2.toUInt32) >>> 18 &&& 0x3F).toNat =
      b0.toNat / 2 ^ 2 := by
  have h0 := b0.toNat_lt
  have h1 := b1.toNat_lt
  have h2 := b2.toNat_lt
  have hhigh : (b0.toUInt32 <<< 16).toNat = b0.toNat * 2 ^ 16 := by
    rw [UInt32.toNat_shiftLeft, UInt8.toNat_toUInt32, Nat.shiftLeft_eq]
    exact Nat.mod_eq_of_lt (by simp; omega)
  have hmiddle : (b1.toUInt32 <<< 8).toNat = b1.toNat * 2 ^ 8 := by
    rw [UInt32.toNat_shiftLeft, UInt8.toNat_toUInt32, Nat.shiftLeft_eq]
    exact Nat.mod_eq_of_lt (by simp; omega)
  have hfirst : (b0.toNat * 2 ^ 16) >>> 18 = b0.toNat / 2 ^ 2 := by
    rw [Nat.shiftRight_eq_div_pow]
    omega
  have hsecond : (b1.toNat * 2 ^ 8) >>> 18 = 0 := by
    rw [Nat.shiftRight_eq_div_pow]
    omega
  have hthird : b2.toNat >>> 18 = 0 := by
    rw [Nat.shiftRight_eq_div_pow]
    omega
  have hshift : (((b0.toUInt32 <<< 16) ||| (b1.toUInt32 <<< 8) ||| b2.toUInt32) >>> 18).toNat =
      b0.toNat / 2 ^ 2 := by
    rw [UInt32.toNat_shiftRight, UInt32.toNat_or, UInt32.toNat_or, hhigh, hmiddle,
      UInt8.toNat_toUInt32]
    have hcount : (18 : UInt32).toNat % 32 = 18 := rfl
    rw [hcount, Nat.shiftRight_or_distrib, Nat.shiftRight_or_distrib, hfirst, hsecond, hthird,
      Nat.or_zero, Nat.or_zero]
  have hmask : (0x3F : UInt32).toNat = 2 ^ 6 - 1 := rfl
  rw [UInt32.toNat_and, hshift, hmask, Nat.and_two_pow_sub_one_eq_mod]
  omega

/-- The first character stands for the six highest of the 48 bits. -/
theorem head_b64urlTs6 (timestampRaw : UInt64) : (b64urlTs6 timestampRaw).head? =
    some (b64urlTable.getD (timestampRaw.toNat / 2 ^ 42 % 2 ^ 6) 0) := by
  have hbyte : (timestampRaw >>> 40).toUInt8.toNat / 2 ^ 2 =
      timestampRaw.toNat / 2 ^ 42 % 2 ^ 6 := by
    have hlt := timestampRaw.toNat_lt
    have hshift : (timestampRaw >>> 40).toNat = timestampRaw.toNat / 2 ^ 40 := by
      rw [UInt64.toNat_shiftRight, Nat.shiftRight_eq_div_pow]
      rfl
    rw [UInt64.toNat_toUInt8, hshift]
    omega
  simp only [b64urlTs6, b64urlGroup, List.cons_append, List.head?_cons, b64url_first, hbyte]

/-- No timestamp has its decimal numeral for its base64url token: the token has eight
characters, and those that begin with a digit stand for numbers of more digits. -/
theorem decimal_ne_b64urlTs6 (timestampRaw : UInt64) :
    decimal (timestampRaw.toNat % 2 ^ 48) ≠ b64urlTs6 timestampRaw := by
  intro h
  have hlen := congrArg List.length h
  have hhead := congrArg List.head? h
  rw [length_b64urlTs6] at hlen
  rw [head_b64urlTs6] at hhead
  have hmem : b64urlTable.getD (timestampRaw.toNat / 2 ^ 42 % 2 ^ 6) 0 ∈
      decimal (timestampRaw.toNat % 2 ^ 48) := List.mem_of_mem_head? hhead
  have hdigit := decimal_digits hmem
  have hsextet : ∀ k : Fin 64, 48 ≤ (b64urlTable.getD k.val 0).toNat →
      (b64urlTable.getD k.val 0).toNat ≤ 57 → 52 ≤ k.val := by decide +kernel
  have hlarge := hsextet ⟨timestampRaw.toNat / 2 ^ 42 % 2 ^ 6, Nat.mod_lt _ (by decide)⟩
    hdigit.1 hdigit.2
  simp only at hlarge
  have hge : 10 ^ 8 ≤ timestampRaw.toNat % 2 ^ 48 := by omega
  have hmono := decimal_length_mono hge
  have hnine : (decimal (10 ^ 8)).length = 9 := by decide +kernel
  omega

end Osfx
