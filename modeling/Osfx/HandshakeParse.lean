import Osfx.FusionPacket

/-!
# Reading control frames

The parsers of `osfx_handshake_cmd.c`: what a client reads of an ID_ASSIGN, and a gateway of
an ID_POOL_RES. The capacity of the pool is narrowed to 16 bits before it is compared with
the number of ids declared, so a large pool can look small: `pool_read_in_full_iff` says
when all ids that fit are read.
-/

namespace Osfx

open Numeral

/-! ## osfx_parse_id_assign -/

structure IdAssign where
  seq : UInt16
  assignedId : UInt32
  serverTime : UInt64
  deriving DecidableEq, Repr

/-- `osfx_parse_id_assign`: what it hands out where it returns 1. -/
def parseIdAssign (packet : Bytes) : Option IdAssign :=
  if packet.length < 7 ∨ packet.getD 0 0 ≠ Cmd.idAssign then none
  else some {
    seq := UInt16.ofNat (beNat (slice packet 1 2))
    assignedId := UInt32.ofNat (beNat (slice packet 3 4))
    serverTime := if packet.length ≥ 15 then UInt64.ofNat (beNat (slice packet 7 8)) else 0 }

/-- An ID_ASSIGN without the time of the server is read back. -/
theorem parseIdAssign_build {seq : UInt16} {aid : UInt32} {outCap : Nat} {packet : Bytes}
    (h : buildIdAssign seq aid outCap = some packet) :
    parseIdAssign packet = some ⟨seq, aid, 0⟩ := by
  unfold buildIdAssign at h
  split at h
  · cases h
  · cases h
    have hbody : Cmd.idAssign :: beBytes 2 seq.toNat ++ beBytes 4 aid.toNat =
        [Cmd.idAssign] ++ beBytes 2 seq.toNat ++ beBytes 4 aid.toNat := rfl
    have hseq : slice ([Cmd.idAssign] ++ beBytes 2 seq.toNat ++ beBytes 4 aid.toNat) 1 2 =
        beBytes 2 seq.toNat := slice_append _ _ _ rfl (by simp)
    have haid : slice ([Cmd.idAssign] ++ beBytes 2 seq.toNat ++ beBytes 4 aid.toNat ++ []) 3 4 =
        beBytes 4 aid.toNat := slice_append _ _ _ (by simp) (by simp)
    rw [List.append_nil] at haid
    rw [hbody, parseIdAssign, if_neg (by simp), hseq, haid, u16_beBytes, u32_beBytes,
      if_neg (by simp)]

/-! ## osfx_parse_id_pool_response -/

/-- The return value of `osfx_parse_id_pool_response`, and what it writes: the sequence
number, the first ids of `out_pool`, and the count. -/
structure PoolResponse where
  ret : Bool
  seq : Option UInt16
  pool : List UInt32
  count : Option Nat
  deriving DecidableEq, Repr

/-- The id at index `i` of an ID_POOL_RES. -/
def poolId (packet : Bytes) (i : Nat) : UInt32 :=
  UInt32.ofNat (beNat (slice packet (5 + i * 4) 4))

/-- `osfx_parse_id_pool_response`. -/
def parseIdPoolResponse (packet : Bytes) (outPoolCap : Nat) : PoolResponse :=
  if packet.length < 5 ∨ packet.getD 0 0 ≠ Cmd.idPoolRes then ⟨false, none, [], none⟩
  else
    let seq := UInt16.ofNat (beNat (slice packet 1 2))
    let declaredCount := UInt16.ofNat (beNat (slice packet 3 2))
    if packet.length < 5 + declaredCount.toNat * 4 then ⟨false, some seq, [], none⟩
    else
      -- the cast to `uint16_t` keeps the low 16 bits of the capacity
      let actual := if declaredCount < UInt16.ofNat outPoolCap then declaredCount
        else UInt16.ofNat outPoolCap
      ⟨true, some seq, (List.range actual.toNat).map (poolId packet), some actual.toNat⟩

/-- The number of ids an ID_POOL_RES declares. -/
def declaredIds (packet : Bytes) : Nat := beNat (slice packet 3 2)

/-- An ID_POOL_RES with room for the ids it declares. -/
def IsPoolResponse (packet : Bytes) : Prop :=
  packet.getD 0 0 = Cmd.idPoolRes ∧ 5 + 4 * declaredIds packet ≤ packet.length

instance (packet : Bytes) : Decidable (IsPoolResponse packet) := instDecidableAnd

/-- As many ids are read as were declared and fit, each from its place; of any other packet
no id is read. -/
structure ReadInFull (packet : Bytes) (outPoolCap : Nat) : Prop where
  read : IsPoolResponse packet →
    (parseIdPoolResponse packet outPoolCap).ret = true ∧
    (parseIdPoolResponse packet outPoolCap).pool =
      (List.range (min (declaredIds packet) outPoolCap)).map (poolId packet) ∧
    (parseIdPoolResponse packet outPoolCap).count = some (min (declaredIds packet) outPoolCap)
  refused : ¬ IsPoolResponse packet →
    (parseIdPoolResponse packet outPoolCap).ret = false ∧
    (parseIdPoolResponse packet outPoolCap).pool = []

theorem declaredIds_lt (packet : Bytes) : declaredIds packet < 2 ^ 16 := by
  have hlen : (slice packet 3 2).length ≤ 2 := List.length_take_le _ _
  have hlt := beNat_lt (slice packet 3 2)
  have hpow : 256 ^ (slice packet 3 2).length ≤ 256 ^ 2 := Nat.pow_le_pow_right (by decide) hlen
  exact Nat.lt_of_lt_of_le hlt hpow

/-- A packet that is refused, for its command or its length. -/
theorem parseIdPoolResponse_refused {packet : Bytes} (h : ¬ IsPoolResponse packet)
    (outPoolCap : Nat) : (parseIdPoolResponse packet outPoolCap).ret = false ∧
      (parseIdPoolResponse packet outPoolCap).pool = [] := by
  unfold parseIdPoolResponse
  split
  · exact ⟨rfl, rfl⟩
  · rename_i hhead
    rw [not_or, not_not] at hhead
    have hshort : packet.length < 5 + (UInt16.ofNat (beNat (slice packet 3 2))).toNat * 4 := by
      have hmod : (UInt16.ofNat (beNat (slice packet 3 2))).toNat = declaredIds packet :=
        (UInt16.toNat_ofNat' ..).trans (Nat.mod_eq_of_lt (declaredIds_lt packet))
      refine Classical.byContradiction fun hlong => h ⟨hhead.2, ?_⟩
      omega
    simp only [if_pos hshort, and_self]

/-- How many ids are read: the capacity counts modulo 2^16. -/
theorem parseIdPoolResponse_read {packet : Bytes} (h : IsPoolResponse packet) (outPoolCap : Nat) :
    parseIdPoolResponse packet outPoolCap =
      ⟨true, some (UInt16.ofNat (beNat (slice packet 1 2))),
        (List.range (min (declaredIds packet) (outPoolCap % 2 ^ 16))).map (poolId packet),
        some (min (declaredIds packet) (outPoolCap % 2 ^ 16))⟩ := by
  obtain ⟨hcmd, hlen⟩ := h
  have hmod : (UInt16.ofNat (beNat (slice packet 3 2))).toNat = declaredIds packet :=
    (UInt16.toNat_ofNat' ..).trans (Nat.mod_eq_of_lt (declaredIds_lt packet))
  have hcap : (UInt16.ofNat outPoolCap).toNat = outPoolCap % 2 ^ 16 := UInt16.toNat_ofNat' ..
  have hactual : (if UInt16.ofNat (beNat (slice packet 3 2)) < UInt16.ofNat outPoolCap then
      UInt16.ofNat (beNat (slice packet 3 2)) else UInt16.ofNat outPoolCap).toNat =
      min (declaredIds packet) (outPoolCap % 2 ^ 16) := by
    split
    · rename_i hlt
      rw [UInt16.lt_iff_toNat_lt] at hlt
      omega
    · rename_i hge
      rw [UInt16.lt_iff_toNat_lt] at hge
      omega
  have hhead : ¬ (packet.length < 5 ∨ packet.getD 0 0 ≠ Cmd.idPoolRes) := by
    rintro (hshort | hother)
    · omega
    · exact hother hcmd
  simp only [parseIdPoolResponse, if_neg hhead, hactual, hmod]
  rw [if_neg (by omega)]

/-- All ids that were declared and fit are read exactly if the capacity is below 2^16, or
its low 16 bits are enough for them. -/
theorem pool_read_in_full_iff (packet : Bytes) (outPoolCap : Nat) :
    ReadInFull packet outPoolCap ↔ (IsPoolResponse packet →
      outPoolCap < 2 ^ 16 ∨ declaredIds packet ≤ outPoolCap % 2 ^ 16) := by
  have hdeclared := declaredIds_lt packet
  constructor
  · intro hfull hpool
    have hcount := (hfull.read hpool).2.2
    rw [parseIdPoolResponse_read hpool] at hcount
    have hmin := Option.some.inj hcount
    omega
  · intro hcap
    refine ⟨fun hpool => ?_, fun hother => parseIdPoolResponse_refused hother outPoolCap⟩
    have hmin : min (declaredIds packet) (outPoolCap % 2 ^ 16) =
        min (declaredIds packet) outPoolCap := by
      have := hcap hpool
      omega
    rw [parseIdPoolResponse_read hpool, hmin]
    exact ⟨rfl, rfl, rfl⟩

/-- An ID_POOL_RES of the one id 7. -/
def onePoolPacket : Bytes := [Cmd.idPoolRes, 0, 1, 0, 1, 0, 0, 0, 7]

/-- A pool for 2^16 ids gets none of them. -/
theorem large_pool_left_empty :
    IsPoolResponse onePoolPacket ∧
    parseIdPoolResponse onePoolPacket (2 ^ 16) = ⟨true, some 1, [], some 0⟩ ∧
    parseIdPoolResponse onePoolPacket 1 = ⟨true, some 1, [7], some 1⟩ ∧
    ¬ ReadInFull onePoolPacket (2 ^ 16) := by
  have hpool : IsPoolResponse onePoolPacket := by decide
  have hnone : parseIdPoolResponse onePoolPacket (2 ^ 16) = ⟨true, some 1, [], some 0⟩ := by
    decide +kernel
  refine ⟨hpool, hnone, by decide +kernel, fun hfull => ?_⟩
  have hread := (hfull.read hpool).2.1
  rw [hnone] at hread
  revert hread
  decide +kernel

end Osfx
