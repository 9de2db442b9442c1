import Osfx.IdPool

/-!
# Which id is granted

`osfx_id_allocate` sweeps the table, and then no entry of it is expired: the loop passes
the ids that are leased and stops at the first that is not. It returns 1 exactly if there
is such an id and a slot for it (`allocate_isSome_iff`). The id is the least of the pool
that is free, and of the other entries those that are leases stay (`allocate_complete`).
-/

namespace Osfx

open SlotTable

/-- The entry is in use and has not expired. -/
def IdLeaseEntry.Live (e : IdLeaseEntry) (nowTs : UInt64) : Prop :=
  e.inUse = true ∧ nowTs ≤ e.leasedUntil

instance (e : IdLeaseEntry) (nowTs : UInt64) : Decidable (e.Live nowTs) := instDecidableAnd

namespace IdAllocator

variable {n : Nat}

/-- Some entry holds an unexpired lease of `aid`. -/
def Leased (alloc : IdAllocator n) (aid : UInt32) (nowTs : UInt64) : Prop :=
  ∃ i, alloc.Holds aid nowTs i

/-- The number of leases that have not expired. -/
def liveCount (alloc : IdAllocator n) (nowTs : UInt64) : Nat :=
  alloc.entries.toList.countP fun e => decide (e.Live nowTs)

/-- The loop over the ids comes to `aid`: it is in the pool, or the pool has no end. -/
def Reaches (alloc : IdAllocator n) (aid : UInt32) : Prop :=
  alloc.endId = 0xFFFFFFFF ∨ (alloc.startId ≤ aid ∧ aid ≤ alloc.endId)

/-! ## The swept table -/

section
variable {alloc : IdAllocator n} {nowTs : UInt64}

theorem swept_get (i : Fin n) : (alloc.swept nowTs).entries.get i =
    if (alloc.entries.get i).inUse ∧ nowTs > (alloc.entries.get i).leasedUntil then
      IdLeaseEntry.zero
    else alloc.entries.get i := by
  rw [swept_entries, cleanupExpired_get]

/-- A sweep leaves the live entries, and no other one in use. -/
theorem swept_inUse (i : Fin n) : ((alloc.swept nowTs).entries.get i).inUse = true ↔
    (alloc.entries.get i).Live nowTs := by
  rw [swept_get]
  split
  · rename_i hexpired
    constructor
    · intro h
      cases h
    · intro h
      exact absurd hexpired.2 (UInt64.not_lt.mpr h.2)
  · rename_i hkept
    refine ⟨fun hu => ⟨hu, UInt64.not_lt.mp fun hlt => hkept ⟨hu, hlt⟩⟩, fun h => h.1⟩

theorem swept_live {i : Fin n} (h : (alloc.entries.get i).Live nowTs) :
    (alloc.swept nowTs).entries.get i = alloc.entries.get i := by
  rw [swept_get, if_neg fun hexpired => UInt64.not_lt.mpr h.2 hexpired.2]

theorem swept_findEntry (aid : UInt32) :
    (alloc.swept nowTs).findEntry aid = none ↔ ¬ alloc.Leased aid nowTs := by
  rw [findEntry, lookup_none]
  constructor
  · rintro h ⟨i, hu, hk, hlive⟩
    have hin := (swept_inUse i).mpr ⟨hu, hlive⟩
    refine h i hin ?_
    rw [swept_live ⟨hu, hlive⟩]
    exact hk
  · intro h i hin hk
    have hlive := (swept_inUse i).mp hin
    rw [swept_live hlive] at hk
    exact h ⟨i, hlive.1, hk, hlive.2⟩

/-- A slot is free after the sweep exactly if not all of them held leases. -/
theorem swept_allocSlot :
    (∃ i, (alloc.swept nowTs).allocSlot = some i) ↔ alloc.liveCount nowTs < n := by
  have hcount : alloc.liveCount nowTs < n ↔ ¬ ∀ i : Fin n,
      (alloc.entries.get i).Live nowTs := by
    have hle : alloc.liveCount nowTs ≤ n :=
      Nat.le_trans List.countP_le_length (Nat.le_of_eq (Vector.length_toList ..))
    have hfull : alloc.liveCount nowTs = n ↔ ∀ i : Fin n,
        (alloc.entries.get i).Live nowTs := by
      have hall := List.countP_eq_length (l := alloc.entries.toList)
        (p := fun e => decide (e.Live nowTs))
      rw [Vector.length_toList] at hall
      rw [liveCount, hall, toList_eq_map]
      simp
    rw [← hfull]
    omega
  rw [hcount, ← Option.ne_none_iff_exists', allocSlot, Ne, vacant_none]
  simp only [swept_inUse]

theorem swept_fresh (i : Fin n) (hu : ((alloc.swept nowTs).entries.get i).inUse = true) :
    ¬ nowTs > ((alloc.swept nowTs).entries.get i).leasedUntil := by
  have hlive := (swept_inUse i).mp hu
  rw [swept_live hlive]
  exact UInt64.not_lt.mpr hlive.2

/-! ## The loop over the ids -/

/-- The first free id is granted, if there is a slot for it. -/
theorem allocate_first (hrange : alloc.startId ≤ alloc.endId) {j : Nat} (hj : j < 2 ^ 32)
    (hend : ∀ k ≤ j, alloc.nthId k ≤ alloc.endId) (hfree : ¬ alloc.Leased (alloc.nthId j) nowTs)
    (hleased : ∀ k < j, alloc.Leased (alloc.nthId k) nowTs) :
    alloc.allocate nowTs =
      match (alloc.swept nowTs).allocSlot with
      | none => (alloc.swept nowTs, none)
      | some i => ((alloc.swept nowTs).grant i (alloc.nthId j) nowTs (alloc.grantedLease nowTs),
          some (alloc.nthId j)) := by
  obtain ⟨hstart, hstop⟩ := samePool_swept alloc nowTs
  have hnth : ∀ k, (alloc.swept nowTs).nthId k = alloc.nthId k := by
    intro k
    rw [nthId, nthId, hstart]
  have hpassed : (alloc.swept nowTs).Passed j := by
    intro k hk
    rw [hnth, hstop]
    refine ⟨fun hnone => ?_, hend k (by omega)⟩
    exact (swept_findEntry _).mp hnone (hleased k hk)
  have hturns : j ≤ n := row_le (by omega) fun k hk => (hpassed k hk).1
  have hloop := allocateFrom_first swept_fresh hpassed
    (by rw [hnth, hstop]; exact hend j (Nat.le_refl j))
    (by rw [hnth]; exact (swept_findEntry _).mpr hfree) (alloc.grantedLease nowTs)
    (Nat.zero_le j) (by omega : j < 0 + (n + 1))
  rw [allocate_eq hrange, hloop]
  cases (alloc.swept nowTs).allocSlot with
  | none => rfl
  | some i => simp only [hnth]

/-- The first of the free ids in the order of the loop. -/
theorem exists_first_free {aid : UInt32} (hreach : alloc.Reaches aid)
    (hfree : ¬ alloc.Leased aid nowTs) :
    ∃ j ≤ (aid - alloc.startId).toNat, (∀ k ≤ j, alloc.nthId k ≤ alloc.endId) ∧
      ¬ alloc.Leased (alloc.nthId j) nowTs ∧ ∀ k < j, alloc.Leased (alloc.nthId k) nowTs := by
  have hsome : ∃ j, ¬ alloc.Leased (alloc.nthId j) nowTs :=
    ⟨_, by rwa [nthId_of_sub]⟩
  classical
  have hle : Nat.find hsome ≤ (aid - alloc.startId).toNat :=
    Nat.find_min' hsome (by rwa [nthId_of_sub])
  refine ⟨Nat.find hsome, hle, fun k hk => ?_, Nat.find_spec hsome, fun k hk => ?_⟩
  · rw [UInt32.le_iff_toNat_le]
    obtain hmax | ⟨hstart, hend⟩ := hreach
    · rw [hmax]
      exact UInt32.le_iff_toNat_le.mp (le_lastId _)
    · rw [UInt32.le_iff_toNat_le] at hstart hend
      rw [UInt32.toNat_sub_of_le _ _ (UInt32.le_iff_toNat_le.mpr hstart)] at hle
      have hlt := alloc.endId.toNat_lt
      rw [nthId, UInt32.toNat_add, UInt32.toNat_ofNat']
      omega
  · exact not_not.mp (Nat.find_min hsome hk)

/-- What an id that is granted was, and where the grant is written. -/
theorem allocate_granted {alloc' : IdAllocator n} {aid : UInt32}
    (h : alloc.allocate nowTs = (alloc', some aid)) :
    ¬ alloc.Leased aid nowTs ∧ ∃ i : Fin n, ¬ (alloc.entries.get i).Live nowTs ∧
      alloc'.entries = (alloc.swept nowTs).entries.set i
        ⟨aid, nowTs + alloc.grantedLease nowTs, nowTs, true⟩ i.isLt := by
  obtain ⟨i, he, hslot, hexpired⟩ := allocate_some h
  rw [← swept_entries] at he hslot hexpired
  rcases hslot with hfound | ⟨hnone, hvacant⟩
  · have hu := (lookup_some hfound).1
    exact absurd (hexpired hu) (swept_fresh i hu)
  · refine ⟨(swept_findEntry aid).mp hnone, i, fun hlive => ?_, he⟩
    rw [(swept_inUse i).mpr hlive] at hvacant
    cases hvacant

theorem allocate_range {alloc' : IdAllocator n} {aid : UInt32}
    (h : alloc.allocate nowTs = (alloc', some aid)) : alloc.startId ≤ alloc.endId := by
  refine Classical.byContradiction fun hn => ?_
  rw [allocate, if_pos (UInt32.not_le.mp hn)] at h
  cases h

/-- The loop has come to an id that is granted. -/
theorem reaches_of_granted {alloc' : IdAllocator n} {aid : UInt32}
    (h : alloc.allocate nowTs = (alloc', some aid)) : alloc.Reaches aid := by
  by_cases hmax : alloc.endId = 0xFFFFFFFF
  · exact Or.inl hmax
  · exact Or.inr (grantable_in_pool (allocate_range h) (Or.inl hmax) (grantable_of_granted h))

/-- It is the first that is free, in the order of the loop. -/
theorem granted_first {alloc' : IdAllocator n} {aid : UInt32}
    (h : alloc.allocate nowTs = (alloc', some aid)) :
    ∃ j, j < 2 ^ 32 ∧ aid = alloc.nthId j ∧ (∀ k ≤ j, alloc.nthId k ≤ alloc.endId) ∧
      ∀ k < j, alloc.Leased (alloc.nthId k) nowTs := by
  obtain ⟨j, hj, hend, hnone, hleased⟩ :=
    exists_first_free (reaches_of_granted h) (allocate_granted h).1
  have hlt := (aid - alloc.startId).toNat_lt
  have hcall := allocate_first (allocate_range h) (by omega) hend hnone hleased
  refine ⟨j, by omega, ?_, hend, hleased⟩
  rw [h] at hcall
  cases hslot : (alloc.swept nowTs).allocSlot with
  | none =>
    rw [hslot] at hcall
    cases hcall
  | some i =>
    rw [hslot] at hcall
    exact Option.some.inj (congrArg Prod.snd hcall)

/-- A call returns 1 exactly if the loop comes to an id that is not leased, and not every
slot holds a lease. -/
theorem allocate_isSome_iff : (alloc.allocate nowTs).2.isSome = true ↔
    alloc.startId ≤ alloc.endId ∧ alloc.liveCount nowTs < n ∧
      ∃ aid, alloc.Reaches aid ∧ ¬ alloc.Leased aid nowTs := by
  constructor
  · intro h
    obtain ⟨aid, haid⟩ := Option.isSome_iff_exists.mp h
    have hr : alloc.allocate nowTs = ((alloc.allocate nowTs).1, some aid) := Prod.ext rfl haid
    obtain ⟨hfree, i, hdead, -⟩ := allocate_granted hr
    refine ⟨allocate_range hr, ?_, aid, reaches_of_granted hr, hfree⟩
    rw [← swept_allocSlot]
    apply Option.ne_none_iff_exists'.mp
    intro hfull
    exact hdead ((swept_inUse i).mp (vacant_none.mp hfull i))
  · rintro ⟨hrange, hroom, aid, hreach, hfree⟩
    obtain ⟨j, hj, hend, hfree, hleased⟩ := exists_first_free hreach hfree
    obtain ⟨i, hi⟩ := swept_allocSlot.mpr hroom
    have hlt := (aid - alloc.startId).toNat_lt
    rw [allocate_first hrange (by omega) hend hfree hleased, hi]
    rfl

/-! ## The grant -/

/-- The least free id of the pool is granted: one entry has it then, the leases of other
aids stay where they are, and no other entry is in use. -/
structure GrantsLeast (alloc alloc' : IdAllocator n) (nowTs : UInt64) (aid : UInt32) : Prop where
  in_pool : alloc.startId ≤ aid ∧ aid ≤ alloc.endId
  free : ¬ alloc.Leased aid nowTs
  least : ∀ k, alloc.startId ≤ k → k < aid → alloc.Leased k nowTs
  granted : ∃ i, (alloc'.entries.get i).inUse = true ∧ (alloc'.entries.get i).aid = aid ∧
    ∀ j, (alloc'.entries.get j).inUse = true → (alloc'.entries.get j).aid = aid → j = i
  kept : ∀ k i, k ≠ aid → alloc.Holds k nowTs i → alloc'.entries.get i = alloc.entries.get i
  gone : ∀ i, (alloc'.entries.get i).inUse = true → (alloc'.entries.get i).aid ≠ aid →
    (alloc.entries.get i).Live nowTs ∧ alloc'.entries.get i = alloc.entries.get i

/-- Ids of the pool, smaller than one the loop has stopped at, have been passed. -/
theorem passed_below {j : Nat} (hend : ∀ k ≤ j, alloc.nthId k ≤ alloc.endId)
    (hmax : alloc.endId ≠ 0xFFFFFFFF) {k : UInt32} (hstart : alloc.startId ≤ k)
    (hlt : k < alloc.nthId j) : (k - alloc.startId).toNat < j := by
  have hle := nthId_le_endId hmax hend
  have hstop := alloc.endId.toNat_lt
  rw [UInt32.lt_iff_toNat_lt, nthId, UInt32.toNat_add, UInt32.toNat_ofNat'] at hlt
  rw [UInt32.toNat_sub_of_le _ _ hstart]
  rw [UInt32.le_iff_toNat_le] at hstart
  omega

theorem grantsLeast (hrange : alloc.startId ≤ alloc.endId) (hmax : alloc.endId ≠ 0xFFFFFFFF)
    {alloc' : IdAllocator n} {aid : UInt32} (h : alloc.allocate nowTs = (alloc', some aid)) :
    GrantsLeast alloc alloc' nowTs aid := by
  obtain ⟨hfree, i, hdead, he⟩ := allocate_granted h
  have hpool := grantable_in_pool hrange (Or.inl hmax) (grantable_of_granted h)
  have hnew : alloc'.entries.get i = ⟨aid, nowTs + alloc.grantedLease nowTs, nowTs, true⟩ := by
    rw [he, get_set_self]
  have hother : ∀ j, j ≠ i → (alloc'.entries.get j).inUse = true →
      (alloc.entries.get j).Live nowTs ∧ alloc'.entries.get j = alloc.entries.get j := by
    intro j hj hu
    rw [he, get_set_ne _ _ (Ne.symm hj)] at hu ⊢
    have hlive := (swept_inUse j).mp hu
    exact ⟨hlive, swept_live hlive⟩
  refine ⟨hpool, hfree, fun k hstart hlt => ?_, ⟨i, ?_, ?_, ?_⟩, fun k j hk hj => ?_, ?_⟩
  · obtain ⟨j, -, rfl, hend, hleased⟩ := granted_first h
    have hbelow := hleased _ (passed_below hend hmax hstart hlt)
    rwa [nthId_of_sub] at hbelow
  · rw [hnew]
  · rw [hnew]
  · intro j hu hk
    refine Classical.byContradiction fun hj => ?_
    obtain ⟨hlive, hsame⟩ := hother j hj hu
    rw [hsame] at hk
    exact hfree ⟨j, hlive.1, hk, hlive.2⟩
  · have hlive : (alloc.entries.get j).Live nowTs := ⟨hj.1, hj.2.2⟩
    have hne : i ≠ j := by
      rintro rfl
      exact hdead hlive
    rw [he, get_set_ne _ _ hne, swept_live hlive]
  · intro j hu hk
    refine hother j (fun hj => hk ?_) hu
    rw [hj, hnew]

/-- A pool that does not end with the last id of all: a call returns 1 exactly if an id of
the pool is not leased and not every slot holds a lease, and grants the least such id. -/
theorem allocate_complete (hrange : alloc.startId ≤ alloc.endId)
    (hmax : alloc.endId ≠ 0xFFFFFFFF) (nowTs : UInt64) :
    ((alloc.allocate nowTs).2.isSome = true ↔
      (∃ aid, (alloc.startId ≤ aid ∧ aid ≤ alloc.endId) ∧ ¬ alloc.Leased aid nowTs) ∧
        alloc.liveCount nowTs < n) ∧
    ∀ alloc' aid, alloc.allocate nowTs = (alloc', some aid) →
      GrantsLeast alloc alloc' nowTs aid := by
  refine ⟨?_, fun alloc' aid h => grantsLeast hrange hmax h⟩
  have hreaches : ∀ aid, alloc.Reaches aid ↔ alloc.startId ≤ aid ∧ aid ≤ alloc.endId :=
    fun aid => or_iff_right hmax
  rw [allocate_isSome_iff]
  simp only [hreaches]
  exact ⟨fun h => ⟨h.2.2, h.2.1⟩, fun h => ⟨hrange, h.2, h.1⟩⟩

/-- Two ids of a pool of three; the lease of the first ends at 61. -/
def onceLeased : IdAllocator 16 :=
  (((init 16 10 12 60).allocate 1).1.allocate 50).1

theorem onceLeased_complete :
    ((onceLeased.allocate 70).2.isSome = true ↔
      (∃ aid, (onceLeased.startId ≤ aid ∧ aid ≤ onceLeased.endId) ∧
        ¬ onceLeased.Leased aid 70) ∧ onceLeased.liveCount 70 < 16) ∧
    ∀ alloc' aid, onceLeased.allocate 70 = (alloc', some aid) →
      GrantsLeast onceLeased alloc' 70 aid := by
  have hrange : onceLeased.startId ≤ onceLeased.endId := by decide +kernel
  have hmax : onceLeased.endId ≠ 0xFFFFFFFF := by decide +kernel
  exact allocate_complete hrange hmax 70

end

end IdAllocator

end Osfx
