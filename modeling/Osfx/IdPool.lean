import Osfx.Lease

/-!
# The ids of the pool

`osfx_id_allocate` goes through the ids of the pool from its start, past those that are
leased. A table of `n` entries is full after `n` leases, so that no more than the first
`n` ids are ever granted (`grantable_of_granted`), and each of them can be
(`granted_of_grantable`). The loop ends behind the end of the pool, but there is no id
behind the last one of all: a pool that ends there goes on with 0, which is in the pool
only if it has all ids, or is never reached (`granted_in_pool_iff`).
-/

namespace Osfx

open SlotTable

namespace IdAllocator

variable {n : Nat}

/-- The id is one of the first `n` from the start of the pool on, and not past its end, if
anything is past its end. -/
def Grantable (alloc : IdAllocator n) (aid : UInt32) : Prop :=
  (aid - alloc.startId).toNat < n ∧
    (alloc.endId = 0xFFFFFFFF ∨
      (aid - alloc.startId).toNat ≤ alloc.endId.toNat - alloc.startId.toNat)

/-- The `j`-th id from the start of the pool on. -/
def nthId (alloc : IdAllocator n) (j : Nat) : UInt32 := alloc.startId + UInt32.ofNat j

theorem nthId_sub (alloc : IdAllocator n) (j : Nat) :
    (alloc.nthId j - alloc.startId).toNat = j % 2 ^ 32 := by
  rw [nthId, UInt32.add_comm, UInt32.add_sub_cancel, UInt32.toNat_ofNat']

theorem nthId_succ (alloc : IdAllocator n) (j : Nat) : alloc.nthId j + 1 = alloc.nthId (j + 1) := by
  rw [nthId, nthId, UInt32.ofNat_add, UInt32.add_assoc]
  rfl

theorem nthId_zero (alloc : IdAllocator n) : alloc.nthId 0 = alloc.startId :=
  UInt32.add_zero _

theorem nthId_of_sub (alloc : IdAllocator n) (aid : UInt32) :
    alloc.nthId (aid - alloc.startId).toNat = aid := by
  rw [nthId, UInt32.ofNat_toNat, UInt32.add_comm, UInt32.sub_add_cancel]

theorem le_lastId (aid : UInt32) : aid ≤ 0xFFFFFFFF := by
  have hlt := aid.toNat_lt
  rw [UInt32.le_iff_toNat_le]
  exact Nat.le_of_lt_succ hlt

/-- If ids from the start of the pool on are none past its end, they are in the pool. -/
theorem nthId_le_endId {alloc : IdAllocator n} (hend : alloc.endId ≠ 0xFFFFFFFF) {j : Nat}
    (h : ∀ k ≤ j, alloc.nthId k ≤ alloc.endId) :
    j ≤ alloc.endId.toNat - alloc.startId.toNat := by
  induction j with
  | zero => exact Nat.zero_le _
  | succ j ih =>
    have hj := ih fun k hk => h k (by omega)
    have hle := UInt32.le_iff_toNat_le.mp (h (j + 1) (Nat.le_refl _))
    have hstart := UInt32.le_iff_toNat_le.mp (h 0 (Nat.zero_le _))
    rw [nthId_zero] at hstart
    have hmax : alloc.endId.toNat ≠ 4294967295 := fun he => hend (UInt32.toNat_inj.mp he)
    have hlt := alloc.endId.toNat_lt
    rw [nthId, UInt32.toNat_add, UInt32.toNat_ofNat'] at hle
    omega

/-! ## What is granted -/

/-- The first `j` ids are leased and not past the end of the pool. -/
def Passed (alloc : IdAllocator n) (j : Nat) : Prop :=
  ∀ k < j, alloc.findEntry (alloc.nthId k) ≠ none ∧ alloc.nthId k ≤ alloc.endId

theorem passed_succ {alloc : IdAllocator n} {j : Nat} (h : alloc.Passed j)
    (hentry : alloc.findEntry (alloc.nthId j) ≠ none) (hend : alloc.nthId j ≤ alloc.endId) :
    alloc.Passed (j + 1) := by
  intro k hk
  by_cases hkj : k = j
  · rw [hkj]
    exact ⟨hentry, hend⟩
  · exact h k (by omega)

/-- The id behind the first `j` can be granted if there is a slot for it. -/
theorem passed_grantable {alloc : IdAllocator n} {j : Nat} (h : alloc.Passed j)
    (hend : alloc.nthId j ≤ alloc.endId)
    (hslot : alloc.findEntry (alloc.nthId j) ≠ none ∨
      ∃ i : Fin n, (alloc.entries.get i).inUse = false) : alloc.Grantable (alloc.nthId j) := by
  rw [Grantable, nthId_sub]
  constructor
  · have hmod := Nat.mod_lt j (by decide : 0 < 2 ^ 32)
    by_cases hj : j < 2 ^ 32
    · rw [Nat.mod_eq_of_lt hj]
      rcases hslot with hentry | ⟨i, hi⟩
      · exact row_le (by omega) fun k hk => (passed_succ h hentry hend k hk).1
      · exact row_lt (by omega) (fun k hk => (h k hk).1) hi
    · exact row_le (by omega) fun k hk => (h k (by omega)).1
  · by_cases hmax : alloc.endId = 0xFFFFFFFF
    · exact Or.inl hmax
    · refine Or.inr (Nat.le_trans (Nat.mod_le _ _) (nthId_le_endId hmax fun k hk => ?_))
      by_cases hkj : k = j
      · rw [hkj]
        exact hend
      · exact (h k (by omega)).2

theorem allocateFrom_grantable {alloc alloc' : IdAllocator n} {nowTs lease : UInt64}
    {count j : Nat} {out : UInt32} (h : alloc.Passed j)
    (hr : alloc.allocateFrom nowTs lease count (alloc.nthId j) = (alloc', some out)) :
    alloc.Grantable out := by
  induction count generalizing j with
  | zero => cases hr
  | succ count ih =>
    simp only [allocateFrom] at hr
    split at hr
    · rename_i hend
      split at hr
      · split at hr
        · cases hr
        · rename_i i hi
          cases hr
          exact passed_grantable h hend (Or.inr ⟨i, vacant_some hi⟩)
      · rename_i i hi
        have hentry : alloc.findEntry (alloc.nthId j) ≠ none := by
          rw [hi]
          exact Option.some_ne_none i
        split at hr
        · cases hr
          exact passed_grantable h hend (Or.inl hentry)
        · rw [nthId_succ] at hr
          exact ih (passed_succ h hentry hend) hr
    · cases hr

/-- A table without expired entries: the loop stops at the first id without an entry. -/
theorem allocateFrom_first {alloc : IdAllocator n} {nowTs : UInt64}
    (hfresh : ∀ i : Fin n, (alloc.entries.get i).inUse = true →
      ¬ nowTs > (alloc.entries.get i).leasedUntil) {j : Nat} (hpassed : alloc.Passed j)
    (hend : alloc.nthId j ≤ alloc.endId) (hfree : alloc.findEntry (alloc.nthId j) = none)
    (lease : UInt64) {count k : Nat} (hk : k ≤ j) (hcount : j < k + count) :
    alloc.allocateFrom nowTs lease count (alloc.nthId k) =
      match alloc.allocSlot with
      | none => (alloc, none)
      | some i => (alloc.grant i (alloc.nthId j) nowTs lease, some (alloc.nthId j)) := by
  induction count generalizing k with
  | zero => omega
  | succ count ih =>
    by_cases hkj : k = j
    · rw [hkj, allocateFrom, if_pos hend]
      cases alloc.allocSlot <;> simp only [hfree]
    · obtain ⟨hentry, hle⟩ := hpassed k (by omega)
      obtain ⟨i, hi⟩ := Option.ne_none_iff_exists'.mp hentry
      rw [allocateFrom, if_pos hle, hi]
      simp only
      rw [if_neg (hfresh i (lookup_some hi).1), nthId_succ]
      exact ih (by omega) (by omega)

/-- The two allocators have the same pool. -/
def SamePool (alloc alloc' : IdAllocator n) : Prop :=
  alloc'.startId = alloc.startId ∧ alloc'.endId = alloc.endId

theorem SamePool.refl (alloc : IdAllocator n) : SamePool alloc alloc := ⟨rfl, rfl⟩

theorem SamePool.trans {a b c : IdAllocator n} (hab : SamePool a b) (hbc : SamePool b c) :
    SamePool a c :=
  ⟨hbc.1.trans hab.1, hbc.2.trans hab.2⟩

theorem SamePool.grantable {alloc alloc' : IdAllocator n} (h : SamePool alloc alloc')
    (aid : UInt32) : alloc'.Grantable aid ↔ alloc.Grantable aid := by
  rw [Grantable, Grantable, h.1, h.2]

/-- The two allocators differ in their leases and the window of the allocation rate only. -/
def SamePolicy (alloc alloc' : IdAllocator n) : Prop :=
  ∃ entries window count, alloc' =
    { alloc with entries, recentWindowStart := window, recentAllocCount := count }

theorem SamePolicy.refl (alloc : IdAllocator n) : SamePolicy alloc alloc := ⟨_, _, _, rfl⟩

theorem SamePolicy.trans {a b c : IdAllocator n} (hab : SamePolicy a b) (hbc : SamePolicy b c) :
    SamePolicy a c := by
  obtain ⟨_, _, _, rfl⟩ := hab
  obtain ⟨entries, window, count, rfl⟩ := hbc
  exact ⟨entries, window, count, rfl⟩

theorem SamePolicy.samePool {alloc alloc' : IdAllocator n} (h : SamePolicy alloc alloc') :
    SamePool alloc alloc' := by
  obtain ⟨entries, window, count, rfl⟩ := h
  exact ⟨rfl, rfl⟩

theorem samePolicy_rollWindow (alloc : IdAllocator n) (nowTs : UInt64) :
    SamePolicy alloc (alloc.rollWindow nowTs) := by
  simp only [rollWindow]
  split <;> split <;> exact ⟨_, _, _, rfl⟩

/-- The allocator the loop over the ids starts with. -/
def swept (alloc : IdAllocator n) (nowTs : UInt64) : IdAllocator n :=
  ((alloc.cleanupExpired nowTs).computeLeaseSeconds nowTs).1

theorem samePolicy_swept (alloc : IdAllocator n) (nowTs : UInt64) :
    SamePolicy alloc (alloc.swept nowTs) := by
  have hclean : SamePolicy alloc (alloc.cleanupExpired nowTs) := ⟨_, _, _, rfl⟩
  unfold swept computeLeaseSeconds
  split
  · exact hclean
  · exact hclean.trans (samePolicy_rollWindow _ nowTs)

theorem samePool_swept (alloc : IdAllocator n) (nowTs : UInt64) :
    SamePool alloc (alloc.swept nowTs) :=
  (samePolicy_swept alloc nowTs).samePool

theorem swept_entries (alloc : IdAllocator n) (nowTs : UInt64) :
    (alloc.swept nowTs).entries = (alloc.cleanupExpired nowTs).entries :=
  computeLeaseSeconds_entries _ _

theorem allocate_eq {alloc : IdAllocator n} (h : alloc.startId ≤ alloc.endId) (nowTs : UInt64) :
    alloc.allocate nowTs = (alloc.swept nowTs).allocateFrom nowTs (alloc.grantedLease nowTs)
      (n + 1) ((alloc.swept nowTs).nthId 0) := by
  rw [allocate, if_neg (UInt32.not_lt.mpr h), nthId_zero]
  rfl

theorem samePolicy_allocate (alloc : IdAllocator n) (nowTs : UInt64) :
    SamePolicy alloc (alloc.allocate nowTs).1 := by
  by_cases h : alloc.startId ≤ alloc.endId
  · rw [allocate_eq h]
    have hpolicy := samePolicy_swept alloc nowTs
    cases hr : (alloc.swept nowTs).allocateFrom nowTs (alloc.grantedLease nowTs) (n + 1)
        ((alloc.swept nowTs).nthId 0) with
    | mk alloc' out =>
      cases out with
      | none =>
        rw [allocateFrom_none hr]
        exact hpolicy
      | some aid =>
        obtain ⟨i, rfl, -⟩ := allocateFrom_some hr
        exact hpolicy.trans ⟨_, _, _, rfl⟩
  · rw [allocate, if_pos (UInt32.not_le.mp h)]
    exact .refl alloc

theorem samePool_allocate (alloc : IdAllocator n) (nowTs : UInt64) :
    SamePool alloc (alloc.allocate nowTs).1 :=
  (samePolicy_allocate alloc nowTs).samePool

theorem samePolicy_release (alloc : IdAllocator n) (aid : UInt32) :
    SamePolicy alloc (alloc.release aid).1 := by
  unfold release
  split
  · exact .refl alloc
  · exact ⟨_, _, _, rfl⟩

theorem samePolicy_touch (alloc : IdAllocator n) (aid : UInt32) (nowTs : UInt64) :
    SamePolicy alloc (alloc.touch aid nowTs).1 := by
  unfold touch
  split
  · exact .refl alloc
  · exact ⟨_, _, _, rfl⟩

/-- Whatever is granted is grantable. -/
theorem grantable_of_granted {alloc alloc' : IdAllocator n} {nowTs : UInt64} {out : UInt32}
    (h : alloc.allocate nowTs = (alloc', some out)) : alloc.Grantable out := by
  by_cases hrange : alloc.startId ≤ alloc.endId
  · rw [allocate_eq hrange] at h
    apply ((samePool_swept alloc nowTs).grantable out).mp
    exact allocateFrom_grantable (fun k hk => absurd hk (Nat.not_lt_zero k)) h
  · rw [allocate, if_pos (UInt32.not_le.mp hrange)] at h
    cases h

theorem samePool_idStep (alloc : IdAllocator n) (op : IdOp) : SamePool alloc (alloc.idStep op) := by
  cases op with
  | cleanupExpired | setPolicy | setPolicyEx => exact ⟨rfl, rfl⟩
  | allocate nowTs => exact samePool_allocate alloc nowTs
  | release aid => exact (samePolicy_release alloc aid).samePool
  | touch aid nowTs => exact (samePolicy_touch alloc aid nowTs).samePool

theorem samePool_run (alloc : IdAllocator n) (ops : List IdOp) :
    SamePool alloc (ops.foldl idStep alloc) := by
  induction ops generalizing alloc with
  | nil => exact .refl alloc
  | cons op ops ih => exact (samePool_idStep alloc op).trans (ih _)

/-! ## What can be granted -/

/-- The first `j` slots hold the first `j` ids, and the others are free. -/
def Filled (alloc : IdAllocator n) (j : Nat) : Prop :=
  ∀ i : Fin n, (alloc.entries.get i).inUse = decide (i.val < j) ∧
    (i.val < j → (alloc.entries.get i).aid = alloc.nthId i)

theorem filled_init (n : Nat) (startId endId : UInt32) (lease : UInt64) :
    (init n startId endId lease).Filled 0 := by
  intro i
  simp only [init, get_replicate]
  exact ⟨rfl, fun h => absurd h (Nat.not_lt_zero _)⟩

section
variable {alloc : IdAllocator n} {j : Nat}

theorem filled_findEntry (h : alloc.Filled j) (hjn : j ≤ n) {k : Nat} (hk : k < j) :
    alloc.findEntry (alloc.nthId k) ≠ none := by
  intro hnone
  obtain ⟨hu, haid⟩ := h ⟨k, by omega⟩
  exact lookup_none.mp hnone ⟨k, by omega⟩ (hu.trans (decide_eq_true hk)) (haid hk)

theorem filled_findEntry_none (h : alloc.Filled j) (hj : j < 2 ^ 32) :
    alloc.findEntry (alloc.nthId j) = none := by
  apply lookup_none.mpr
  intro i hu hk
  obtain ⟨hlt, haid⟩ := h i
  rw [hlt, decide_eq_true_eq] at hu
  rw [haid hu] at hk
  have hmod := congrArg (fun aid => (aid - alloc.startId).toNat) hk
  simp only [nthId_sub] at hmod
  omega

theorem filled_allocSlot (h : alloc.Filled j) (hj : j < n) : alloc.allocSlot = some ⟨j, hj⟩ := by
  unfold allocSlot vacant
  apply findSlot_eq_some.mpr
  constructor
  · simp [(h ⟨j, hj⟩).1]
  · intro i hi
    have hlt : i.val < j := hi
    simp [(h i).1, hlt]

theorem filled_grant (h : alloc.Filled j) (hj : j < n) (nowTs lease : UInt64) :
    (alloc.grant ⟨j, hj⟩ (alloc.nthId j) nowTs lease).Filled (j + 1) := by
  intro i
  by_cases hi : (⟨j, hj⟩ : Fin n) = i
  · have hnew : (alloc.grant ⟨j, hj⟩ (alloc.nthId j) nowTs lease).entries.get i =
        ⟨alloc.nthId j, nowTs + lease, nowTs, true⟩ := by
      rw [← hi]
      exact get_set_self _ _ _
    rw [hnew, ← hi]
    exact ⟨(decide_eq_true (Nat.lt_succ_self j)).symm, fun _ => rfl⟩
  · have hold : (alloc.grant ⟨j, hj⟩ (alloc.nthId j) nowTs lease).entries.get i =
        alloc.entries.get i := get_set_ne _ _ hi
    have hne : i.val ≠ j := fun he => hi (Fin.ext he.symm)
    obtain ⟨hu, haid⟩ := h i
    rw [hold, hu]
    refine ⟨decide_eq_decide.mpr (by omega), fun hlt => haid (by omega)⟩

/-- At time 0 no lease has expired. -/
theorem filled_allocateFrom (h : alloc.Filled j) (hj : j < n) (hword : j < 2 ^ 32)
    (hend : ∀ k ≤ j, alloc.nthId k ≤ alloc.endId) (lease : UInt64) {count k : Nat} (hk : k ≤ j)
    (hcount : j < k + count) :
    alloc.allocateFrom 0 lease count (alloc.nthId k) =
      (alloc.grant ⟨j, hj⟩ (alloc.nthId j) 0 lease, some (alloc.nthId j)) := by
  have hfresh : ∀ i : Fin n, (alloc.entries.get i).inUse = true →
      ¬ (0 : UInt64) > (alloc.entries.get i).leasedUntil := fun _ _ => UInt64.not_lt_zero
  have hpassed : alloc.Passed j :=
    fun k hk => ⟨filled_findEntry h (by omega) hk, hend k (by omega)⟩
  rw [allocateFrom_first hfresh hpassed (hend j (Nat.le_refl j)) (filled_findEntry_none h hword)
    lease hk hcount, filled_allocSlot h hj]

theorem filled_swept (h : alloc.Filled j) : (alloc.swept 0).Filled j := by
  intro i
  have hkept : (alloc.swept 0).entries.get i = alloc.entries.get i := by
    rw [swept_entries, cleanupExpired_get, if_neg]
    rintro ⟨-, hexpired⟩
    exact UInt64.not_lt_zero hexpired
  rw [hkept, nthId, (samePool_swept alloc 0).1]
  exact h i

/-- The next call at time 0 grants the next id. -/
theorem filled_allocate (h : alloc.Filled j) (hj : j < n) (hword : j < 2 ^ 32)
    (hend : ∀ k ≤ j, alloc.nthId k ≤ alloc.endId) :
    (alloc.allocate 0).2 = some (alloc.nthId j) ∧ (alloc.allocate 0).1.Filled (j + 1) := by
  have hrange : alloc.startId ≤ alloc.endId := by
    rw [← nthId_zero]
    exact hend 0 (Nat.zero_le j)
  obtain ⟨hstart, hstop⟩ := samePool_swept alloc 0
  have hnth : ∀ k, (alloc.swept 0).nthId k = alloc.nthId k := by
    intro k
    rw [nthId, nthId, hstart]
  have hend' : ∀ k ≤ j, (alloc.swept 0).nthId k ≤ (alloc.swept 0).endId := by
    intro k hk
    rw [hnth, hstop]
    exact hend k hk
  have hloop := filled_allocateFrom (filled_swept h) hj hword hend' (alloc.grantedLease 0)
    (Nat.zero_le j) (by omega : j < 0 + (n + 1))
  rw [allocate_eq hrange, hloop]
  exact ⟨congrArg some (hnth j), filled_grant (filled_swept h) hj 0 _⟩

/-- The ids before a grantable one are none past the end of the pool. -/
theorem grantable_before {aid : UInt32} (hg : alloc.Grantable aid)
    (hrange : alloc.startId ≤ alloc.endId) :
    ∀ k ≤ (aid - alloc.startId).toNat, alloc.nthId k ≤ alloc.endId := by
  intro k hk
  rw [UInt32.le_iff_toNat_le]
  rcases hg.2 with hmax | hle
  · rw [hmax]
    exact UInt32.le_iff_toNat_le.mp (le_lastId _)
  · have hstart := UInt32.le_iff_toNat_le.mp hrange
    have hlt := alloc.endId.toNat_lt
    rw [nthId, UInt32.toNat_add, UInt32.toNat_ofNat']
    omega

end

/-- The allocator after `j` calls of `osfx_id_allocate` at time 0. -/
def drained (alloc : IdAllocator n) : Nat → IdAllocator n
  | 0 => alloc
  | j + 1 => ((alloc.drained j).allocate 0).1

theorem samePool_drained (alloc : IdAllocator n) (j : Nat) : SamePool alloc (alloc.drained j) := by
  induction j with
  | zero => exact .refl alloc
  | succ j ih => exact ih.trans (samePool_allocate _ 0)

/-- One id after the other is granted, up to a grantable one. -/
theorem filled_drained {alloc : IdAllocator n} (h : alloc.Filled 0) {aid : UInt32}
    (hg : alloc.Grantable aid) (hrange : alloc.startId ≤ alloc.endId) {j : Nat}
    (hj : j ≤ (aid - alloc.startId).toNat) : (alloc.drained j).Filled j := by
  induction j with
  | zero => exact h
  | succ j ih =>
    obtain ⟨hstart, hstop⟩ := samePool_drained alloc j
    have hlt := (aid - alloc.startId).toNat_lt
    have hn := hg.1
    refine (filled_allocate (ih (by omega)) (by omega) (by omega) fun k hk => ?_).2
    rw [nthId, hstart, hstop]
    exact grantable_before hg hrange k (by omega)

/-- Whatever is grantable is granted, after calls enough. -/
theorem granted_of_grantable {alloc : IdAllocator n} (h : alloc.Filled 0) {aid : UInt32}
    (hg : alloc.Grantable aid) (hrange : alloc.startId ≤ alloc.endId) :
    ((alloc.drained (aid - alloc.startId).toNat).allocate 0).2 = some aid := by
  obtain ⟨hstart, hstop⟩ := samePool_drained alloc (aid - alloc.startId).toNat
  have hgrant := (filled_allocate (filled_drained h hg hrange (Nat.le_refl _)) hg.1
    (aid - alloc.startId).toNat_lt fun k hk => ?_).1
  · rw [hgrant, nthId, hstart]
    exact congrArg some (nthId_of_sub alloc aid)
  · rw [nthId, hstart, hstop]
    exact grantable_before hg hrange k hk

/-! ## Runs -/

/-- The operation leaves the policy alone. -/
def IdOp.KeepsPolicy : IdOp → Prop
  | .cleanupExpired _ | .allocate _ | .release _ | .touch _ _ => True
  | .setPolicy .. | .setPolicyEx .. => False

/-- Only the calls that set a policy change it. -/
theorem samePolicy_idStep (alloc : IdAllocator n) {op : IdOp} (h : op.KeepsPolicy) :
    SamePolicy alloc (alloc.idStep op) := by
  cases op with
  | cleanupExpired nowTs => exact ⟨_, _, _, rfl⟩
  | allocate nowTs => exact samePolicy_allocate alloc nowTs
  | release aid => exact samePolicy_release alloc aid
  | touch aid nowTs => exact samePolicy_touch alloc aid nowTs
  | setPolicy => exact h.elim
  | setPolicyEx => exact h.elim

theorem drained_run (alloc : IdAllocator n) (j : Nat) :
    alloc.drained j = (List.replicate j (.allocate 0)).foldl idStep alloc := by
  induction j with
  | zero => rfl
  | succ j ih =>
    rw [List.replicate_succ', List.foldl_append, ← ih]
    rfl

/-- The pool does not end with the last id of all, or it has all ids, or the ids from its
start on are no fewer than the slots of the table. -/
def StaysInPool (n : Nat) (startId endId : UInt32) : Prop :=
  endId ≠ 0xFFFFFFFF ∨ startId = 0 ∨ startId.toNat + n ≤ 2 ^ 32

theorem grantable_in_pool {alloc : IdAllocator n} (hrange : alloc.startId ≤ alloc.endId)
    (hstays : StaysInPool n alloc.startId alloc.endId) {aid : UInt32} (hg : alloc.Grantable aid) :
    alloc.startId ≤ aid ∧ aid ≤ alloc.endId := by
  obtain ⟨hlt, hend⟩ := hg
  have hword := congrArg UInt32.toNat (nthId_of_sub alloc aid)
  rw [nthId, UInt32.toNat_add, UInt32.toNat_ofNat'] at hword
  have haid := aid.toNat_lt
  have hstop := alloc.endId.toNat_lt
  rw [UInt32.le_iff_toNat_le] at hrange ⊢
  rw [UInt32.le_iff_toNat_le]
  by_cases hmax : alloc.endId = 0xFFFFFFFF
  · have hlast : alloc.endId.toNat = 4294967295 := congrArg UInt32.toNat hmax
    rcases hstays with hne | hzero | hroom
    · exact absurd hmax hne
    · have hfirst : alloc.startId.toNat = 0 := congrArg UInt32.toNat hzero
      omega
    · omega
  · have hle := hend.resolve_left hmax
    omega

/-- In every run the ids that are granted are in the pool, if it does not end with the last
id of all, or has all ids, or has an id for each slot of the table, and else not. -/
theorem granted_in_pool_iff (startId endId : UInt32) (lease : UInt64) :
    (∀ (ops : List IdOp) (nowTs : UInt64) (alloc : IdAllocator n) (aid : UInt32),
      (∀ op ∈ ops, op.KeepsPolicy) →
      (ops.foldl idStep (init n startId endId lease)).allocate nowTs = (alloc, some aid) →
      startId ≤ aid ∧ aid ≤ endId) ↔ StaysInPool n startId endId := by
  constructor
  · intro h
    unfold StaysInPool
    apply Classical.byContradiction
    intro hnot
    rw [not_or, not_or, Ne, not_not] at hnot
    obtain ⟨rfl, hfirst, hroom⟩ := hnot
    have hfirst' : startId.toNat ≠ 0 := fun he => hfirst (UInt32.toNat_inj.mp he)
    have hlast : ((0 : UInt32) - startId).toNat < n := by
      have hlt := startId.toNat_lt
      rw [UInt32.toNat_sub, UInt32.toNat_zero]
      omega
    have hgrant := granted_of_grantable (filled_init n startId 0xFFFFFFFF lease)
      ⟨hlast, Or.inl rfl⟩ (le_lastId startId)
    rw [drained_run] at hgrant
    have hin := h _ 0 _ 0 (fun op hop => ?_) (Prod.ext rfl hgrant)
    · exact hfirst (UInt32.le_zero_iff.mp hin.1)
    · rw [List.eq_of_mem_replicate hop]
      trivial
  · intro hstays ops nowTs alloc aid _ hr
    have hpool := samePool_run (init n startId endId lease) ops
    by_cases hrange : startId ≤ endId
    · have hg := (hpool.grantable aid).mp (grantable_of_granted hr)
      have hrange' : (init n startId endId lease).startId ≤ (init n startId endId lease).endId :=
        hrange
      exact grantable_in_pool hrange' hstays hg
    · have hshut : (ops.foldl idStep (init n startId endId lease)).startId >
          (ops.foldl idStep (init n startId endId lease)).endId := by
        rw [hpool.1, hpool.2]
        exact UInt32.not_le.mp hrange
      rw [allocate, if_pos hshut] at hr
      cases hr

/-- A pool of the last id only: while it is leased, 0 is granted. -/
theorem full_last_pool_grants_zero :
    ((init 16 0xFFFFFFFF 0xFFFFFFFF 60).allocate 1).2 = some 0xFFFFFFFF ∧
      (((init 16 0xFFFFFFFF 0xFFFFFFFF 60).allocate 1).1.allocate 1).2 = some 0 ∧
      ¬ (0xFFFFFFFF : UInt32) ≤ 0 := by
  refine ⟨?_, ?_, ?_⟩
  · decide +kernel
  · decide +kernel
  · decide

end IdAllocator

end Osfx
