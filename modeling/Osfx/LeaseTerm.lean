import Osfx.Allocation
import Osfx.LeaseBounds

/-!
# The term of a lease

A lease is written as the time of its end, which is a sum of two `uint64_t`. While leases
do not adapt, an id that is granted is not granted again before the lease is over, whatever
is done meanwhile but for releasing or touching it: unless the sum wraps around
(`lease_lasts_iff`).
-/

namespace Osfx

open SlotTable

namespace IdAllocator

variable {n : Nat}

/-- The `now_ts` of a call. -/
def IdOp.nowTs : IdOp → Option UInt64
  | .cleanupExpired nowTs | .allocate nowTs | .touch _ nowTs => some nowTs
  | _ => none

/-- The call releases or touches `aid`. -/
def IdOp.Concerns (aid : UInt32) : IdOp → Prop
  | .release k | .touch k _ => k = aid
  | _ => False

/-- Whatever is done between two grants of `aid` at times `t₁` and `t₂`, but for releasing and
touching it, more time goes by than the lease. -/
def LastsAsGranted (alloc : IdAllocator n) (aid : UInt32) (t₁ lease : UInt64) : Prop :=
  ∀ (between : List IdOp) (t₂ : UInt64),
    (t₁ :: (between.filterMap IdOp.nowTs ++ [t₂])).Pairwise (· ≤ ·) →
    (∀ op ∈ between, ¬ op.Concerns aid) →
    ((between.foldl idStep alloc).allocate t₂).2 = some aid →
    t₁.toNat + lease.toNat < t₂.toNat

/-- Some entry is a lease of `aid` until `leasedUntil`. -/
def LeasedUntil (alloc : IdAllocator n) (aid : UInt32) (leasedUntil : UInt64) : Prop :=
  ∃ i, (alloc.entries.get i).inUse = true ∧ (alloc.entries.get i).aid = aid ∧
    (alloc.entries.get i).leasedUntil = leasedUntil

/-! ## A lease stays -/

section
variable {alloc : IdAllocator n} {aid : UInt32} {leasedUntil : UInt64}

theorem LeasedUntil.leased (h : alloc.LeasedUntil aid leasedUntil) {nowTs : UInt64}
    (ht : nowTs ≤ leasedUntil) : alloc.Leased aid nowTs := by
  obtain ⟨i, hu, hk, rfl⟩ := h
  exact ⟨i, hu, hk, ht⟩

/-- A slot that another aid is found in is not that of the lease. -/
theorem LeasedUntil.setEntry (h : alloc.LeasedUntil aid leasedUntil) {i : Fin n} {k : UInt32}
    (hi : alloc.findEntry k = some i) (hk : k ≠ aid) (e : IdLeaseEntry) :
    (alloc.setEntry i e).LeasedUntil aid leasedUntil := by
  obtain ⟨j, hu, haid, huntil⟩ := h
  have hne : i ≠ j := by
    rintro rfl
    exact hk ((lookup_some hi).2.symm.trans haid)
  refine ⟨j, ?_⟩
  simp only [IdAllocator.setEntry, get_set_ne _ _ hne]
  exact ⟨hu, haid, huntil⟩

theorem LeasedUntil.cleanupExpired (h : alloc.LeasedUntil aid leasedUntil) {nowTs : UInt64}
    (ht : nowTs ≤ leasedUntil) : (alloc.cleanupExpired nowTs).LeasedUntil aid leasedUntil := by
  obtain ⟨i, hu, hk, rfl⟩ := h
  refine ⟨i, ?_⟩
  rw [cleanupExpired_get, if_neg fun hexpired => UInt64.not_lt.mpr ht hexpired.2]
  exact ⟨hu, hk, rfl⟩

theorem LeasedUntil.allocate (h : alloc.LeasedUntil aid leasedUntil) {nowTs : UInt64}
    (ht : nowTs ≤ leasedUntil) : (alloc.allocate nowTs).1.LeasedUntil aid leasedUntil := by
  cases hr : alloc.allocate nowTs with
  | mk alloc' out =>
    cases out with
    | none =>
      rcases allocate_none hr with he | he
      · unfold LeasedUntil
        rw [he]
        exact h
      · unfold LeasedUntil
        rw [he]
        exact h.cleanupExpired ht
    | some k =>
      obtain ⟨-, i, hdead, he⟩ := allocate_granted hr
      obtain ⟨j, hu, hk, huntil⟩ := h
      have hlive : (alloc.entries.get j).Live nowTs := ⟨hu, huntil ▸ ht⟩
      have hne : i ≠ j := by
        rintro rfl
        exact hdead hlive
      refine ⟨j, ?_⟩
      rw [he, get_set_ne _ _ hne, swept_live hlive]
      exact ⟨hu, hk, huntil⟩

theorem LeasedUntil.idStep (h : alloc.LeasedUntil aid leasedUntil) {op : IdOp}
    (hop : ¬ op.Concerns aid) (ht : ∀ t ∈ op.nowTs, t ≤ leasedUntil) :
    (alloc.idStep op).LeasedUntil aid leasedUntil := by
  cases op with
  | cleanupExpired nowTs => exact h.cleanupExpired (ht nowTs rfl)
  | allocate nowTs => exact h.allocate (ht nowTs rfl)
  | release k =>
    simp only [IdAllocator.idStep, release]
    cases hf : alloc.findEntry k with
    | none => exact h
    | some i => exact h.setEntry hf hop _
  | touch k nowTs =>
    simp only [IdAllocator.idStep, touch]
    cases hf : alloc.findEntry k with
    | none => exact h
    | some i => exact h.setEntry hf hop _
  | setPolicy => exact h
  | setPolicyEx => exact h

theorem LeasedUntil.run {ops : List IdOp} (h : alloc.LeasedUntil aid leasedUntil)
    (hops : ∀ op ∈ ops, ¬ op.Concerns aid)
    (ht : ∀ t ∈ ops.filterMap IdOp.nowTs, t ≤ leasedUntil) :
    (ops.foldl IdAllocator.idStep alloc).LeasedUntil aid leasedUntil := by
  induction ops generalizing alloc with
  | nil => exact h
  | cons op ops ih =>
    refine ih (h.idStep (hops op List.mem_cons_self) fun t hop => ht t ?_)
      (fun op' hop' => hops op' (List.mem_cons_of_mem op hop')) fun t hmem => ht t ?_
    · exact List.mem_filterMap.mpr ⟨op, List.mem_cons_self, hop⟩
    · obtain ⟨op', hop', hnow⟩ := List.mem_filterMap.mp hmem
      exact List.mem_filterMap.mpr ⟨op', List.mem_cons_of_mem op hop', hnow⟩

/-! ## Two grants -/

variable {alloc' : IdAllocator n} {t₁ : UInt64}

theorem leasedUntil_allocate (h : alloc.allocate t₁ = (alloc', some aid)) :
    alloc'.LeasedUntil aid (t₁ + alloc.grantedLease t₁) := by
  obtain ⟨-, i, -, he⟩ := allocate_granted h
  refine ⟨i, ?_⟩
  rw [he, get_set_self]
  exact ⟨rfl, rfl, rfl⟩

/-- Until its end the aid is not granted again. -/
theorem lasts_of_noWrap (h : alloc.allocate t₁ = (alloc', some aid))
    (hsum : t₁.toNat + (alloc.grantedLease t₁).toNat < 2 ^ 64) :
    alloc'.LastsAsGranted aid t₁ (alloc.grantedLease t₁) := by
  intro between t₂ htimes hops hagain
  refine Nat.lt_of_not_le fun hle => ?_
  have hend : t₂ ≤ t₁ + alloc.grantedLease t₁ := by
    rw [UInt64.le_iff_toNat_le, UInt64.toNat_add, Nat.mod_eq_of_lt hsum]
    exact hle
  have hbefore : ∀ t ∈ between.filterMap IdOp.nowTs, t ≤ t₁ + alloc.grantedLease t₁ := by
    intro t ht
    have htail := (List.pairwise_cons.mp htimes).2
    exact UInt64.le_trans ((List.pairwise_append.mp htail).2.2 t ht t₂ (by simp)) hend
  have hheld := (leasedUntil_allocate h).run hops hbefore
  exact (allocate_granted (Prod.ext rfl hagain)).1 (hheld.leased hend)

/-- The grant leaves the leases there were. -/
theorem leased_after_grant (h : alloc.allocate t₁ = (alloc', some aid)) {k : UInt32}
    (hleased : alloc.Leased k t₁) : alloc'.Leased k t₁ := by
  obtain ⟨-, i, hdead, he⟩ := allocate_granted h
  obtain ⟨j, hu, haid, hlive⟩ := hleased
  have hne : i ≠ j := by
    rintro rfl
    exact hdead ⟨hu, hlive⟩
  refine ⟨j, ?_⟩
  unfold Holds
  rw [he, get_set_ne _ _ hne, swept_live ⟨hu, hlive⟩]
  exact ⟨hu, haid, hlive⟩

/-- A lease that ends before it starts is over at once, and its slot is free. -/
theorem over_at_once (h : alloc.allocate t₁ = (alloc', some aid))
    (hwrap : t₁ + alloc.grantedLease t₁ < t₁) :
    ¬ alloc'.Leased aid t₁ ∧ ∃ i, (alloc'.swept t₁).allocSlot = some i := by
  obtain ⟨hfree, i, -, he⟩ := allocate_granted h
  have hover : ¬ (alloc'.entries.get i).Live t₁ := by
    rw [he, get_set_self]
    exact fun hlive => UInt64.not_lt.mpr hlive.2 hwrap
  constructor
  · rintro ⟨j, hu, haid, hlive⟩
    by_cases hij : i = j
    · exact hover (hij ▸ ⟨hu, hlive⟩)
    · rw [he, get_set_ne _ _ hij] at hu haid
      have hbefore := (swept_inUse j).mp hu
      rw [swept_live hbefore] at haid
      exact hfree ⟨j, hbefore.1, haid, hbefore.2⟩
  · apply Option.ne_none_iff_exists'.mp
    intro hfull
    exact hover ((swept_inUse i).mp (vacant_none.mp hfull i))

/-- So the aid is granted again at the same time. -/
theorem granted_again (h : alloc.allocate t₁ = (alloc', some aid))
    (hwrap : t₁ + alloc.grantedLease t₁ < t₁) : (alloc'.allocate t₁).2 = some aid := by
  obtain ⟨hover, i, hslot⟩ := over_at_once h hwrap
  obtain ⟨hstart, hstop⟩ : SamePool alloc alloc' := by
    have hsame := samePool_allocate alloc t₁
    rwa [h] at hsame
  have hnth : ∀ k, alloc'.nthId k = alloc.nthId k := by
    intro k
    rw [nthId, nthId, hstart]
  obtain ⟨j, hj, rfl, hend, hleased⟩ := granted_first h
  have hrange : alloc'.startId ≤ alloc'.endId := by
    rw [hstart, hstop]
    exact allocate_range h
  have hend' : ∀ k ≤ j, alloc'.nthId k ≤ alloc'.endId := by
    intro k hk
    rw [hnth, hstop]
    exact hend k hk
  have hleased' : ∀ k < j, alloc'.Leased (alloc'.nthId k) t₁ := by
    intro k hk
    rw [hnth]
    exact leased_after_grant h (hleased k hk)
  rw [← hnth] at hover
  have hcall := allocate_first hrange hj hend' hover hleased'
  rw [hcall, hslot, hnth]

/-- An aid that is granted while leases do not adapt is not granted again during the lease,
exactly if the end of the lease can be told in 64 bits. -/
theorem lease_lasts_iff (hoff : alloc.adaptiveEnabled = false)
    (h : alloc.allocate t₁ = (alloc', some aid)) :
    alloc'.LastsAsGranted aid t₁ alloc.defaultLeaseSeconds ↔
      t₁.toNat + alloc.defaultLeaseSeconds.toNat < 2 ^ 64 := by
  have hlease := grantedLease_fixed hoff t₁
  constructor
  · intro hlasts
    refine Nat.lt_of_not_le fun hle => ?_
    have hwrap : t₁ + alloc.grantedLease t₁ < t₁ := by
      have htime := t₁.toNat_lt
      have hterm := alloc.defaultLeaseSeconds.toNat_lt
      rw [hlease, UInt64.lt_iff_toNat_lt, UInt64.toNat_add]
      omega
    have hlt := hlasts [] t₁ (by simp) (by simp) (granted_again h hwrap)
    omega
  · intro hsum
    rw [← hlease] at hsum ⊢
    exact lasts_of_noWrap h hsum

end

/-- An id leased for an hour, while leases do not adapt. -/
def hourLease : IdAllocator 16 :=
  [IdOp.setPolicy 60 3600 60 (1 / 5) false].foldl idStep (init 16 10 20 3600)

theorem hourLease_lasts_iff : (hourLease.allocate 1).1.LastsAsGranted 10 1 3600 ↔
    (1 : UInt64).toNat + (3600 : UInt64).toNat < 2 ^ 64 := by
  have hoff : hourLease.adaptiveEnabled = false := by decide +kernel
  have hgrant : hourLease.allocate 1 = ((hourLease.allocate 1).1, some 10) :=
    Prod.ext rfl (by decide +kernel)
  exact lease_lasts_iff hoff hgrant

/-- A default lease of all 64 bits. -/
def endlessLease : IdAllocator 16 :=
  [IdOp.setPolicy 60 3600 60 (1 / 5) false].foldl idStep (init 16 10 20 0xFFFFFFFFFFFFFFFF)

/-- The lease is over before it starts: the id is given to two devices at the same time. -/
theorem endlessLease_granted_twice :
    endlessLease.adaptiveEnabled = false ∧
    (endlessLease.allocate 1).2 = some 10 ∧
    ((endlessLease.allocate 1).1.allocate 1).2 = some 10 ∧
    ¬ (endlessLease.allocate 1).1.LastsAsGranted 10 1 endlessLease.defaultLeaseSeconds := by
  have hagain : ((endlessLease.allocate 1).1.allocate 1).2 = some 10 := by decide +kernel
  refine ⟨by decide +kernel, by decide +kernel, hagain, fun hlasts => ?_⟩
  have hlt := hlasts [] 1 (by simp) (by simp) hagain
  omega

end IdAllocator

end Osfx
