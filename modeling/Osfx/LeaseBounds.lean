import Osfx.IdPool

/-!
# The bounds of a lease

The policy has a shortest and a longest lease. A lease that adapts is cut to them, and so
is one that is renewed; while leases do not adapt, each is the default lease, whatever the
bounds. `leases_bounded` is about every run that has set a policy, or whose default lease
is one that the bounds of `osfx_id_allocator_init` allow for.
-/

namespace Osfx

open SlotTable

namespace IdAllocator

variable {n : Nat}

/-- The lease of `P` seconds that a call which returns 1 gives: from the time of the call
until the one in the entry of the aid. -/
def GrantsWithin (P : UInt64 → Prop) (alloc : IdAllocator n) : Prop :=
  ∀ nowTs alloc' aid, alloc.allocate nowTs = (alloc', some aid) →
    ∃ i, alloc'.findEntry aid = some i ∧ P ((alloc'.entries.get i).leasedUntil - nowTs)

def RenewsWithin (P : UInt64 → Prop) (alloc : IdAllocator n) : Prop :=
  ∀ nowTs alloc' aid, alloc.touch aid nowTs = (alloc', true) →
    ∃ i, alloc'.findEntry aid = some i ∧ P ((alloc'.entries.get i).leasedUntil - nowTs)

def Within (alloc : IdAllocator n) (lease : UInt64) : Prop :=
  alloc.minLeaseSeconds ≤ lease ∧ lease ≤ alloc.maxLeaseSeconds

/-- The bounds of the policy hold of every lease. -/
structure BoundsEvery (alloc : IdAllocator n) : Prop where
  bounds : alloc.minLeaseSeconds ≤ alloc.maxLeaseSeconds
  granted : alloc.GrantsWithin alloc.Within
  renewed : alloc.RenewsWithin alloc.Within

/-- They hold of every lease that adapts and of every renewal; a lease that does not adapt
is the default lease. -/
structure BoundsAdaptive (alloc : IdAllocator n) : Prop where
  bounds : alloc.minLeaseSeconds ≤ alloc.maxLeaseSeconds
  adaptive : alloc.adaptiveEnabled = true → alloc.GrantsWithin alloc.Within
  fixed : alloc.adaptiveEnabled = false → alloc.GrantsWithin (· = alloc.defaultLeaseSeconds)
  renewed : alloc.RenewsWithin alloc.Within

/-! ## The bounds -/

theorem SamePolicy.within {alloc alloc' : IdAllocator n} (h : SamePolicy alloc alloc') :
    alloc'.Within = alloc.Within := by
  obtain ⟨_, _, _, rfl⟩ := h
  rfl

theorem SamePolicy.bounds {alloc alloc' : IdAllocator n} (h : SamePolicy alloc alloc')
    (hbounds : alloc.minLeaseSeconds ≤ alloc.maxLeaseSeconds) :
    alloc'.minLeaseSeconds ≤ alloc'.maxLeaseSeconds := by
  obtain ⟨_, _, _, rfl⟩ := h
  exact hbounds

theorem setPolicyEx_bounds (alloc : IdAllocator n) (minLease maxLease rateWindow : UInt64)
    (threshold factor pressureHigh pressureMin touchFactor : Rat) (adaptive : Bool) :
    (alloc.setPolicyEx minLease maxLease rateWindow threshold factor pressureHigh pressureMin
      touchFactor adaptive).minLeaseSeconds ≤
    (alloc.setPolicyEx minLease maxLease rateWindow threshold factor pressureHigh pressureMin
      touchFactor adaptive).maxLeaseSeconds := by
  simp only [setPolicyEx]
  generalize (if minLease > 0 then minLease else 1) = low
  split
  · assumption
  · exact UInt64.le_refl low

theorem bounds_of_policy (alloc : IdAllocator n) {op : IdOp} (h : ¬ op.KeepsPolicy) :
    (alloc.idStep op).minLeaseSeconds ≤ (alloc.idStep op).maxLeaseSeconds := by
  cases op with
  | setPolicy => exact setPolicyEx_bounds _ _ _ _ _ _ _ _ _ _
  | setPolicyEx => exact setPolicyEx_bounds _ _ _ _ _ _ _ _ _ _
  | _ => exact absurd trivial h

theorem bounds_idStep {alloc : IdAllocator n} (h : alloc.minLeaseSeconds ≤ alloc.maxLeaseSeconds)
    (op : IdOp) : (alloc.idStep op).minLeaseSeconds ≤ (alloc.idStep op).maxLeaseSeconds := by
  by_cases hkeeps : op.KeepsPolicy
  · exact (samePolicy_idStep alloc hkeeps).bounds h
  · exact bounds_of_policy alloc hkeeps

theorem bounds_run {alloc : IdAllocator n} (ops : List IdOp)
    (h : alloc.minLeaseSeconds ≤ alloc.maxLeaseSeconds ∨ ∃ op ∈ ops, ¬ op.KeepsPolicy) :
    (ops.foldl idStep alloc).minLeaseSeconds ≤ (ops.foldl idStep alloc).maxLeaseSeconds := by
  induction ops generalizing alloc with
  | nil =>
    rcases h with h | ⟨op, hop, -⟩
    · exact h
    · cases hop
  | cons op ops ih =>
    refine ih ?_
    rcases h with h | ⟨op', hop', hsets⟩
    · exact Or.inl (bounds_idStep h op)
    · rcases List.mem_cons.mp hop' with rfl | hrest
      · exact Or.inl (bounds_of_policy alloc hsets)
      · exact Or.inr ⟨op', hrest, hsets⟩

theorem toSeconds_bounds {low high : UInt64} {x : Rat} (hlow : (low.toNat : Rat) ≤ x)
    (hhigh : x ≤ (high.toNat : Rat)) : low ≤ toSeconds x ∧ toSeconds x ≤ high := by
  have hge : (low.toNat : Int) ≤ x.floor := by
    rw [Rat.le_floor_iff, Rat.intCast_natCast]
    exact hlow
  have hle : x.floor ≤ (high.toNat : Int) := by
    have hmono := Rat.floor_monotone hhigh
    rwa [← Rat.intCast_natCast, Rat.floor_intCast] at hmono
  have hmax := high.toNat_lt
  have hvalue : (toSeconds x).toNat = x.floor.toNat := by
    rw [toSeconds, UInt64.toNat_ofNat', Nat.mod_eq_of_lt (by omega)]
  rw [UInt64.le_iff_toNat_le, UInt64.le_iff_toNat_le, hvalue]
  omega

/-- What is cut to two bounds lies between them, if they do. -/
theorem cut_bounds {α : Type} [LE α] [LT α] [Std.IsLinearOrder α] [Std.LawfulOrderLT α]
    {low high x : α} [Decidable (x < low)]
    [Decidable ((if x < low then low else x) > high)] (h : low ≤ high) :
    low ≤ (if (if x < low then low else x) > high then high else if x < low then low else x) ∧
    (if (if x < low then low else x) > high then high else if x < low then low else x) ≤ high := by
  have hlow : low ≤ if x < low then low else x := by
    split
    · exact Std.le_refl low
    · exact Std.not_lt.mp (by assumption)
  generalize (if x < low then low else x) = y at *
  split
  · exact ⟨h, Std.le_refl high⟩
  · exact ⟨hlow, Std.not_lt.mp (by assumption)⟩

theorem adaptiveLease_within {alloc : IdAllocator n}
    (h : alloc.minLeaseSeconds ≤ alloc.maxLeaseSeconds) (nowTs : UInt64) :
    alloc.Within (alloc.adaptiveLease nowTs) := by
  have hle : (alloc.minLeaseSeconds.toNat : Rat) ≤ (alloc.maxLeaseSeconds.toNat : Rat) :=
    Rat.natCast_le_natCast.mpr (UInt64.le_iff_toNat_le.mp h)
  -- How the rate and the pressure scale the lease plays no part: what they give is cut.
  obtain ⟨lease, hlease⟩ : ∃ lease : Rat, alloc.adaptiveLease nowTs = toSeconds
      (if (if lease < (alloc.minLeaseSeconds.toNat : Rat) then (alloc.minLeaseSeconds.toNat : Rat)
          else lease) > (alloc.maxLeaseSeconds.toNat : Rat) then (alloc.maxLeaseSeconds.toNat : Rat)
        else if lease < (alloc.minLeaseSeconds.toNat : Rat) then (alloc.minLeaseSeconds.toNat : Rat)
        else lease) := ⟨_, rfl⟩
  rw [hlease]
  exact toSeconds_bounds (cut_bounds hle).1 (cut_bounds hle).2

theorem touchLease_within {alloc : IdAllocator n}
    (h : alloc.minLeaseSeconds ≤ alloc.maxLeaseSeconds) : alloc.Within alloc.touchLease :=
  cut_bounds h

/-! ## The leases that are given -/

/-- A call that returns 1 gives the lease that was computed. -/
theorem grantsWithin_of {alloc : IdAllocator n} {P : UInt64 → Prop}
    (h : ∀ nowTs, P (alloc.grantedLease nowTs)) : alloc.GrantsWithin P := by
  intro nowTs alloc' aid hr
  obtain ⟨i, hentries, hslot, -⟩ := allocate_some hr
  refine ⟨i, ?_, ?_⟩
  · rw [findEntry, hentries]
    exact lookup_set_self
      (a := (⟨aid, nowTs + alloc.grantedLease nowTs, nowTs, true⟩ : IdLeaseEntry)) hslot rfl
  · rw [hentries, get_set_self, UInt64.add_comm, UInt64.add_sub_cancel]
    exact h nowTs

theorem renewsWithin_of {alloc : IdAllocator n} {P : UInt64 → Prop} (h : P alloc.touchLease) :
    alloc.RenewsWithin P := by
  intro nowTs alloc' aid hr
  unfold touch at hr
  cases hf : alloc.findEntry aid with
  | none =>
    rw [hf] at hr
    cases hr
  | some i =>
    rw [hf] at hr
    cases hr
    obtain ⟨hused, rfl⟩ := lookup_some hf
    have hslot : SlotOf IdLeaseEntry.inUse IdLeaseEntry.aid alloc.entries
        (alloc.entries.get i).aid i := Or.inl hf
    refine ⟨i, ?_, ?_⟩
    · exact lookup_set_self (a := { alloc.entries.get i with
        lastSeen := nowTs, leasedUntil := nowTs + alloc.touchLease }) hslot hused
    · simp only [setEntry, get_set_self]
      rw [UInt64.add_comm, UInt64.add_sub_cancel]
      exact h

theorem grantedLease_fixed {alloc : IdAllocator n} (h : alloc.adaptiveEnabled = false)
    (nowTs : UInt64) : alloc.grantedLease nowTs = alloc.defaultLeaseSeconds := by
  have hclean : (alloc.cleanupExpired nowTs).adaptiveEnabled = false := h
  rw [grantedLease, computeLeaseSeconds, if_pos hclean]
  rfl

theorem grantedLease_adaptive {alloc : IdAllocator n} (h : alloc.adaptiveEnabled = true)
    (hbounds : alloc.minLeaseSeconds ≤ alloc.maxLeaseSeconds) (nowTs : UInt64) :
    alloc.Within (alloc.grantedLease nowTs) := by
  have hclean : ¬ (alloc.cleanupExpired nowTs).adaptiveEnabled = false := by
    rw [Bool.not_eq_false]
    exact h
  rw [grantedLease, computeLeaseSeconds, if_neg hclean]
  have hroll := samePolicy_rollWindow (alloc.cleanupExpired nowTs) nowTs
  have hwithin := adaptiveLease_within (hroll.bounds hbounds) nowTs
  rw [hroll.within] at hwithin
  exact hwithin

/-- While the shortest lease is no longer than the longest, they bound the leases. -/
theorem boundsAdaptive_of {alloc : IdAllocator n}
    (h : alloc.minLeaseSeconds ≤ alloc.maxLeaseSeconds) : alloc.BoundsAdaptive where
  bounds := h
  adaptive := fun hon => grantsWithin_of (grantedLease_adaptive hon h)
  fixed := fun hoff => grantsWithin_of (grantedLease_fixed hoff)
  renewed := renewsWithin_of (touchLease_within h)

/-- The longest lease that `osfx_id_allocator_init` sets is the default lease, and the
shortest is a minute: they fit each other if a policy has been set, or the default lease is
not below a minute. -/
theorem leases_bounded (startId endId : UInt32) (lease : UInt64) (ops : List IdOp)
    (h : lease = 0 ∨ 60 ≤ lease ∨ ∃ op ∈ ops, ¬ op.KeepsPolicy) :
    (ops.foldl idStep (init n startId endId lease)).BoundsAdaptive := by
  refine boundsAdaptive_of (bounds_run ops ?_)
  rcases h with rfl | hlong | hsets
  · refine Or.inl ?_
    simp only [init]
    decide
  · refine Or.inl ?_
    have hpos : lease > 0 := by
      rw [gt_iff_lt, UInt64.lt_iff_toNat_lt]
      exact Nat.lt_of_lt_of_le (by decide) (UInt64.le_iff_toNat_le.mp hlong)
    simp only [init, if_pos hpos]
    exact hlong
  · exact Or.inr hsets

/-- A default lease of an hour, and a policy of five minutes at most under which leases do
not adapt. -/
def fixedLeasePolicy : IdAllocator 16 :=
  [IdOp.setPolicyEx 60 300 3600 60 (1 / 5) (4 / 5) (1 / 4) 1 false].foldl idStep
    (init 16 10 20 3600)

theorem fixedLeasePolicy_bounded : fixedLeasePolicy.BoundsAdaptive :=
  leases_bounded 10 20 3600 [.setPolicyEx 60 300 3600 60 (1 / 5) (4 / 5) (1 / 4) 1 false]
    (Or.inr (Or.inl (by decide)))

/-- It gives leases of an hour. -/
theorem fixedLeasePolicy_exceeds :
    fixedLeasePolicy.maxLeaseSeconds = 300 ∧ fixedLeasePolicy.grantedLease 1 = 3600 ∧
    ¬ fixedLeasePolicy.BoundsEvery := by
  have hlease : ¬ ∃ i, (fixedLeasePolicy.allocate 1).1.findEntry 10 = some i ∧
      fixedLeasePolicy.Within
        (((fixedLeasePolicy.allocate 1).1.entries.get i).leasedUntil - 1) := by
    unfold Within
    decide +kernel
  have hgranted : (fixedLeasePolicy.allocate 1).2 = some 10 := by decide +kernel
  refine ⟨by decide +kernel, by decide +kernel, fun h => ?_⟩
  refine hlease (h.granted 1 _ 10 ?_)
  rw [← hgranted]

end IdAllocator

end Osfx
