import Osfx.Sizes
import Osfx.Lib.Scan
import Osfx.Lib.SlotTable
import Mathlib.Data.Fintype.Pigeonhole
import Mathlib.Data.Rat.Defs

/-!
# The id allocator

`osfx_id_allocator.c` up to save and load: a table of leases found by aid, and the
policy that says how long a lease is. `n` is `OSFX_ID_MAX_ENTRIES`. What sets the
policy and loads it is there for every type of `double`s; what computes with them
takes them as rationals, exactly.
-/

namespace Osfx

open SlotTable

structure IdLeaseEntry where
  aid : UInt32
  leasedUntil : UInt64
  lastSeen : UInt64
  inUse : Bool
  deriving DecidableEq, Repr

def IdLeaseEntry.zero : IdLeaseEntry := ⟨0, 0, 0, false⟩

/-- What the setters of the policy and the loader ask of a `double`: the constants of the
source, the comparisons, and what `%lf` reads, in whatever forms and however rounded. -/
class PolicyDouble (Dbl : Type) where
  const : Rat → Dbl
  lt : Dbl → Dbl → Bool
  le : Dbl → Dbl → Bool
  scan : Bytes → Option (Dbl × Bytes)

/-- Exact rationals, read in the decimal form that a saved line has. -/
instance : PolicyDouble Rat where
  const x := x
  lt x y := decide (x < y)
  le x y := decide (x ≤ y)
  scan := Scan.real

structure IdAllocator (n : Nat) (Dbl : Type := Rat) where
  startId : UInt32
  endId : UInt32
  defaultLeaseSeconds : UInt64
  minLeaseSeconds : UInt64
  maxLeaseSeconds : UInt64
  rateWindowSeconds : UInt64
  highRateThresholdPerHour : Dbl
  highRateMinFactor : Dbl
  pressureHighWatermark : Dbl
  pressureMinFactor : Dbl
  touchExtendFactor : Dbl
  adaptiveEnabled : Bool
  recentWindowStart : UInt64
  recentAllocCount : UInt32
  entries : Vector IdLeaseEntry n
  deriving DecidableEq

namespace PolicyDouble

variable {Dbl : Type} [PolicyDouble Dbl]

/-- `x > 0.0`. -/
def positive (x : Dbl) : Bool := lt (const 0) x

/-- `x > 0.0 && x <= 1.0`. -/
def unitRange (x : Dbl) : Bool := positive x && le x (const 1)

@[simp] theorem positive_rat (x : Rat) : positive x = decide (x > 0) := rfl

@[simp] theorem unitRange_rat (x : Rat) : unitRange x = (decide (x > 0) && decide (x ≤ 1)) := rfl

@[simp] theorem scan_rat : (scan : Bytes → Option (Rat × Bytes)) = Scan.real := rfl

end PolicyDouble

/-- The conversion of a `double` to a `uint64_t`. -/
def toSeconds (x : Rat) : UInt64 := UInt64.ofNat x.floor.toNat

namespace IdAllocator

variable {n : Nat} {Dbl : Type}

def countInUse (alloc : IdAllocator n) : Nat := (alloc.entries.toList.filter (·.inUse)).length

/-- The number of ids of the pool, as a `uint32_t`: 0 for the pool of all ids. -/
def poolCapacity (alloc : IdAllocator n) : UInt32 :=
  if alloc.endId < alloc.startId then 0 else alloc.endId - alloc.startId + 1

/-- Start a new window of the allocation rate where the current one is over. -/
def rollWindow (alloc : IdAllocator n) (nowTs : UInt64) : IdAllocator n :=
  let alloc :=
    if alloc.recentWindowStart = 0 then { alloc with recentWindowStart := nowTs } else alloc
  if nowTs > alloc.recentWindowStart + alloc.rateWindowSeconds then
    { alloc with recentWindowStart := nowTs, recentAllocCount := 0 }
  else alloc

/-- The lease while leases adapt: shorter at a high allocation rate and in a crowded
pool, within the bounds of the policy. -/
def adaptiveLease (alloc : IdAllocator n) (nowTs : UInt64) : UInt64 :=
  let elapsed :=
    if nowTs > alloc.recentWindowStart then nowTs - alloc.recentWindowStart else 1
  let ratePerHour : Rat := alloc.recentAllocCount.toNat * 3600 / elapsed.toNat
  let cap := alloc.poolCapacity
  let pressureRatio : Rat := if cap > 0 then alloc.countInUse / cap.toNat else 0
  let lease : Rat := alloc.defaultLeaseSeconds.toNat
  let lease :=
    if ratePerHour ≥ alloc.highRateThresholdPerHour then lease * alloc.highRateMinFactor else lease
  let pressureScale :=
    if pressureRatio ≥ alloc.pressureHighWatermark then alloc.pressureMinFactor else 1
  let lease := lease * pressureScale
  let minLease : Rat := alloc.minLeaseSeconds.toNat
  let maxLease : Rat := alloc.maxLeaseSeconds.toNat
  let lease := if lease < minLease then minLease else lease
  let lease := if lease > maxLease then maxLease else lease
  toSeconds lease

def computeLeaseSeconds (alloc : IdAllocator n) (nowTs : UInt64) : IdAllocator n × UInt64 :=
  if alloc.adaptiveEnabled = false then (alloc, alloc.defaultLeaseSeconds)
  else (alloc.rollWindow nowTs, (alloc.rollWindow nowTs).adaptiveLease nowTs)

def findEntry (alloc : IdAllocator n) (aid : UInt32) : Option (Fin n) :=
  lookup IdLeaseEntry.inUse IdLeaseEntry.aid alloc.entries aid

def allocSlot (alloc : IdAllocator n Dbl) : Option (Fin n) :=
  vacant IdLeaseEntry.inUse alloc.entries

def setEntry (alloc : IdAllocator n Dbl) (i : Fin n) (e : IdLeaseEntry) : IdAllocator n Dbl :=
  { alloc with entries := alloc.entries.set i e i.isLt }

/-- `osfx_id_allocator_init`. -/
def init (n : Nat) (startId endId : UInt32) (defaultLeaseSeconds : UInt64) : IdAllocator n :=
  let lease := if defaultLeaseSeconds > 0 then defaultLeaseSeconds else 86400
  { startId
    endId
    defaultLeaseSeconds := lease
    minLeaseSeconds := 60
    maxLeaseSeconds := lease
    rateWindowSeconds := 3600
    highRateThresholdPerHour := 60
    highRateMinFactor := 1 / 5
    pressureHighWatermark := 4 / 5
    pressureMinFactor := 1 / 4
    touchExtendFactor := 1
    adaptiveEnabled := true
    recentWindowStart := 0
    recentAllocCount := 0
    entries := Vector.replicate n .zero }

section
variable [PolicyDouble Dbl]

open PolicyDouble

def setPolicyEx (alloc : IdAllocator n Dbl)
    (minLeaseSeconds maxLeaseSeconds rateWindowSeconds : UInt64)
    (highRateThresholdPerHour highRateMinFactor pressureHighWatermark pressureMinFactor
      touchExtendFactor : Dbl)
    (adaptiveEnabled : Bool) : IdAllocator n Dbl :=
  let minLease := if minLeaseSeconds > 0 then minLeaseSeconds else 1
  { alloc with
    minLeaseSeconds := minLease
    maxLeaseSeconds := if maxLeaseSeconds ≥ minLease then maxLeaseSeconds else minLease
    rateWindowSeconds := if rateWindowSeconds > 0 then rateWindowSeconds else 1
    highRateThresholdPerHour :=
      if positive highRateThresholdPerHour then highRateThresholdPerHour else const 1
    highRateMinFactor := if unitRange highRateMinFactor then highRateMinFactor else const (1 / 5)
    pressureHighWatermark :=
      if unitRange pressureHighWatermark then pressureHighWatermark else const (4 / 5)
    pressureMinFactor := if unitRange pressureMinFactor then pressureMinFactor else const (1 / 4)
    touchExtendFactor := if positive touchExtendFactor then touchExtendFactor else const 1
    adaptiveEnabled }

def setPolicy (alloc : IdAllocator n Dbl) (minLeaseSeconds rateWindowSeconds : UInt64)
    (highRateThresholdPerHour highRateMinFactor : Dbl) (adaptiveEnabled : Bool) :
    IdAllocator n Dbl :=
  let maxLease :=
    if alloc.maxLeaseSeconds = 0 then
      if alloc.defaultLeaseSeconds > 0 then alloc.defaultLeaseSeconds else 86400
    else alloc.maxLeaseSeconds
  alloc.setPolicyEx minLeaseSeconds maxLease rateWindowSeconds highRateThresholdPerHour
    highRateMinFactor alloc.pressureHighWatermark alloc.pressureMinFactor alloc.touchExtendFactor
    adaptiveEnabled

end

/-- `osfx_id_allocator_cleanup_expired`. -/
def cleanupExpired (alloc : IdAllocator n) (nowTs : UInt64) : IdAllocator n :=
  { alloc with
    entries := alloc.entries.map fun e =>
      if e.inUse ∧ nowTs > e.leasedUntil then .zero else e }

/-- Give the entry in slot `i` to `aid`. -/
def grant (alloc : IdAllocator n) (i : Fin n) (aid : UInt32) (nowTs lease : UInt64) :
    IdAllocator n :=
  { alloc.setEntry i ⟨aid, nowTs + lease, nowTs, true⟩ with
    recentAllocCount := alloc.recentAllocCount + 1 }

/-- The loop of `osfx_id_allocate` over the ids, at most `count` of them. The counter
of the loop is a `uint32_t`, so after the last id of all it goes on with 0. -/
def allocateFrom (alloc : IdAllocator n) (nowTs lease : UInt64) :
    Nat → UInt32 → IdAllocator n × Option UInt32
  | 0, _ => (alloc, none)
  | count + 1, aid =>
    if aid ≤ alloc.endId then
      match alloc.findEntry aid with
      | none =>
        match alloc.allocSlot with
        | none => (alloc, none)
        | some i => (alloc.grant i aid nowTs lease, some aid)
      | some i =>
        if nowTs > (alloc.entries.get i).leasedUntil then
          (alloc.grant i aid nowTs lease, some aid)
        else alloc.allocateFrom nowTs lease count (aid + 1)
    else (alloc, none)

/-- `osfx_id_allocate`: the allocator, and the id if it returns 1. -/
def allocate (alloc : IdAllocator n) (nowTs : UInt64) : IdAllocator n × Option UInt32 :=
  if alloc.startId > alloc.endId then (alloc, none)
  else
    let leased := (alloc.cleanupExpired nowTs).computeLeaseSeconds nowTs
    leased.1.allocateFrom nowTs leased.2 (n + 1) leased.1.startId

def release (alloc : IdAllocator n) (aid : UInt32) : IdAllocator n × Bool :=
  match alloc.findEntry aid with
  | none => (alloc, false)
  | some i => (alloc.setEntry i .zero, true)

def touchLease (alloc : IdAllocator n) : UInt64 :=
  let extend := toSeconds (alloc.defaultLeaseSeconds.toNat * alloc.touchExtendFactor)
  let extend := if extend < alloc.minLeaseSeconds then alloc.minLeaseSeconds else extend
  if extend > alloc.maxLeaseSeconds then alloc.maxLeaseSeconds else extend

def touch (alloc : IdAllocator n) (aid : UInt32) (nowTs : UInt64) : IdAllocator n × Bool :=
  match alloc.findEntry aid with
  | none => (alloc, false)
  | some i =>
    (alloc.setEntry i { alloc.entries.get i with
      lastSeen := nowTs, leasedUntil := nowTs + alloc.touchLease }, true)

/-! ## The loop over the ids -/

/-- Ids in a row that all have entries have them in different slots. -/
theorem row_slots {alloc : IdAllocator n} {aid : UInt32} {count : Nat} (hcount : count ≤ 2 ^ 32)
    (h : ∀ j < count, alloc.findEntry (aid + UInt32.ofNat j) ≠ none) :
    ∃ slot : Fin count → Fin n, Function.Injective slot ∧
      ∀ j, alloc.findEntry (aid + UInt32.ofNat j.val) = some (slot j) := by
  have hfound : ∀ j : Fin count, ∃ i, alloc.findEntry (aid + UInt32.ofNat j.val) = some i :=
    fun j => Option.ne_none_iff_exists'.mp (h j.val j.isLt)
  choose slot hslot using hfound
  refine ⟨slot, fun j k hjk => ?_, hslot⟩
  have hj := (lookup_some (hslot j)).2
  have hk := (lookup_some (hslot k)).2
  rw [hjk] at hj
  have hword : UInt32.ofNat j.val = UInt32.ofNat k.val :=
    (UInt32.add_right_inj aid).mp (hj.symm.trans hk)
  have hnat := congrArg UInt32.toNat hword
  simp only [UInt32.toNat_ofNat'] at hnat
  apply Fin.ext
  have hjn := j.isLt
  have hkn := k.isLt
  omega

/-- There are no more of them than the table has slots. -/
theorem row_le {alloc : IdAllocator n} {aid : UInt32} {count : Nat} (hcount : count ≤ 2 ^ 32)
    (h : ∀ j < count, alloc.findEntry (aid + UInt32.ofNat j) ≠ none) : count ≤ n := by
  obtain ⟨slot, hinjective, -⟩ := row_slots hcount h
  have hcard := Fintype.card_le_of_injective slot hinjective
  simpa using hcard

/-- A free slot is none of theirs. -/
theorem row_lt {alloc : IdAllocator n} {aid : UInt32} {count : Nat} (hcount : count ≤ 2 ^ 32)
    (h : ∀ j < count, alloc.findEntry (aid + UInt32.ofNat j) ≠ none) {i : Fin n}
    (hfree : (alloc.entries.get i).inUse = false) : count < n := by
  obtain ⟨slot, hinjective, hslot⟩ := row_slots hcount h
  have hother : i ∉ Set.range slot := by
    rintro ⟨j, rfl⟩
    have hused := (lookup_some (hslot j)).1
    rw [hfree] at hused
    cases hused
  have hcard := Fintype.card_lt_of_injective_of_notMem slot hinjective hother
  simpa using hcard

/-- Among any `n + 1` ids in a row, one has no entry. -/
theorem exists_free_id (hn : n < 2 ^ 32) (alloc : IdAllocator n) (aid : UInt32) :
    ∃ j < n + 1, alloc.findEntry (aid + UInt32.ofNat j) = none := by
  refine Classical.byContradiction fun hall => ?_
  have hrow : ∀ j < n + 1, alloc.findEntry (aid + UInt32.ofNat j) ≠ none :=
    fun j hj hnone => hall ⟨j, hj, hnone⟩
  have hle := row_le (by omega) hrow
  omega

/-- The loop ends at the first id without an entry, if not before. -/
theorem allocateFrom_add {alloc : IdAllocator n} {nowTs lease : UInt64} {count : Nat}
    {aid : UInt32} (h : ∃ j < count, alloc.findEntry (aid + UInt32.ofNat j) = none) (more : Nat) :
    alloc.allocateFrom nowTs lease (count + more) aid =
      alloc.allocateFrom nowTs lease count aid := by
  induction count generalizing aid with
  | zero =>
    obtain ⟨j, hj, -⟩ := h
    exact absurd hj (Nat.not_lt_zero j)
  | succ count ih =>
    rw [Nat.add_right_comm]
    simp only [allocateFrom]
    split
    · split
      · rfl
      · rename_i i hi
        split
        · rfl
        · apply ih
          obtain ⟨j, hj, hfree⟩ := h
          cases j with
          | zero =>
            rw [show UInt32.ofNat 0 = 0 from rfl, UInt32.add_zero, hi] at hfree
            cases hfree
          | succ j =>
            refine ⟨j, by omega, ?_⟩
            rw [UInt32.ofNat_add, UInt32.add_comm (UInt32.ofNat j), ← UInt32.add_assoc] at hfree
            exact hfree
    · rfl

/-- The loop of `osfx_id_allocate` never takes more than `n + 1` turns. -/
theorem allocateFrom_enough (hn : n < 2 ^ 32) (alloc : IdAllocator n) (nowTs lease : UInt64)
    (aid : UInt32) (more : Nat) :
    alloc.allocateFrom nowTs lease (n + 1 + more) aid =
      alloc.allocateFrom nowTs lease (n + 1) aid :=
  allocateFrom_add (exists_free_id hn alloc aid) more

/-- An id is granted in the slot it has, or in a free one while it has none. -/
theorem allocateFrom_some {alloc alloc' : IdAllocator n} {nowTs lease : UInt64} {count : Nat}
    {aid out : UInt32} (h : alloc.allocateFrom nowTs lease count aid = (alloc', some out)) :
    ∃ i, alloc' = alloc.grant i out nowTs lease ∧
      SlotOf IdLeaseEntry.inUse IdLeaseEntry.aid alloc.entries out i ∧
      ((alloc.entries.get i).inUse = true → nowTs > (alloc.entries.get i).leasedUntil) := by
  induction count generalizing aid with
  | zero => cases h
  | succ count ih =>
    simp only [allocateFrom] at h
    split at h
    · split at h
      · rename_i hnone
        split at h
        · cases h
        · rename_i i hi
          cases h
          have hfree := vacant_some hi
          refine ⟨i, rfl, Or.inr ⟨hnone, hfree⟩, fun hu => ?_⟩
          rw [hfree] at hu
          cases hu
      · rename_i i hi
        split at h
        · rename_i hexpired
          cases h
          exact ⟨i, rfl, Or.inl hi, fun _ => hexpired⟩
        · exact ih h
    · cases h

theorem allocateFrom_none {alloc alloc' : IdAllocator n} {nowTs lease : UInt64} {count : Nat}
    {aid : UInt32} (h : alloc.allocateFrom nowTs lease count aid = (alloc', none)) :
    alloc' = alloc := by
  induction count generalizing aid with
  | zero =>
    cases h
    rfl
  | succ count ih =>
    simp only [allocateFrom] at h
    split at h
    · split at h
      · split at h
        · cases h
          rfl
        · cases h
      · split at h
        · cases h
        · exact ih h
    · cases h
      rfl

/-! ## What the operations leave of the table -/

@[simp] theorem rollWindow_entries (alloc : IdAllocator n) (nowTs : UInt64) :
    (alloc.rollWindow nowTs).entries = alloc.entries := by
  simp only [rollWindow]
  split <;> split <;> rfl

@[simp] theorem computeLeaseSeconds_entries (alloc : IdAllocator n) (nowTs : UInt64) :
    (alloc.computeLeaseSeconds nowTs).1.entries = alloc.entries := by
  unfold computeLeaseSeconds
  split
  · rfl
  · exact rollWindow_entries alloc nowTs

/-- The lease a call of `osfx_id_allocate` grants. -/
def grantedLease (alloc : IdAllocator n) (nowTs : UInt64) : UInt64 :=
  ((alloc.cleanupExpired nowTs).computeLeaseSeconds nowTs).2

/-- A call that returns 0 has cleaned up, if it has done anything. -/
theorem allocate_none {alloc alloc' : IdAllocator n} {nowTs : UInt64}
    (h : alloc.allocate nowTs = (alloc', none)) :
    alloc'.entries = alloc.entries ∨ alloc'.entries = (alloc.cleanupExpired nowTs).entries := by
  unfold allocate at h
  split at h
  · cases h
    exact Or.inl rfl
  · rw [allocateFrom_none h]
    exact Or.inr (computeLeaseSeconds_entries _ _)

/-- A call that returns 1 writes its grant in a slot of the cleaned up table. -/
theorem allocate_some {alloc alloc' : IdAllocator n} {nowTs : UInt64} {out : UInt32}
    (h : alloc.allocate nowTs = (alloc', some out)) :
    ∃ i : Fin n, alloc'.entries = (alloc.cleanupExpired nowTs).entries.set i
        ⟨out, nowTs + alloc.grantedLease nowTs, nowTs, true⟩ i.isLt ∧
      SlotOf IdLeaseEntry.inUse IdLeaseEntry.aid (alloc.cleanupExpired nowTs).entries out i ∧
      (((alloc.cleanupExpired nowTs).entries.get i).inUse = true →
        nowTs > ((alloc.cleanupExpired nowTs).entries.get i).leasedUntil) := by
  unfold allocate at h
  split at h
  · cases h
  · obtain ⟨i, rfl, hslot, hexpired⟩ := allocateFrom_some h
    simp only [computeLeaseSeconds_entries] at hslot hexpired
    refine ⟨i, ?_, hslot, hexpired⟩
    simp only [grant, setEntry, computeLeaseSeconds_entries, grantedLease]

end IdAllocator

end Osfx
