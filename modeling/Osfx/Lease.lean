import Osfx.IdStorage

/-!
# Exclusive leases

No two leases have the same aid, whatever is done to an allocator, and a new one is
never for an aid that is leased (`leases_exclusive`). Leases that are saved and loaded
are as distinct as before, but only if the lines of the policy fit the buffer they
are printed in: else a piece of the policy can be read as a lease
(`cut_policy_leases_twice`).
-/

namespace Osfx

open SlotTable Scan Numeral

namespace IdAllocator

variable {n : Nat}

/-- No two leases have the same aid. -/
def AidsDistinct (alloc : IdAllocator n) : Prop :=
  Distinct IdLeaseEntry.inUse IdLeaseEntry.aid alloc.entries

theorem aidsDistinct_init (startId endId : UInt32) (lease : UInt64) :
    (init n startId endId lease).AidsDistinct :=
  distinct_replicate rfl

/-! ## Operations on the table -/

theorem aidsDistinct_cleanupExpired {alloc : IdAllocator n} (h : alloc.AidsDistinct)
    (nowTs : UInt64) : (alloc.cleanupExpired nowTs).AidsDistinct := by
  refine distinct_map h fun e hu => ?_
  split at hu
  · cases hu
  · rename_i hkept
    exact if_neg hkept

theorem aidsDistinct_allocate {alloc : IdAllocator n} (h : alloc.AidsDistinct) (nowTs : UInt64) :
    (alloc.allocate nowTs).1.AidsDistinct := by
  have hclean := aidsDistinct_cleanupExpired h nowTs
  unfold AidsDistinct at hclean ⊢
  cases hr : alloc.allocate nowTs with
  | mk alloc' out =>
    cases out with
    | none =>
      rcases allocate_none hr with he | he
      · rw [he]
        exact h
      · rw [he]
        exact hclean
    | some aid =>
      obtain ⟨i, he, hslot, -⟩ := allocate_some hr
      rw [he]
      exact distinct_set_slot hclean hslot

theorem aidsDistinct_release {alloc : IdAllocator n} (h : alloc.AidsDistinct) (aid : UInt32) :
    (alloc.release aid).1.AidsDistinct := by
  unfold release
  split
  · exact h
  · exact distinct_set_unused h rfl

theorem aidsDistinct_touch {alloc : IdAllocator n} (h : alloc.AidsDistinct) (aid : UInt32)
    (nowTs : UInt64) : (alloc.touch aid nowTs).1.AidsDistinct := by
  unfold touch
  split
  · exact h
  · rename_i i hi
    exact distinct_set_same h (lookup_some hi).1 rfl

/-! ## A single grant -/

/-- Slot `i` holds an unexpired lease of `aid`. -/
def Holds (alloc : IdAllocator n) (aid : UInt32) (nowTs : UInt64) (i : Fin n) : Prop :=
  (alloc.entries.get i).inUse = true ∧ (alloc.entries.get i).aid = aid ∧
    nowTs ≤ (alloc.entries.get i).leasedUntil

/-- A call that returns 1 grants an aid nobody held, and one entry holds it then; the
sum of the time and the lease is no more than a `uint64_t` can be. -/
def GrantsExclusively (alloc : IdAllocator n) (nowTs : UInt64) : Prop :=
  ∀ alloc' aid, alloc.allocate nowTs = (alloc', some aid) →
    nowTs.toNat + (alloc.grantedLease nowTs).toNat < 2 ^ 64 →
    (∀ i, ¬ alloc.Holds aid nowTs i) ∧
    ∃ i, alloc'.Holds aid nowTs i ∧
      ∀ j : Fin n, (alloc'.entries.get j).inUse = true → (alloc'.entries.get j).aid = aid → j = i

/-- A sweep leaves the leases that have not expired. -/
theorem cleanupExpired_get {alloc : IdAllocator n} {nowTs : UInt64} {i : Fin n} :
    (alloc.cleanupExpired nowTs).entries.get i =
      if (alloc.entries.get i).inUse ∧ nowTs > (alloc.entries.get i).leasedUntil then
        IdLeaseEntry.zero
      else alloc.entries.get i :=
  get_map _ _ _

theorem holds_cleanupExpired {alloc : IdAllocator n} {aid : UInt32} {nowTs : UInt64} {i : Fin n}
    (h : alloc.Holds aid nowTs i) : (alloc.cleanupExpired nowTs).Holds aid nowTs i := by
  have hkept : ¬ ((alloc.entries.get i).inUse = true ∧
      nowTs > (alloc.entries.get i).leasedUntil) :=
    fun hexpired => UInt64.not_lt.mpr h.2.2 hexpired.2
  unfold Holds
  rw [cleanupExpired_get, if_neg hkept]
  exact h

theorem grantsExclusively {alloc : IdAllocator n} (h : alloc.AidsDistinct) (nowTs : UInt64) :
    alloc.GrantsExclusively nowTs := by
  intro alloc' aid hr hsum
  have hdistinct : alloc'.AidsDistinct := by
    have := aidsDistinct_allocate h nowTs
    rwa [hr] at this
  obtain ⟨i, he, hslot, hexpired⟩ := allocate_some hr
  constructor
  · intro j hj
    obtain ⟨hu, hk, hlive⟩ := holds_cleanupExpired hj
    rcases hslot with hfound | ⟨hnone, -⟩
    · have hij : j = i := by
        have hclean := aidsDistinct_cleanupExpired h nowTs
        obtain ⟨hu', hk'⟩ := lookup_some hfound
        exact hclean j i hu hu' (hk.trans hk'.symm)
      rw [hij] at hu hlive
      exact absurd (hexpired hu) (UInt64.not_lt.mpr hlive)
    · exact lookup_none.mp hnone j hu hk
  · have hentry : alloc'.entries.get i =
        ⟨aid, nowTs + alloc.grantedLease nowTs, nowTs, true⟩ := by
      simp only [he, get_set_self]
    refine ⟨i, ⟨?_, ?_, ?_⟩, fun j hu hk => ?_⟩
    · rw [hentry]
    · rw [hentry]
    · rw [hentry, UInt64.le_iff_toNat_le, UInt64.toNat_add, Nat.mod_eq_of_lt hsum]
      exact Nat.le_add_right _ _
    · apply hdistinct j i hu
      · rw [hentry]
      · rw [hentry, hk]

/-! ## Lines of a file -/

theorem scanEntry_entryText (e : IdLeaseEntry) :
    scanEntry (entryText e) = some ⟨e.aid, e.leasedUntil, e.lastSeen, true⟩ := by
  simp only [scanEntry, entryText, u32_decimal _ (delimited_comma _), literal_comma,
    u64_decimal _ (delimited_comma _), u64_decimal _ delimited_newline, Option.bind_eq_bind,
    Option.bind_some]
  rfl

/-- The line starts with a letter. -/
def Lettered (line : Bytes) : Prop := ∃ b rest, line = b :: rest ∧ 97 ≤ b.toNat

/-- A line that starts with a letter is no lease. -/
theorem scanEntry_lettered {line : Bytes} (h : Lettered line) : scanEntry line = none := by
  obtain ⟨b, rest, rfl, hb⟩ := h
  have hspace : isSpace b = false := by
    simp only [isSpace, Bool.or_eq_false_iff, Bool.and_eq_false_iff, beq_eq_false_iff_ne,
      decide_eq_false_iff_not]
    omega
  have hdigit : isDigit b = false := by
    simp only [isDigit, Bool.and_eq_false_iff, decide_eq_false_iff_not]
    omega
  have hnone : integer (b :: rest) = none := integer_eq_none hspace hdigit (by omega)
  simp only [scanEntry, u32, hnone, Option.map_none, Option.bind_eq_bind, Option.bind_none]

/-- Such a line sets the range or the policy, or nothing. -/
theorem loadLine_lettered (alloc : IdAllocator n) {line : Bytes} (h : Lettered line) :
    (alloc.loadLine line).entries = alloc.entries := by
  simp only [loadLine, scanEntry_lettered h]
  split
  · rfl
  · split
    · rfl
    · split <;> rfl

theorem foldl_lettered (alloc : IdAllocator n) {lines : List Bytes}
    (h : ∀ line ∈ lines, Lettered line) : (lines.foldl loadLine alloc).entries = alloc.entries := by
  induction lines generalizing alloc with
  | nil => rfl
  | cons line lines ih =>
    have hhead := loadLine_lettered alloc (h line List.mem_cons_self)
    have htail := ih (alloc.loadLine line) fun l hl => h l (List.mem_cons_of_mem line hl)
    exact htail.trans hhead

/-- The line of a lease is read as that lease. -/
theorem loadLine_entryText (alloc : IdAllocator n) (e : IdLeaseEntry) :
    alloc.loadLine (entryText e) = alloc.addLease ⟨e.aid, e.leasedUntil, e.lastSeen, true⟩ := by
  obtain ⟨b, bs, hb⟩ := List.exists_cons_of_ne_nil (decimal_ne_nil e.aid.toNat)
  have hdigit := decimal_digits (n := e.aid.toNat) (b := b) (by rw [hb]; exact List.mem_cons_self)
  have hliteral : ∀ c : UInt8, 97 ≤ c.toNat → ∀ lit, literal (c :: lit) (entryText e) = none := by
    intro c hc lit
    have hne : c ≠ b := by
      rintro rfl
      omega
    rw [entryText, hb]
    exact literal_eq_none hne lit _
  have hrange : scanRange (entryText e) = none := by
    rw [scanRange, show ascii "range," = 114 :: ascii "ange," from rfl, hliteral 114 (by decide)]
    rfl
  have hpolicy : scanPolicy Rat (entryText e) = none := by
    rw [scanPolicy, show ascii "policy," = 112 :: ascii "olicy," from rfl,
      hliteral 112 (by decide)]
    rfl
  have hpolicyEx : scanPolicyEx Rat (entryText e) = none := by
    rw [scanPolicyEx, show ascii "policy_ex," = 112 :: ascii "olicy_ex," from rfl,
      hliteral 112 (by decide)]
    rfl
  simp only [loadLine, hrange, hpolicy, hpolicyEx, scanEntry_entryText]

/-- Leases of different aids that are added one by one stay distinct. -/
theorem aidsDistinct_foldl {alloc : IdAllocator n} (h : alloc.AidsDistinct)
    {es : List IdLeaseEntry} (hnodup : (es.map IdLeaseEntry.aid).Nodup)
    (hnew : ∀ e ∈ es, alloc.findEntry e.aid = none) :
    ((es.map entryText).foldl loadLine alloc).AidsDistinct := by
  induction es generalizing alloc with
  | nil => exact h
  | cons e es ih =>
    simp only [List.map_cons, List.nodup_cons] at hnodup
    simp only [List.map_cons, List.foldl_cons, loadLine_entryText, addLease]
    have hrest : ∀ e' ∈ es, alloc.findEntry e'.aid = none :=
      fun e' he' => hnew e' (List.mem_cons_of_mem e he')
    cases hv : alloc.allocSlot with
    | none => exact ih h hnodup.2 hrest
    | some i =>
      have hslot : SlotOf IdLeaseEntry.inUse IdLeaseEntry.aid alloc.entries e.aid i :=
        Or.inr ⟨hnew e List.mem_cons_self, vacant_some hv⟩
      apply ih
      · exact distinct_set_slot h hslot
      · exact hnodup.2
      · intro e' he'
        have hne : e'.aid ≠ e.aid := by
          intro heq
          apply hnodup.1
          rw [← heq]
          exact List.mem_map_of_mem he'
        have hother := lookup_set_other (a :=
          (⟨e.aid, e.leasedUntil, e.lastSeen, true⟩ : IdLeaseEntry)) hslot hne
        exact hother.trans (hrest e' he')

/-! ## A saved file is read back line by line -/

/-- The lines of the policy fit the buffer they are printed in. -/
def PolicyFits (alloc : IdAllocator n) : Prop :=
  alloc.policyText.length < 192 ∧ alloc.policyExText.length < 192

theorem rangeText_length (alloc : IdAllocator n) : alloc.rangeText.length ≤ 191 := by
  have hstart := decimal_u32_length alloc.startId
  have hend := decimal_u32_length alloc.endId
  have hlease := decimal_u64_length alloc.defaultLeaseSeconds
  have hname : (ascii "range,").length = 6 := rfl
  simp only [rangeText, List.length_append, List.length_cons, List.length_nil, hname]
  omega

theorem entryText_length (e : IdLeaseEntry) : (entryText e).length ≤ 191 := by
  have haid := decimal_u32_length e.aid
  have huntil := decimal_u64_length e.leasedUntil
  have hseen := decimal_u64_length e.lastSeen
  simp only [entryText, List.length_append, List.length_cons, List.length_nil]
  omega

theorem isLine_rangeText (alloc : IdAllocator n) : IsLine alloc.rangeText := by
  apply IsLine.append _ (by decide)
  apply isLine_field _ (newline_not_mem_decimal _)
  apply isLine_field _ (newline_not_mem_decimal _)
  exact isLine_last (newline_not_mem_decimal _)

theorem isLine_policyText (alloc : IdAllocator n) : IsLine alloc.policyText := by
  apply IsLine.append _ (by decide)
  apply isLine_field _ (newline_not_mem_decimal _)
  apply isLine_field _ (newline_not_mem_decimal _)
  apply isLine_field _ (newline_not_mem_fixed6 _)
  apply isLine_field _ (newline_not_mem_fixed6 _)
  exact isLine_last (newline_not_mem_decimal _)

theorem isLine_policyExText (alloc : IdAllocator n) : IsLine alloc.policyExText := by
  apply IsLine.append _ (by decide)
  apply isLine_field _ (newline_not_mem_decimal _)
  apply isLine_field _ (newline_not_mem_decimal _)
  apply isLine_field _ (newline_not_mem_fixed6 _)
  apply isLine_field _ (newline_not_mem_fixed6 _)
  exact isLine_last (newline_not_mem_fixed6 _)

theorem isLine_entryText (e : IdLeaseEntry) : IsLine (entryText e) := by
  apply isLine_field _ (newline_not_mem_decimal _)
  apply isLine_field _ (newline_not_mem_decimal _)
  exact isLine_last (newline_not_mem_decimal _)

/-- The lines in front of the leases. -/
def headLines (alloc : IdAllocator n) : List Bytes :=
  [alloc.rangeText, alloc.policyText, alloc.policyExText]

theorem headLines_lettered (alloc : IdAllocator n) : ∀ line ∈ alloc.headLines, Lettered line := by
  intro line hline
  simp only [headLines, List.mem_cons, List.not_mem_nil, or_false] at hline
  rcases hline with rfl | rfl | rfl
  · exact ⟨114, _, rfl, by decide⟩
  · exact ⟨112, _, rfl, by decide⟩
  · exact ⟨112, _, rfl, by decide⟩

/-- Where the policy fits, no line is cut. -/
theorem savedLines_eq {alloc : IdAllocator n} (h : alloc.PolicyFits) :
    alloc.savedLines = alloc.headLines ++ alloc.leases.map entryText := by
  have hentries : (alloc.leases.map fun e => printLine (entryText e)) =
      alloc.leases.map entryText := by
    apply List.map_congr_left
    intro e _
    exact List.take_of_length_le (entryText_length e)
  have hrange : printLine alloc.rangeText = alloc.rangeText :=
    List.take_of_length_le alloc.rangeText_length
  have hpolicy : printLine alloc.policyText = alloc.policyText :=
    List.take_of_length_le (Nat.le_of_lt_succ h.1)
  have hpolicyEx : printLine alloc.policyExText = alloc.policyExText :=
    List.take_of_length_le (Nat.le_of_lt_succ h.2)
  rw [savedLines, hentries, hrange, hpolicy, hpolicyEx, headLines]

/-- Then the file is read line by line as it was written. -/
theorem stdioLines_savedLines {alloc : IdAllocator n} (h : alloc.PolicyFits) :
    stdioLines alloc.savedLines.flatten = alloc.headLines ++ alloc.leases.map entryText := by
  rw [savedLines_eq h]
  apply linesOf_flatten
  intro line hline
  rcases List.mem_append.mp hline with hhead | hentry
  · simp only [headLines, List.mem_cons, List.not_mem_nil, or_false] at hhead
    rcases hhead with rfl | rfl | rfl
    · have := alloc.rangeText_length
      exact ⟨alloc.isLine_rangeText, by omega⟩
    · have := h.1
      exact ⟨alloc.isLine_policyText, by omega⟩
    · have := h.2
      exact ⟨alloc.isLine_policyExText, by omega⟩
  · obtain ⟨e, -, rfl⟩ := List.mem_map.mp hentry
    have := entryText_length e
    exact ⟨isLine_entryText e, by omega⟩

/-- Loading what was saved, or as much of it as was read, keeps the aids distinct. -/
theorem aidsDistinct_load (alloc : IdAllocator n) {saved : IdAllocator n}
    (hsaved : saved.AidsDistinct) (hfits : saved.PolicyFits) {reader : StorageReader} {k : Nat}
    (hlines : reader.lines = (stdioLines saved.savedLines.flatten).take k) :
    (alloc.load (some reader)).1.AidsDistinct := by
  simp only [load, hlines, stdioLines_savedLines hfits, List.take_append, List.foldl_append,
    ← List.map_take]
  have hlettered : ∀ line ∈ saved.headLines.take k, Lettered line :=
    fun line hline => headLines_lettered saved line (List.mem_of_mem_take hline)
  have hhead := foldl_lettered alloc.clearEntries hlettered
  have hempty : ((saved.headLines.take k).foldl loadLine alloc.clearEntries).AidsDistinct := by
    unfold AidsDistinct
    rw [hhead]
    exact distinct_replicate rfl
  apply aidsDistinct_foldl hempty
  · rw [List.map_take]
    exact hsaved.nodup_keys.sublist (List.take_sublist _ _)
  · intro e _
    apply lookup_none.mpr
    intro i hu
    rw [hhead] at hu
    simp only [clearEntries, get_replicate] at hu
    cases hu

/-! ## Runs -/

inductive IdOp where
  | cleanupExpired (nowTs : UInt64)
  | allocate (nowTs : UInt64)
  | release (aid : UInt32)
  | touch (aid : UInt32) (nowTs : UInt64)
  | setPolicy (minLeaseSeconds rateWindowSeconds : UInt64)
      (highRateThresholdPerHour highRateMinFactor : Rat) (adaptiveEnabled : Bool)
  | setPolicyEx (minLeaseSeconds maxLeaseSeconds rateWindowSeconds : UInt64)
      (highRateThresholdPerHour highRateMinFactor pressureHighWatermark pressureMinFactor
        touchExtendFactor : Rat) (adaptiveEnabled : Bool)

def idStep (alloc : IdAllocator n) : IdOp → IdAllocator n
  | .cleanupExpired nowTs => alloc.cleanupExpired nowTs
  | .allocate nowTs => (alloc.allocate nowTs).1
  | .release aid => (alloc.release aid).1
  | .touch aid nowTs => (alloc.touch aid nowTs).1
  | .setPolicy minLease rateWindow threshold factor adaptive =>
    alloc.setPolicy minLease rateWindow threshold factor adaptive
  | .setPolicyEx minLease maxLease rateWindow threshold factor pressureHigh pressureMin
      touchFactor adaptive =>
    alloc.setPolicyEx minLease maxLease rateWindow threshold factor pressureHigh pressureMin
      touchFactor adaptive

/-- What becomes of an allocator, when those whose file is loaded meet `G`. A read
error can end a file before its end. -/
inductive Reachable (G : IdAllocator n → Prop) : IdAllocator n → Prop where
  | start (startId endId : UInt32) (lease : UInt64) : Reachable G (init n startId endId lease)
  | next {alloc : IdAllocator n} (op : IdOp) : Reachable G alloc → Reachable G (alloc.idStep op)
  | load {alloc saved : IdAllocator n} {writer : StorageWriter} {lines : List Bytes}
      {reader : StorageReader} {k : Nat} :
      Reachable G alloc → Reachable G saved → G saved →
      saved.save (some writer) = (lines, true) →
      reader.lines = (stdioLines lines.flatten).take k →
      Reachable G (alloc.load (some reader)).1

theorem aidsDistinct_idStep {alloc : IdAllocator n} (h : alloc.AidsDistinct) (op : IdOp) :
    (alloc.idStep op).AidsDistinct := by
  cases op with
  | cleanupExpired nowTs => exact aidsDistinct_cleanupExpired h nowTs
  | allocate nowTs => exact aidsDistinct_allocate h nowTs
  | release aid => exact aidsDistinct_release h aid
  | touch aid nowTs => exact aidsDistinct_touch h aid nowTs
  | setPolicy => exact h
  | setPolicyEx => exact h

theorem save_some {saved : IdAllocator n} {writer : StorageWriter} {lines : List Bytes}
    (h : saved.save (some writer) = (lines, true)) : lines = saved.savedLines := by
  simp only [save] at h
  split at h
  · exact (Prod.mk.inj h).1.symm
  · exact absurd (Prod.mk.inj h).2 (by decide)

theorem Reachable.aidsDistinct {alloc : IdAllocator n} (h : Reachable PolicyFits alloc) :
    alloc.AidsDistinct := by
  induction h with
  | start startId endId lease => exact aidsDistinct_init startId endId lease
  | next op _ ih => exact aidsDistinct_idStep ih op
  | load _ _ hfits hsave hlines _ ih =>
    rw [save_some hsave] at hlines
    exact aidsDistinct_load _ ih hfits hlines

/-- If the policy of each allocator whose file is loaded fits its lines, leases are
exclusive. -/
theorem leases_exclusive {alloc : IdAllocator n} (h : Reachable PolicyFits alloc) :
    alloc.AidsDistinct ∧ ∀ nowTs, alloc.GrantsExclusively nowTs :=
  ⟨h.aidsDistinct, grantsExclusively h.aidsDistinct⟩

/-- Two leases of a pool of two. -/
def twoLeases : IdAllocator 16 :=
  ((init 16 49999 50000 86400).idStep (.allocate 1)).idStep (.allocate 1)

theorem reachable_twoLeases (G : IdAllocator 16 → Prop) : Reachable G twoLeases :=
  .next (.allocate 1) (.next (.allocate 1) (.start 49999 50000 86400))

/-- All of a file, and no error. -/
def readAll (alloc : IdAllocator n) : StorageReader :=
  ⟨stdioLines alloc.savedLines.flatten, false, true⟩

theorem twoLeases_exclusive :
    (twoLeases.load (some twoLeases.readAll)).1.AidsDistinct ∧
      ∀ nowTs, (twoLeases.load (some twoLeases.readAll)).1.GrantsExclusively nowTs := by
  have hfits : twoLeases.PolicyFits := by
    unfold PolicyFits
    decide +kernel
  have hsave : twoLeases.save (some ⟨5, true⟩) = (twoLeases.savedLines, true) := by decide +kernel
  have hlines : twoLeases.readAll.lines = (stdioLines twoLeases.savedLines.flatten).take 5 := by
    decide +kernel
  exact leases_exclusive
    (.load (reachable_twoLeases _) (reachable_twoLeases _) hfits hsave hlines)

/-- A threshold and a factor of 211 digits. -/
def longPolicy : IdAllocator 16 :=
  twoLeases.idStep (.setPolicyEx 60 0xFFFFFFFFFFFFFFFF 0xFFFFFFFFFFFFFFFF (2 ^ 700) (1 / 5) (4 / 5)
    (1 / 4) (2 ^ 700) true)

/-- The two lines of the policy are cut, and what is left of them runs into the first
lease: the second aid is leased twice. -/
theorem cut_policy_leases_twice :
    ∃ alloc : IdAllocator 16, Reachable (fun _ => True) alloc ∧ ¬ alloc.AidsDistinct := by
  have hsave : longPolicy.save (some ⟨5, true⟩) = (longPolicy.savedLines, true) := by
    decide +kernel
  have hlines : longPolicy.readAll.lines = (stdioLines longPolicy.savedLines.flatten).take 4 := by
    decide +kernel
  have hlong : Reachable (fun _ => True) longPolicy := .next _ (reachable_twoLeases _)
  refine ⟨_, .load hlong hlong trivial hsave hlines, fun h => ?_⟩
  have hsame := h 0 1 (by decide +kernel) (by decide +kernel) (by decide +kernel)
  exact absurd hsame (by decide)

end IdAllocator

end Osfx
