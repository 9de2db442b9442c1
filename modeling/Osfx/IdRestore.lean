import Osfx.IdPool

/-!
# Restored allocators

`osfx_id_load` replays a saved file line by line, the policy through the setters, which
clamp what they are given. They keep the upper bound of a lease above the lower one, but
`osfx_id_allocator_init` does not, and what it sets up for a short default lease is loaded
with another upper bound; and a policy line that lost its last field in the buffer of
`osfx_id_save` is skipped. `load_restores_iff` says that nothing else is lost.
-/

namespace Osfx

open SlotTable Scan Numeral

namespace IdAllocator

variable {n : Nat}

/-! ## The leases -/

/-- The leases of a file are added to an allocator in their order. -/
theorem packed_load {alloc : IdAllocator n} {es : List IdLeaseEntry}
    (h : Packed alloc.entries .zero []) (hused : ∀ e ∈ es, e.inUse = true)
    (hroom : es.length ≤ n) :
    Packed ((es.map entryText).foldl loadLine alloc).entries .zero es := by
  rw [List.foldl_map]
  apply packed_foldl _ h
  intro alloc before e rest hes hbefore
  have hin : e.inUse = true := hused e (by simp [← hes])
  have hentry : (⟨e.aid, e.leasedUntil, e.lastSeen, true⟩ : IdLeaseEntry) = e := by
    rw [← hin]
  have hfree : before.length < n := by
    rw [← hes, List.length_append, List.length_cons] at hroom
    omega
  have hslot : alloc.allocSlot = some ⟨before.length, hfree⟩ := by
    apply packed_vacant hbefore rfl _ hfree
    intro e' he'
    exact hused e' (by simp [← hes, he'])
  rw [loadLine_entryText, hentry, addLease, hslot]
  exact packed_set hbefore hfree e

/-- The leases of an allocator by aid. -/
def leaseOf (alloc : IdAllocator n) (aid : UInt32) : Option IdLeaseEntry :=
  entry IdLeaseEntry.inUse IdLeaseEntry.aid alloc.entries aid

theorem leaseOf_congr {alloc alloc' : IdAllocator n} (h : alloc'.leases = alloc.leases)
    (aid : UInt32) : alloc'.leaseOf aid = alloc.leaseOf aid := by
  unfold leases at h
  rw [leaseOf, leaseOf, entry_eq_find, entry_eq_find, h]

theorem samePolicy_entries (alloc : IdAllocator n) (es : List IdLeaseEntry) :
    SamePolicy alloc ((es.map entryText).foldl loadLine alloc) := by
  induction es generalizing alloc with
  | nil => exact .refl alloc
  | cons e es ih =>
    rw [List.map_cons, List.foldl_cons, loadLine_entryText]
    refine SamePolicy.trans ?_ (ih _)
    unfold addLease
    split
    · exact .refl alloc
    · exact ⟨_, _, _, rfl⟩

/-! ## The policy -/

/-- What every policy has in common, whoever set it. -/
structure PolicyOk (alloc : IdAllocator n) : Prop where
  minLease : alloc.minLeaseSeconds > 0
  rateWindow : alloc.rateWindowSeconds > 0
  threshold : 0 ≤ alloc.highRateThresholdPerHour
  factor : 0 ≤ alloc.highRateMinFactor ∧ alloc.highRateMinFactor ≤ 1
  pressureHigh : 0 ≤ alloc.pressureHighWatermark ∧ alloc.pressureHighWatermark ≤ 1
  pressureMin : 0 ≤ alloc.pressureMinFactor ∧ alloc.pressureMinFactor ≤ 1
  touchFactor : 0 ≤ alloc.touchExtendFactor

theorem policyOk_init (startId endId : UInt32) (lease : UInt64) :
    (init n startId endId lease).PolicyOk where
  minLease := (by decide : (60 : UInt64) > 0)
  rateWindow := (by decide : (3600 : UInt64) > 0)
  threshold := (by decide : (0 : Rat) ≤ 60)
  factor := (by decide +kernel : (0 : Rat) ≤ 1 / 5 ∧ (1 / 5 : Rat) ≤ 1)
  pressureHigh := (by decide +kernel : (0 : Rat) ≤ 4 / 5 ∧ (4 / 5 : Rat) ≤ 1)
  pressureMin := (by decide +kernel : (0 : Rat) ≤ 1 / 4 ∧ (1 / 4 : Rat) ≤ 1)
  touchFactor := (by decide : (0 : Rat) ≤ 1)

theorem clamp_pos (x : UInt64) : (if x > 0 then x else 1) > 0 := by
  split
  · assumption
  · decide

theorem clamp_nonneg (x : Rat) : 0 ≤ if PolicyDouble.positive x then x else 1 := by
  split
  · rename_i h
    rw [PolicyDouble.positive_rat, decide_eq_true_eq] at h
    exact Rat.le_of_lt h
  · decide

theorem clamp_unit {x y : Rat} (hy : 0 ≤ y ∧ y ≤ 1) :
    0 ≤ (if PolicyDouble.unitRange x then x else y) ∧
      (if PolicyDouble.unitRange x then x else y) ≤ 1 := by
  split
  · rename_i h
    simp only [PolicyDouble.unitRange_rat, Bool.and_eq_true, decide_eq_true_eq] at h
    exact ⟨Rat.le_of_lt h.1, h.2⟩
  · exact hy

theorem policyOk_setPolicyEx (alloc : IdAllocator n) (minLease maxLease rateWindow : UInt64)
    (threshold factor pressureHigh pressureMin touchFactor : Rat) (adaptive : Bool) :
    (alloc.setPolicyEx minLease maxLease rateWindow threshold factor pressureHigh pressureMin
      touchFactor adaptive).PolicyOk where
  minLease := clamp_pos minLease
  rateWindow := clamp_pos rateWindow
  threshold := clamp_nonneg _
  factor := clamp_unit (by decide +kernel)
  pressureHigh := clamp_unit (by decide +kernel)
  pressureMin := clamp_unit (by decide +kernel)
  touchFactor := clamp_nonneg _

theorem SamePolicy.policyOk {alloc alloc' : IdAllocator n} (h : SamePolicy alloc alloc')
    (hok : alloc.PolicyOk) : alloc'.PolicyOk := by
  obtain ⟨_, _, _, rfl⟩ := h
  exact ⟨hok.1, hok.2, hok.3, hok.4, hok.5, hok.6, hok.7⟩

theorem policyOk_idStep {alloc : IdAllocator n} (h : alloc.PolicyOk) (op : IdOp) :
    (alloc.idStep op).PolicyOk := by
  by_cases hkeeps : op.KeepsPolicy
  · exact (samePolicy_idStep alloc hkeeps).policyOk h
  · cases op with
    | setPolicy => exact policyOk_setPolicyEx alloc _ _ _ _ _ _ _ _ _
    | setPolicyEx => exact policyOk_setPolicyEx alloc _ _ _ _ _ _ _ _ _
    | _ => exact absurd trivial hkeeps

theorem policyOk_run (startId endId : UInt32) (lease : UInt64) (ops : List IdOp) :
    (ops.foldl idStep (init n startId endId lease)).PolicyOk := by
  have hinit := policyOk_init (n := n) startId endId lease
  generalize init n startId endId lease = alloc at hinit ⊢
  induction ops generalizing alloc with
  | nil => exact hinit
  | cons op ops ih => exact ih _ (policyOk_idStep hinit op)

/-! ## The lines in front of the leases -/

theorem loadLine_rangeText (alloc saved : IdAllocator n) :
    alloc.loadLine (printLine saved.rangeText) = { alloc with
      startId := saved.startId
      endId := saved.endId
      defaultLeaseSeconds := saved.defaultLeaseSeconds } := by
  have hscan : scanRange saved.rangeText =
      some (saved.startId, saved.endId, saved.defaultLeaseSeconds) := by
    simp only [scanRange, rangeText, literal_append, u32_decimal _ (delimited_comma _),
      literal_comma, u64_decimal _ delimited_newline, Option.bind_eq_bind, Option.bind_some]
    rfl
  rw [printLine, List.take_of_length_le saved.rangeText_length]
  simp only [loadLine, hscan]

/-- The line of the policy up to its last field, and a text after that. -/
def policyLine (saved : IdAllocator n) (tail : Bytes) : Bytes :=
  ascii "policy," ++ (decimal saved.minLeaseSeconds.toNat ++
    comma :: (decimal saved.rateWindowSeconds.toNat ++
    comma :: (fixed6 saved.highRateThresholdPerHour ++
    comma :: (fixed6 saved.highRateMinFactor ++ comma :: tail))))

/-- The last field. -/
def adaptiveText (saved : IdAllocator n) : Bytes := decimal (if saved.adaptiveEnabled then 1 else 0)

theorem policyLine_append (saved : IdAllocator n) (tail : Bytes) :
    saved.policyLine tail = saved.policyLine [] ++ tail := by
  simp [policyLine]

theorem policyText_eq (saved : IdAllocator n) :
    saved.policyText = saved.policyLine (saved.adaptiveText ++ [newline]) := rfl

theorem policyText_length (saved : IdAllocator n) :
    saved.policyText.length = (saved.policyLine []).length + 2 := by
  have hfield : saved.adaptiveText.length = 1 := by
    unfold adaptiveText
    cases saved.adaptiveEnabled <;> rfl
  rw [policyText_eq, policyLine_append, List.length_append, List.length_append, hfield,
    List.length_singleton]

/-- The first three numbers of the policy line have no more than 171 characters. -/
def PolicyShort (saved : IdAllocator n) : Prop :=
  (decimal saved.minLeaseSeconds.toNat).length + (decimal saved.rateWindowSeconds.toNat).length +
    (fixed6 saved.highRateThresholdPerHour).length ≤ 171

/-- Then no more than the newline of the line is cut off. -/
theorem policyShort_iff {saved : IdAllocator n} (hok : saved.PolicyOk) :
    saved.PolicyShort ↔ saved.policyText.length ≤ 192 := by
  have hfactor := fixed6_length hok.factor.1 hok.factor.2
  have hname : (ascii "policy,").length = 7 := rfl
  simp only [policyText_length, policyLine, List.length_append, List.length_cons, List.length_nil,
    hfactor, hname, PolicyShort]
  omega

/-- A line that only the newline is cut off is as good as a whole one. -/
theorem printLine_policyText {saved : IdAllocator n} (h : saved.policyText.length ≤ 192) :
    ∃ nl, Delimited nl ∧
      printLine saved.policyText = saved.policyLine (saved.adaptiveText ++ nl) := by
  have hhead : (saved.policyLine [] ++ saved.adaptiveText).length ≤ 191 := by
    rw [policyText_eq, policyLine_append, ← List.append_assoc, List.length_append,
      List.length_singleton] at h
    omega
  refine ⟨[newline].take (191 - (saved.policyLine [] ++ saved.adaptiveText).length), ?_, ?_⟩
  · cases 191 - (saved.policyLine [] ++ saved.adaptiveText).length with
    | zero => exact fun b hb => by cases hb
    | succ k => exact delimited_newline
  · rw [printLine, policyText_eq, policyLine_append, policyLine_append saved (_ ++ _),
      ← List.append_assoc, ← List.append_assoc, List.take_append,
      List.take_of_length_le hhead]

theorem i32_adaptiveText (saved : IdAllocator n) {nl : Bytes} (h : Delimited nl) :
    i32 (saved.adaptiveText ++ nl) = some (if saved.adaptiveEnabled then 1 else 0, nl) := by
  unfold adaptiveText
  cases saved.adaptiveEnabled with
  | false =>
    simp only [Bool.false_eq_true, if_false, i32, integer_decimal 0 h, Option.map_some]
    rfl
  | true =>
    simp only [if_true, i32, integer_decimal 1 h, Option.map_some]
    rfl

theorem exponent_comma (rest : Bytes) : exponent (comma :: rest) = some (0, comma :: rest) := by
  apply exponent_none
  intro b hb
  cases hb
  decide

theorem scanPolicy_policyLine {saved : IdAllocator n} (hok : saved.PolicyOk) {nl : Bytes}
    (h : Delimited nl) : ∃ threshold factor,
      scanPolicy Rat (saved.policyLine (saved.adaptiveText ++ nl)) = some (saved.minLeaseSeconds,
        saved.rateWindowSeconds, threshold, factor, if saved.adaptiveEnabled then 1 else 0) := by
  obtain ⟨threshold, hthreshold⟩ := real_fixed6 hok.threshold (delimited_comma
    (fixed6 saved.highRateMinFactor ++ comma :: (saved.adaptiveText ++ nl))) (exponent_comma _)
  obtain ⟨factor, hfactor⟩ := real_fixed6 hok.factor.1
    (delimited_comma (saved.adaptiveText ++ nl)) (exponent_comma _)
  refine ⟨threshold, factor, ?_⟩
  simp only [scanPolicy, PolicyDouble.scan_rat, policyLine, literal_append,
    u64_decimal _ (delimited_comma _), literal_comma, hthreshold, hfactor,
    i32_adaptiveText saved h, Option.bind_eq_bind, Option.bind_some]
  rfl

/-- A line that starts with a p is no range. -/
theorem scanRange_policy (rest : Bytes) : scanRange (112 :: rest) = none := by
  rw [scanRange, show ascii "range," = 114 :: ascii "ange," from rfl,
    literal_eq_none (by decide)]
  rfl

theorem loadLine_policyText (alloc : IdAllocator n) {saved : IdAllocator n} (hok : saved.PolicyOk)
    (h : saved.policyText.length ≤ 192) : ∃ threshold factor,
      alloc.loadLine (printLine saved.policyText) = alloc.setPolicy saved.minLeaseSeconds
        saved.rateWindowSeconds threshold factor saved.adaptiveEnabled := by
  obtain ⟨nl, hnl, hline⟩ := printLine_policyText h
  obtain ⟨threshold, factor, hscan⟩ := scanPolicy_policyLine hok hnl
  refine ⟨threshold, factor, ?_⟩
  have hrange : scanRange (saved.policyLine (saved.adaptiveText ++ nl)) = none :=
    scanRange_policy _
  simp only [loadLine, hline, hrange, hscan]
  cases saved.adaptiveEnabled <;> rfl

/-! ## A policy line that is cut -/

theorem count_comma_decimal (v : Nat) : (decimal v).count comma = 0 := by
  exact List.count_eq_zero.mpr (not_mem_decimal rfl v)

theorem count_comma_fixed6 {x : Rat} (hx : 0 ≤ x) : (fixed6 x).count comma = 0 := by
  obtain ⟨v, frac, hfrac, heq⟩ := fixed6_eq hx
  apply List.count_eq_zero.mpr
  rw [heq]
  intro hmem
  rcases List.mem_append.mp hmem with hmem | hmem
  · exact absurd (isDigit_of_mem_decimal hmem) (by decide)
  rcases List.mem_cons.mp hmem with hmem | hmem
  · exact absurd hmem (by decide)
  · exact absurd (hfrac _ hmem) (by decide)

theorem comma_some {text rest : Bytes} (h : literal [comma] text = some rest) :
    rest <:+ text ∧ rest.count comma + 1 = text.count comma := by
  rw [literal_some h, List.singleton_append, List.count_cons_self]
  exact ⟨List.suffix_cons _ _, rfl⟩

theorem suffix_commas {text rest : Bytes} (h : rest <:+ text) :
    rest.count comma ≤ text.count comma :=
  h.sublist.count_le comma

/-- A line that is read as the policy has its last field behind five commas. -/
theorem scanPolicy_commas {line : Bytes} (h : scanPolicy Rat line ≠ none) :
    ∃ field, field ≠ [] ∧ field <:+ line ∧ field.count comma + 5 ≤ line.count comma := by
  obtain ⟨r, h⟩ := Option.ne_none_iff_exists'.mp h
  simp only [scanPolicy, Option.bind_eq_bind, Option.bind_eq_some_iff] at h
  obtain ⟨t₁, h₁, ⟨v₁, t₂⟩, h₂, t₃, h₃, ⟨v₂, t₄⟩, h₄, t₅, h₅, ⟨v₃, t₆⟩, h₆, t₇, h₇, ⟨v₄, t₈⟩, h₈,
    t₉, h₉, ⟨v₅, t⟩, h₁₀, -⟩ := h
  have hname := literal_some h₁
  have hname' : line.count comma = t₁.count comma + 1 := by
    rw [hname, List.count_append, show (ascii "policy,").count comma = 1 from rfl, Nat.add_comm]
  have s₁ : t₁ <:+ line := ⟨_, hname.symm⟩
  have s₂ := u64_suffix h₂
  obtain ⟨s₃, c₃⟩ := comma_some h₃
  have s₄ := u64_suffix h₄
  obtain ⟨s₅, c₅⟩ := comma_some h₅
  have s₆ := real_suffix h₆
  obtain ⟨s₇, c₇⟩ := comma_some h₇
  have s₈ := real_suffix h₈
  obtain ⟨s₉, c₉⟩ := comma_some h₉
  refine ⟨t₉, ?_, ?_, ?_⟩
  · rintro rfl
    cases h₁₀
  · exact s₉.trans (s₈.trans (s₇.trans (s₆.trans (s₅.trans (s₄.trans (s₃.trans (s₂.trans s₁)))))))
  · have c₂ := suffix_commas s₂
    have c₄ := suffix_commas s₄
    have c₆ := suffix_commas s₆
    have c₈ := suffix_commas s₈
    simp only at c₃ c₅ c₇ c₉
    omega

/-- What is left of a line without its last field is not read as the policy. -/
theorem scanPolicy_cut {saved : IdAllocator n} (hok : saved.PolicyOk) {line : Bytes}
    (h : line <+: saved.policyLine []) : scanPolicy Rat line = none := by
  apply Classical.byContradiction
  intro hscan
  obtain ⟨field, hne, hsuffix, hcount⟩ := scanPolicy_commas hscan
  -- the line up to the comma behind its last field but one
  obtain ⟨front, hfront, hcommas⟩ : ∃ front, saved.policyLine [] = front ++ [comma] ∧
      front.count comma = 4 := by
    refine ⟨ascii "policy," ++ (decimal saved.minLeaseSeconds.toNat ++
      comma :: (decimal saved.rateWindowSeconds.toNat ++
      comma :: (fixed6 saved.highRateThresholdPerHour ++
      comma :: fixed6 saved.highRateMinFactor))), ?_, ?_⟩
    · simp [policyLine]
    · simp only [List.count_append, List.count_cons_self, count_comma_decimal,
        count_comma_fixed6 hok.threshold, count_comma_fixed6 hok.factor.1]
      rfl
  rw [hfront] at h
  rcases List.prefix_concat_iff.mp h with heq | hprefix
  · obtain ⟨before, hbefore⟩ := hsuffix
    rw [heq] at hcount hbefore
    rw [List.count_append, hcommas, List.count_singleton_self] at hcount
    have hlast : comma ∈ field := by
      have hmem := congrArg List.getLast? hbefore
      rw [List.getLast?_append_of_ne_nil _ hne, List.getLast?_concat] at hmem
      exact List.mem_of_mem_getLast? hmem
    have hpos := List.count_pos_iff.mpr hlast
    omega
  · have hle := hprefix.sublist.count_le comma
    omega

theorem loadLine_policyText_cut (alloc : IdAllocator n) {saved : IdAllocator n}
    (hok : saved.PolicyOk) (h : 192 < saved.policyText.length) :
    alloc.loadLine (printLine saved.policyText) = alloc := by
  rw [policyText_length] at h
  have hcut : printLine saved.policyText = (saved.policyLine []).take 191 := by
    rw [printLine, policyText_eq, policyLine_append, List.take_append_of_le_length (by omega)]
  have hname : ∃ rest, (saved.policyLine []).take 191 = ascii "policy," ++ rest := by
    rw [policyLine, List.take_append, List.take_of_length_le (by decide)]
    exact ⟨_, rfl⟩
  obtain ⟨rest, hrest⟩ := hname
  have hpolicy := scanPolicy_cut hok (List.take_prefix 191 (saved.policyLine []))
  have hrange : scanRange (ascii "policy," ++ rest) = none := scanRange_policy _
  have hpolicyEx : scanPolicyEx Rat (ascii "policy," ++ rest) = none := rfl
  have hentry : scanEntry (ascii "policy," ++ rest) = none :=
    scanEntry_lettered ⟨112, _, rfl, by decide⟩
  rw [hrest] at hpolicy
  simp only [loadLine, hcut, hrest, hrange, hpolicy, hpolicyEx, hentry]

/-! ## The second line of the policy -/

/-- The second line of the policy up to its last field, and a text after that. -/
def policyExLine (saved : IdAllocator n) (tail : Bytes) : Bytes :=
  ascii "policy_ex," ++ (decimal saved.maxLeaseSeconds.toNat ++
    comma :: (decimal saved.rateWindowSeconds.toNat ++
    comma :: (fixed6 saved.pressureHighWatermark ++
    comma :: (fixed6 saved.pressureMinFactor ++ comma :: tail))))

theorem policyExLine_append (saved : IdAllocator n) (tail : Bytes) :
    saved.policyExLine tail = saved.policyExLine [] ++ tail := by
  simp [policyExLine]

/-- The last field of the line can be cut, but it begins in the buffer. -/
theorem policyExLine_length {saved : IdAllocator n} (hok : saved.PolicyOk) :
    (saved.policyExLine []).length ≤ 190 := by
  have hmax := decimal_u64_length saved.maxLeaseSeconds
  have hrate := decimal_u64_length saved.rateWindowSeconds
  have hhigh := fixed6_length hok.pressureHigh.1 hok.pressureHigh.2
  have hmin := fixed6_length hok.pressureMin.1 hok.pressureMin.2
  have hname : (ascii "policy_ex,").length = 10 := rfl
  simp only [policyExLine, List.length_append, List.length_cons, List.length_nil, hname]
  omega

/-- What is left of the last field is a number. -/
theorem real_touchText {x : Rat} (hx : 0 ≤ x) {k : Nat} (hk : 0 < k) :
    (real ((fixed6 x ++ [newline]).take k)).isSome = true := by
  obtain ⟨v, frac, hfrac, heq⟩ := fixed6_eq hx
  obtain ⟨b, bs, hb⟩ := List.exists_cons_of_ne_nil (decimal_ne_nil v)
  have hdigit : ∀ c ∈ decimal v, isDigit c = true := fun c hc => isDigit_of_mem_decimal hc
  rw [hb] at hdigit
  obtain ⟨k, rfl⟩ : ∃ m, k = m + 1 := ⟨k - 1, by omega⟩
  rw [heq, hb, List.cons_append, List.cons_append, List.take_succ_cons]
  apply real_isSome (hdigit b List.mem_cons_self)
  intro c hc
  have hmem := List.mem_of_mem_take hc
  have hplain : isDigit c = true ∨ c = 46 ∨ c = newline := by
    simp only [List.mem_append, List.mem_cons, List.not_mem_nil, or_false] at hmem
    rcases hmem with (hmem | rfl | hmem) | rfl
    · exact Or.inl (hdigit c (List.mem_cons_of_mem b hmem))
    · exact Or.inr (Or.inl rfl)
    · exact Or.inl (hfrac c hmem)
    · exact Or.inr (Or.inr rfl)
  rcases hplain with hc | rfl | rfl
  · simp only [isDigit, Bool.and_eq_true, decide_eq_true_eq] at hc
    omega
  · decide
  · decide

theorem loadLine_policyExText (alloc : IdAllocator n) {saved : IdAllocator n}
    (hok : saved.PolicyOk) : ∃ pressureHigh pressureMin touchFactor,
      alloc.loadLine (printLine saved.policyExText) = alloc.setPolicyEx alloc.minLeaseSeconds
        saved.maxLeaseSeconds saved.rateWindowSeconds alloc.highRateThresholdPerHour
        alloc.highRateMinFactor pressureHigh pressureMin touchFactor alloc.adaptiveEnabled := by
  have hlen := policyExLine_length hok
  obtain ⟨tail, htail, hline⟩ : ∃ tail, (real tail).isSome = true ∧
      printLine saved.policyExText = saved.policyExLine tail := by
    refine ⟨(fixed6 saved.touchExtendFactor ++ [newline]).take
      (191 - (saved.policyExLine []).length), real_touchText hok.touchFactor (by omega), ?_⟩
    have htext : saved.policyExText =
        saved.policyExLine (fixed6 saved.touchExtendFactor ++ [newline]) := rfl
    rw [printLine, htext, policyExLine_append, policyExLine_append saved (List.take _ _),
      List.take_append, List.take_of_length_le (by omega)]
  obtain ⟨⟨touchFactor, rest⟩, htouch⟩ := Option.isSome_iff_exists.mp htail
  obtain ⟨pressureHigh, hhigh⟩ := real_fixed6 hok.pressureHigh.1 (delimited_comma
    (fixed6 saved.pressureMinFactor ++ comma :: tail)) (exponent_comma _)
  obtain ⟨pressureMin, hmin⟩ := real_fixed6 hok.pressureMin.1 (delimited_comma tail)
    (exponent_comma _)
  have hscan : scanPolicyEx Rat (saved.policyExLine tail) = some (saved.maxLeaseSeconds,
      saved.rateWindowSeconds, pressureHigh, pressureMin, touchFactor) := by
    simp only [scanPolicyEx, PolicyDouble.scan_rat, policyExLine, literal_append,
      u64_decimal _ (delimited_comma _), literal_comma, hhigh, hmin, htouch, Option.bind_eq_bind,
      Option.bind_some]
    rfl
  have hrange : scanRange (saved.policyExLine tail) = none := scanRange_policy _
  have hpolicy : scanPolicy Rat (saved.policyExLine tail) = none := rfl
  refine ⟨pressureHigh, pressureMin, touchFactor, ?_⟩
  simp only [loadLine, hline, hrange, hpolicy, hscan]

/-! ## The whole file -/

/-- The allocator after the lines in front of the leases. -/
def headLoaded (target saved : IdAllocator n) : IdAllocator n :=
  ((target.clearEntries.loadLine (printLine saved.rangeText)).loadLine
    (printLine saved.policyText)).loadLine (printLine saved.policyExText)

theorem foldl_savedLines (target saved : IdAllocator n) :
    saved.savedLines.foldl loadLine target.clearEntries =
      (saved.leases.map entryText).foldl loadLine (target.headLoaded saved) := by
  have hentries : (saved.leases.map fun e => printLine (entryText e)) =
      saved.leases.map entryText := by
    apply List.map_congr_left
    intro e _
    exact List.take_of_length_le (entryText_length e)
  rw [savedLines, hentries, List.foldl_append]
  rfl

theorem headLoaded_entries (target saved : IdAllocator n) :
    (target.headLoaded saved).entries = Vector.replicate n .zero := by
  have hrange : Lettered (printLine saved.rangeText) := ⟨114, _, rfl, by decide⟩
  have hpolicy : Lettered (printLine saved.policyText) := ⟨112, _, rfl, by decide⟩
  have hpolicyEx : Lettered (printLine saved.policyExText) := ⟨112, _, rfl, by decide⟩
  rw [headLoaded, loadLine_lettered _ hpolicyEx, loadLine_lettered _ hpolicy,
    loadLine_lettered _ hrange]
  rfl

/-- The leases of the file are the leases of the loaded allocator. -/
theorem leases_loaded (target saved : IdAllocator n) :
    (saved.savedLines.foldl loadLine target.clearEntries).leases = saved.leases := by
  have hused : ∀ e ∈ saved.leases, e.inUse = true := fun e he => (List.mem_filter.mp he).2
  have hroom : saved.leases.length ≤ n := by
    have hle := List.length_filter_le (·.inUse) saved.entries.toList
    rwa [Vector.length_toList] at hle
  have hempty : Packed (target.headLoaded saved).entries IdLeaseEntry.zero [] := by
    rw [headLoaded_entries]
    exact packed_replicate _
  rw [foldl_savedLines]
  exact packed_used (packed_load hempty hused hroom) rfl hused hroom

/-- What a loaded allocator has of the saved one. -/
structure Restored (saved loaded : IdAllocator n) : Prop where
  startId : loaded.startId = saved.startId
  endId : loaded.endId = saved.endId
  defaultLease : loaded.defaultLeaseSeconds = saved.defaultLeaseSeconds
  minLease : loaded.minLeaseSeconds = saved.minLeaseSeconds
  maxLease : loaded.maxLeaseSeconds = saved.maxLeaseSeconds
  rateWindow : loaded.rateWindowSeconds = saved.rateWindowSeconds
  adaptive : loaded.adaptiveEnabled = saved.adaptiveEnabled
  leases : ∀ aid, (loaded.leaseOf aid).map (fun e => (e.leasedUntil, e.lastSeen)) =
    (saved.leaseOf aid).map fun e => (e.leasedUntil, e.lastSeen)

section
variable {saved : IdAllocator n} (hok : saved.PolicyOk) (target : IdAllocator n)
include hok

/-- Where the policy line is read, the setters clamp the upper bound of a lease only. -/
theorem headLoaded_read (h : saved.policyText.length ≤ 192) :
    (target.headLoaded saved).startId = saved.startId ∧
    (target.headLoaded saved).endId = saved.endId ∧
    (target.headLoaded saved).defaultLeaseSeconds = saved.defaultLeaseSeconds ∧
    (target.headLoaded saved).minLeaseSeconds = saved.minLeaseSeconds ∧
    (target.headLoaded saved).maxLeaseSeconds =
      (if saved.maxLeaseSeconds ≥ saved.minLeaseSeconds then saved.maxLeaseSeconds
        else saved.minLeaseSeconds) ∧
    (target.headLoaded saved).rateWindowSeconds = saved.rateWindowSeconds ∧
    (target.headLoaded saved).adaptiveEnabled = saved.adaptiveEnabled := by
  rw [headLoaded, loadLine_rangeText]
  obtain ⟨threshold, factor, hpolicy⟩ := loadLine_policyText
    { target.clearEntries with
      startId := saved.startId
      endId := saved.endId
      defaultLeaseSeconds := saved.defaultLeaseSeconds } hok h
  rw [hpolicy]
  generalize hset : setPolicy (_ : IdAllocator n) _ _ _ _ _ = policy
  obtain ⟨pressureHigh, pressureMin, touchFactor, hpolicyEx⟩ := loadLine_policyExText policy hok
  rw [hpolicyEx, ← hset]
  simp only [setPolicyEx, setPolicy, if_pos hok.minLease, if_pos hok.rateWindow, and_self]

/-- Where it is skipped, the lower bound of a lease is the one of before. -/
theorem headLoaded_skipped (h : 192 < saved.policyText.length) :
    (target.headLoaded saved).minLeaseSeconds =
      if target.minLeaseSeconds > 0 then target.minLeaseSeconds else 1 := by
  rw [headLoaded, loadLine_rangeText, loadLine_policyText_cut _ hok h]
  obtain ⟨pressureHigh, pressureMin, touchFactor, hpolicyEx⟩ := loadLine_policyExText
    { target.clearEntries with
      startId := saved.startId
      endId := saved.endId
      defaultLeaseSeconds := saved.defaultLeaseSeconds } hok
  rw [hpolicyEx]
  rfl

/-- Where the policy line is read, the file restores its allocator if the bounds of a lease
are in order. -/
theorem restored_read (h : saved.policyText.length ≤ 192) :
    Restored saved (saved.savedLines.foldl loadLine target.clearEntries) ↔
      saved.minLeaseSeconds ≤ saved.maxLeaseSeconds := by
  obtain ⟨hstart, hend, hlease, hmin, hmax, hrate, hadaptive⟩ := headLoaded_read hok target h
  have hleases := leases_loaded target saved
  rw [foldl_savedLines] at hleases ⊢
  obtain ⟨entries, window, count, hpolicy⟩ :=
    samePolicy_entries (target.headLoaded saved) saved.leases
  constructor
  · intro hrestored
    have hbound := hrestored.maxLease
    rw [hpolicy] at hbound
    simp only [hmax] at hbound
    split at hbound
    · assumption
    · exact UInt64.le_of_eq hbound
  · intro hle
    rw [if_pos hle] at hmax
    refine ⟨?_, ?_, ?_, ?_, ?_, ?_, ?_, fun aid => by rw [leaseOf_congr hleases]⟩
    · rw [hpolicy]
      exact hstart
    · rw [hpolicy]
      exact hend
    · rw [hpolicy]
      exact hlease
    · rw [hpolicy]
      exact hmin
    · rw [hpolicy]
      exact hmax
    · rw [hpolicy]
      exact hrate
    · rw [hpolicy]
      exact hadaptive

/-- Where it is skipped, another lower bound stays. -/
theorem not_restored_skipped (h : 192 < saved.policyText.length) : ∃ target : IdAllocator n,
    ¬ Restored saved (saved.savedLines.foldl loadLine target.clearEntries) := by
  let other : IdAllocator n := { saved with minLeaseSeconds := saved.minLeaseSeconds + 1 }
  refine ⟨other, fun hrestored => ?_⟩
  have hmin := hrestored.minLease
  obtain ⟨entries, window, count, hpolicy⟩ :=
    samePolicy_entries (other.headLoaded saved) saved.leases
  rw [foldl_savedLines, hpolicy] at hmin
  simp only [headLoaded_skipped hok other h] at hmin
  have hother : other.minLeaseSeconds.toNat = (saved.minLeaseSeconds.toNat + 1) % 2 ^ 64 :=
    UInt64.toNat_add _ _
  have hlt := saved.minLeaseSeconds.toNat_lt
  split at hmin
  · rw [hmin] at hother
    omega
  · rename_i hzero
    rw [gt_iff_lt, UInt64.lt_iff_toNat_lt, hother, UInt64.toNat_zero] at hzero
    have hone : saved.minLeaseSeconds.toNat = 1 := congrArg UInt64.toNat hmin.symm
    omega

end

/-- A file that is saved and read whole is loaded, into any allocator, and restores the one
that was saved. -/
def LoadRestores (saved : IdAllocator n) : Prop :=
  ∀ (writer : StorageWriter) (lines : List Bytes) (target : IdAllocator n)
    (reader : StorageReader), saved.save (some writer) = (lines, true) →
    reader.lines = lines → reader.readError = false → reader.closeOk = true →
    (target.load (some reader)).2 = true ∧ Restored saved (target.load (some reader)).1

theorem loadRestores_iff_restored {saved : IdAllocator n} : LoadRestores saved ↔
    ∀ target : IdAllocator n,
      Restored saved (saved.savedLines.foldl loadLine target.clearEntries) := by
  constructor
  · intro h target
    have hsave : saved.save (some ⟨saved.savedLines.length, true⟩) = (saved.savedLines, true) :=
      if_pos (Nat.le_refl _)
    exact (h _ _ target ⟨saved.savedLines, false, true⟩ hsave rfl rfl rfl).2
  · intro h writer lines target reader hsave hlines herror hclose
    rw [save_some hsave] at hlines
    simp only [load, hlines, herror, hclose]
    exact ⟨rfl, h target⟩

/-- A saved allocator is restored exactly if the bounds of a lease are in order and its
policy is short enough for the line it is saved in. -/
theorem load_restores_iff (startId endId : UInt32) (lease : UInt64) (ops : List IdOp) :
    LoadRestores (ops.foldl idStep (init n startId endId lease)) ↔
      (ops.foldl idStep (init n startId endId lease)).minLeaseSeconds ≤
          (ops.foldl idStep (init n startId endId lease)).maxLeaseSeconds ∧
        (ops.foldl idStep (init n startId endId lease)).PolicyShort := by
  have hok := policyOk_run (n := n) startId endId lease ops
  generalize ops.foldl idStep (init n startId endId lease) = saved at hok ⊢
  rw [loadRestores_iff_restored, policyShort_iff hok]
  by_cases hlen : saved.policyText.length ≤ 192
  · rw [and_iff_left hlen]
    exact ⟨fun h => (restored_read hok saved hlen).mp (h saved),
      fun hle target => (restored_read hok target hlen).mpr hle⟩
  · refine ⟨fun h => ?_, fun hboth => absurd hboth.2 hlen⟩
    obtain ⟨target, hnot⟩ := not_restored_skipped hok (Nat.not_le.mp hlen)
    exact absurd (h target) hnot

/-- A default lease of half a minute, which is below the lower bound of a lease. -/
def shortLease : IdAllocator 16 := init 16 1 10 30

/-- Loaded into itself it has another upper bound. -/
theorem short_lease_not_restored :
    shortLease.save (some ⟨3, true⟩) = (shortLease.savedLines, true) ∧
      (shortLease.load (some ⟨shortLease.savedLines, false, true⟩)).2 = true ∧
      shortLease.maxLeaseSeconds = 30 ∧
      (shortLease.load (some ⟨shortLease.savedLines, false, true⟩)).1.maxLeaseSeconds = 60 := by
  refine ⟨?_, ?_, ?_, ?_⟩
  · decide +kernel
  · decide +kernel
  · decide +kernel
  · decide +kernel

end IdAllocator

end Osfx
