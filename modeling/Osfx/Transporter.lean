import Osfx.Lib.Attempts
import Osfx.Lib.Run
import Osfx.Lib.SlotTable
import Osfx.Sizes

/-!
# Transport drivers

`osfx_transporter_runtime.c`: the table of drivers and the dispatch that tries them until
one sends. A `send_fn` and its `user_ctx` are a value of a type `F`; what the callbacks
return is not up to the table, so the outcome of the `k`-th call of a dispatch is
`outcomes k`. An `int` is an `Int32`, and the sum that overflows wraps around.
-/

namespace Osfx

open Attempts EventSystem SlotTable

def transporterMax : Nat := 16
def transporterNameMax : Nat := 24

structure TransporterDriver (F : Type) where
  name : Bytes
  priority : Int32
  enabled : Bool
  sendFn : Option F
  maxRetries : Int32
  used : Bool
  deriving DecidableEq

abbrev TransporterRuntime (F : Type) := Vector (TransporterDriver F) transporterMax

section
variable {F : Type}

def TransporterDriver.zero (F : Type) : TransporterDriver F := ⟨[], 0, false, none, 0, false⟩

def transporterRuntimeInit (F : Type) : TransporterRuntime F :=
  Vector.replicate _ (TransporterDriver.zero F)

/-- `copy_name`. -/
def copyName (cap : Nat) (name : Bytes) : Option Bytes := copyText cap name

/-- The driver of a name: the loop every operation starts with. -/
def findDriver (rt : TransporterRuntime F) (name : Bytes) : Option (Fin transporterMax) :=
  lookup TransporterDriver.used TransporterDriver.name rt name

/-- The driver put in a free slot, which keeps the name that was there. -/
def freshDriver (d : TransporterDriver F) (priority : Int32) (sendFn : F) : TransporterDriver F :=
  { d with used := true, priority := priority, sendFn := some sendFn, enabled := true,
           maxRetries := 0 }

/-- `osfx_transporter_register`: the return value and the table afterwards. -/
def transporterRegister (rt : TransporterRuntime F) (name : Bytes) (priority : Int32)
    (sendFn : Option F) : Bool × TransporterRuntime F :=
  match sendFn with
  | none => (false, rt)
  | some fn =>
    match findDriver rt name with
    | some i =>
      let d := rt.get i
      (true, rt.set i { d with
        priority := priority
        sendFn := some fn
        enabled := true
        maxRetries := if d.maxRetries < 0 then 0 else d.maxRetries } i.isLt)
    | none =>
      match vacant TransporterDriver.used rt with
      | none => (false, rt)
      | some i =>
        let d := freshDriver (rt.get i) priority fn
        match copyName transporterNameMax name with
        | none => (false, rt.set i d i.isLt)
        | some text => (true, rt.set i { d with name := text } i.isLt)

/-- `osfx_transporter_set_enabled`. -/
def transporterSetEnabled (rt : TransporterRuntime F) (name : Bytes) (enabled : Bool) :
    Bool × TransporterRuntime F :=
  match findDriver rt name with
  | none => (false, rt)
  | some i => (true, rt.set i { rt.get i with enabled := enabled } i.isLt)

/-- `osfx_transporter_set_retry`. -/
def transporterSetRetry (rt : TransporterRuntime F) (name : Bytes) (maxRetries : Int32) :
    Bool × TransporterRuntime F :=
  let maxRetries := if maxRetries < 0 then 0 else maxRetries
  match findDriver rt name with
  | none => (false, rt)
  | some i => (true, rt.set i { rt.get i with maxRetries := maxRetries } i.isLt)

/-! ## Dispatch -/

/-- `tries`, as many turns as its loop takes. -/
def TransporterDriver.tries (d : TransporterDriver F) : Nat :=
  (1 + (if d.maxRetries > 0 then d.maxRetries else 0)).toInt.toNat

/-- The retry loop of one driver. -/
def trySend (outcomes : Nat → Bool) (rt : TransporterRuntime F) (i : Fin transporterMax)
    (made : List (Fin transporterMax)) : Bool × List (Fin transporterMax) :=
  attempt outcomes (List.replicate (rt.get i).tries i) made

/-- Whether the loops of a dispatch take a driver. -/
def TransporterDriver.ready (d : TransporterDriver F) : Bool :=
  d.used && d.enabled && d.sendFn.isSome

/-- The loop that looks for the best driver: its slot and its priority. -/
def pickBest (rt : TransporterRuntime F) : Option (Fin transporterMax) × Int32 :=
  (List.finRange transporterMax).foldl (fun best i =>
    if (rt.get i).ready = true ∧ (rt.get i).priority > best.2 then (some i, (rt.get i).priority)
    else best) (none, -2147483647)

/-- The return value, the drivers in the order their callbacks were called, and the name
written to `out_used_name`. -/
structure DispatchResult where
  ret : Bool
  made : List (Fin transporterMax)
  usedName : Option Bytes
  deriving DecidableEq

/-- The loop over the drivers other than the best one. -/
def tryOthers (outcomes : Nat → Bool) (rt : TransporterRuntime F) (outUsedNameCap : Nat)
    (best : Fin transporterMax) :
    List (Fin transporterMax) → List (Fin transporterMax) → DispatchResult
  | [], made => ⟨false, made, none⟩
  | i :: slots, made =>
    if i = best ∨ (rt.get i).ready = false then
      tryOthers outcomes rt outUsedNameCap best slots made
    else
      let sent := trySend outcomes rt i made
      if sent.1 then ⟨true, sent.2, copyName outUsedNameCap (rt.get i).name⟩
      else tryOthers outcomes rt outUsedNameCap best slots sent.2

/-- `osfx_transporter_dispatch_auto`. A NULL `out_used_name` has no bytes. -/
def transporterDispatchAuto (outcomes : Nat → Bool) (rt : TransporterRuntime F)
    (outUsedNameCap : Nat) : DispatchResult :=
  match (pickBest rt).1 with
  | none => ⟨false, [], none⟩
  | some best =>
    let sent := trySend outcomes rt best []
    if sent.1 then ⟨true, sent.2, copyName outUsedNameCap (rt.get best).name⟩
    else tryOthers outcomes rt outUsedNameCap best (List.finRange transporterMax) sent.2

/-- `osfx_transporter_dispatch_named`: the return value and the callbacks called. -/
def transporterDispatchNamed (outcomes : Nat → Bool) (rt : TransporterRuntime F) (name : Bytes) :
    Bool × List (Fin transporterMax) :=
  match findSlot rt fun d => d.used && d.enabled && decide (d.name = name) with
  | none => (false, [])
  | some i => trySend outcomes rt i []

/-! ## What a dispatch tries -/

/-- The attempts at these drivers, each as often as it has tries. -/
def planOf (rt : TransporterRuntime F) (slots : List (Fin transporterMax)) :
    List (Fin transporterMax) :=
  slots.flatMap fun i => List.replicate (rt.get i).tries i

/-- The drivers the second loop takes. -/
def otherReady (rt : TransporterRuntime F) (best : Fin transporterMax)
    (slots : List (Fin transporterMax)) : List (Fin transporterMax) :=
  slots.filter fun i => decide (i ≠ best) && (rt.get i).ready

theorem tryOthers_eq (outcomes : Nat → Bool) (rt : TransporterRuntime F) (cap : Nat)
    (best : Fin transporterMax) (slots made : List (Fin transporterMax)) :
    ((tryOthers outcomes rt cap best slots made).ret,
      (tryOthers outcomes rt cap best slots made).made) =
    attempt outcomes (planOf rt (otherReady rt best slots)) made := by
  induction slots generalizing made with
  | nil => rfl
  | cons i slots ih =>
    rw [tryOthers]
    by_cases hskip : i = best ∨ (rt.get i).ready = false
    · have hfilter : otherReady rt best (i :: slots) = otherReady rt best slots := by
        rw [otherReady, List.filter_cons_of_neg]
        · rfl
        · rcases hskip with h | h <;> simp [h]
      rw [if_pos hskip, hfilter]
      exact ih made
    · have hfilter : otherReady rt best (i :: slots) = i :: otherReady rt best slots := by
        rw [not_or, Bool.not_eq_false] at hskip
        rw [otherReady, List.filter_cons_of_pos]
        · rfl
        · simp [hskip]
      rw [if_neg hskip, hfilter, planOf, List.flatMap_cons, attempt_append, ← planOf, ← trySend]
      generalize trySend outcomes rt i made = sent
      obtain ⟨ret, made'⟩ := sent
      cases ret with
      | true => rfl
      | false => exact ih made'

/-- The slots a dispatch tries, in its order. -/
def dispatchOrder (rt : TransporterRuntime F) : List (Fin transporterMax) :=
  match (pickBest rt).1 with
  | none => []
  | some best => best :: otherReady rt best (List.finRange transporterMax)

/-- A dispatch carries out its plan until an attempt succeeds. -/
theorem dispatchAuto_eq (outcomes : Nat → Bool) (rt : TransporterRuntime F) (cap : Nat) :
    ((transporterDispatchAuto outcomes rt cap).ret,
      (transporterDispatchAuto outcomes rt cap).made) =
    attempt outcomes (planOf rt (dispatchOrder rt)) [] := by
  unfold transporterDispatchAuto dispatchOrder
  cases (pickBest rt).1 with
  | none => rfl
  | some best =>
    simp only
    rw [planOf, List.flatMap_cons, attempt_append, ← planOf, ← trySend]
    generalize trySend outcomes rt best [] = sent
    obtain ⟨ret, made⟩ := sent
    cases ret with
    | true => rfl
    | false => exact tryOthers_eq outcomes rt cap best _ made

/-- The tries of a driver are calls of its callback. -/
theorem trySend_made (outcomes : Nat → Bool) (rt : TransporterRuntime F)
    (i : Fin transporterMax) (made : List (Fin transporterMax)) :
    ∃ k, (trySend outcomes rt i made).2 = made ++ List.replicate k i := by
  obtain ⟨done, rest, hplan, hmade⟩ :=
    attempt_prefix outcomes (List.replicate (rt.get i).tries i) made
  refine ⟨done.length, ?_⟩
  rw [trySend, hmade, ← (List.replicate_eq_append_iff.mp hplan).2.1]

/-- Tries that end well end with their driver. -/
theorem trySend_last {outcomes : Nat → Bool} {rt : TransporterRuntime F}
    {i : Fin transporterMax} {made : List (Fin transporterMax)}
    (h : (trySend outcomes rt i made).1 = true) :
    (trySend outcomes rt i made).2.getLast? = some i := by
  obtain ⟨k, hmade⟩ := trySend_made outcomes rt i made
  obtain ⟨m, hm, hlt, -⟩ := (attempt_success outcomes _ made).mp h
  rw [← trySend, hmade, List.length_append, List.length_replicate] at hlt
  have hk : k ≠ 0 := by omega
  rw [hmade, List.getLast?_append, List.getLast?_replicate, if_neg hk]
  rfl

theorem tryOthers_name {outcomes : Nat → Bool} {rt : TransporterRuntime F} {cap : Nat}
    {best : Fin transporterMax} {slots made : List (Fin transporterMax)}
    (h : (tryOthers outcomes rt cap best slots made).ret = true) :
    ∃ i, (tryOthers outcomes rt cap best slots made).made.getLast? = some i ∧
      (tryOthers outcomes rt cap best slots made).usedName = copyName cap (rt.get i).name := by
  induction slots generalizing made with
  | nil => cases h
  | cons i slots ih =>
    rw [tryOthers] at h ⊢
    split
    · rename_i hskip
      rw [if_pos hskip] at h
      exact ih h
    · rename_i hskip
      rw [if_neg hskip] at h
      simp only at h ⊢
      cases hsent : (trySend outcomes rt i made).1 with
      | true =>
        simp only [if_true]
        exact ⟨i, trySend_last hsent, rfl⟩
      | false =>
        simp only [hsent, Bool.false_eq_true, if_false] at h ⊢
        exact ih h

/-- The reported name is that of the driver whose callback was called last. -/
theorem dispatchAuto_name {outcomes : Nat → Bool} {rt : TransporterRuntime F} {cap : Nat}
    (h : (transporterDispatchAuto outcomes rt cap).ret = true) :
    ∃ i, (transporterDispatchAuto outcomes rt cap).made.getLast? = some i ∧
      (transporterDispatchAuto outcomes rt cap).usedName = copyName cap (rt.get i).name := by
  unfold transporterDispatchAuto at h ⊢
  cases hbest : (pickBest rt).1 with
  | none =>
    rw [hbest] at h
    cases h
  | some best =>
    rw [hbest] at h
    simp only at h ⊢
    cases hsent : (trySend outcomes rt best []).1 with
    | true =>
      simp only [if_true]
      exact ⟨best, trySend_last hsent, rfl⟩
    | false =>
      simp only [hsent, Bool.false_eq_true, if_false] at h ⊢
      exact tryOthers_name h

/-! ## The best driver -/

/-- What the loop has found among the slots it has seen. -/
structure Picked (rt : TransporterRuntime F) (seen : List (Fin transporterMax))
    (best : Option (Fin transporterMax) × Int32) : Prop where
  start : best.1 = none → best.2 = -2147483647
  found : ∀ i, best.1 = some i → (rt.get i).ready = true ∧ (rt.get i).priority = best.2
  low : -2147483647 < best.2 ∨ best.1 = none
  max : ∀ i ∈ seen, (rt.get i).ready = true → (rt.get i).priority ≤ best.2

theorem Picked.step {rt : TransporterRuntime F} {seen : List (Fin transporterMax)}
    {best : Option (Fin transporterMax) × Int32} (h : Picked rt seen best)
    (i : Fin transporterMax) : Picked rt (seen ++ [i])
      (if (rt.get i).ready = true ∧ (rt.get i).priority > best.2 then
        (some i, (rt.get i).priority) else best) := by
  split
  · rename_i hbetter
    refine ⟨(fun hn => nomatch hn), fun j hj => ?_, Or.inl ?_, fun j hj hready => ?_⟩
    · cases hj
      exact ⟨hbetter.1, rfl⟩
    · rcases h.low with hlow | hnone
      · exact Int32.lt_trans hlow hbetter.2
      · rw [← h.start hnone]
        exact hbetter.2
    · rcases List.mem_append.mp hj with hj | hj
      · exact Int32.le_of_lt (Int32.lt_of_le_of_lt (h.max j hj hready) hbetter.2)
      · rw [List.mem_singleton.mp hj]
        exact Int32.le_refl _
  · rename_i hworse
    refine ⟨h.start, h.found, h.low, fun j hj hready => ?_⟩
    rcases List.mem_append.mp hj with hj | hj
    · exact h.max j hj hready
    · rw [List.mem_singleton.mp hj] at hready ⊢
      exact Int32.not_lt.mp fun hlt => hworse ⟨hready, hlt⟩

/-- What the loop keeps from slot to slot holds of what it finds. -/
theorem pickBest_induction {rt : TransporterRuntime F}
    {P : List (Fin transporterMax) → Option (Fin transporterMax) × Int32 → Prop}
    (hstart : P [] (none, -2147483647))
    (hstep : ∀ seen best i, P seen best → P (seen ++ [i])
      (if (rt.get i).ready = true ∧ (rt.get i).priority > best.2 then
        (some i, (rt.get i).priority) else best)) :
    P (List.finRange transporterMax) (pickBest rt) := by
  have hfold : ∀ (slots seen : List (Fin transporterMax))
      (best : Option (Fin transporterMax) × Int32), P seen best →
      P (seen ++ slots) (slots.foldl (fun best i =>
        if (rt.get i).ready = true ∧ (rt.get i).priority > best.2 then
          (some i, (rt.get i).priority) else best) best) := by
    intro slots
    induction slots with
    | nil =>
      intro seen best h
      simpa using h
    | cons i slots ih =>
      intro seen best h
      have hnext := ih (seen ++ [i]) _ (hstep seen best i h)
      rwa [List.append_assoc, List.singleton_append] at hnext
  exact hfold (List.finRange transporterMax) [] _ hstart

theorem pickBest_picked (rt : TransporterRuntime F) :
    Picked rt (List.finRange transporterMax) (pickBest rt) :=
  pickBest_induction ⟨fun _ => rfl, (fun _ hi => nomatch hi), Or.inr rfl,
    (fun _ hi => nomatch hi)⟩ fun _ _ i h => h.step i

/-- The selection finds no driver only if the priority of each is as low as can be. -/
theorem pickBest_none {rt : TransporterRuntime F} (h : (pickBest rt).1 = none)
    (i : Fin transporterMax) (hready : (rt.get i).ready = true) :
    (rt.get i).priority ≤ -2147483647 := by
  have hpicked := pickBest_picked rt
  have hmax := hpicked.max i (List.mem_finRange i) hready
  rwa [hpicked.start h] at hmax

/-- The driver it finds has a higher one. -/
theorem pickBest_some {rt : TransporterRuntime F} {best : Fin transporterMax}
    (h : (pickBest rt).1 = some best) :
    (rt.get best).ready = true ∧ -2147483647 < (rt.get best).priority := by
  have hpicked := pickBest_picked rt
  obtain ⟨hready, hprio⟩ := hpicked.found best h
  refine ⟨hready, ?_⟩
  rcases hpicked.low with hlow | hnone
  · rw [hprio]
    exact hlow
  · rw [h] at hnone
    cases hnone

theorem nodup_dispatchOrder (rt : TransporterRuntime F) : (dispatchOrder rt).Nodup := by
  unfold dispatchOrder
  split
  · exact List.nodup_nil
  · rename_i best _
    refine List.nodup_cons.mpr ⟨?_, (List.nodup_finRange _).filter _⟩
    intro hmem
    have hpred := (List.mem_filter.mp hmem).2
    simp at hpred

/-- A dispatch that finds a best driver has every driver that is ready in its order. -/
theorem mem_dispatchOrder {rt : TransporterRuntime F} {best : Fin transporterMax}
    (h : (pickBest rt).1 = some best) (i : Fin transporterMax) :
    i ∈ dispatchOrder rt ↔ (rt.get i).ready = true := by
  have hready := (pickBest_some h).1
  unfold dispatchOrder
  rw [h]
  by_cases hi : i = best
  · subst hi
    simpa using hready
  · simp [otherReady, hi]

theorem count_planOf (rt : TransporterRuntime F) {slots : List (Fin transporterMax)}
    (hn : slots.Nodup) (i : Fin transporterMax) :
    (planOf rt slots).count i = if i ∈ slots then (rt.get i).tries else 0 := by
  induction slots with
  | nil => rfl
  | cons j slots ih =>
    obtain ⟨hj, hn⟩ := List.nodup_cons.mp hn
    have hrest := ih hn
    rw [planOf, List.flatMap_cons, List.count_append, ← planOf, hrest, List.count_replicate]
    by_cases hij : j = i
    · subst hij
      simp [hj]
    · have hne : ¬ i = j := fun h => hij h.symm
      simp [hij, hne]

/-! ## Tables that calls lead to -/

inductive TransporterOp (F : Type) where
  | register (name : Bytes) (priority : Int32) (sendFn : Option F)
  | setEnabled (name : Bytes) (enabled : Bool)
  | setRetry (name : Bytes) (maxRetries : Int32)

def transporterCall (rt : TransporterRuntime F) :
    TransporterOp F → Bool × TransporterRuntime F
  | .register name priority sendFn => transporterRegister rt name priority sendFn
  | .setEnabled name enabled => transporterSetEnabled rt name enabled
  | .setRetry name maxRetries => transporterSetRetry rt name maxRetries

/-- A call that returns 1. -/
def transporterStep (rt : TransporterRuntime F) (op : TransporterOp F) :
    Option (TransporterRuntime F) :=
  if (transporterCall rt op).1 then some (transporterCall rt op).2 else none

/-- Tables that calls which return 1 lead to. -/
def TransporterReachable (rt : TransporterRuntime F) : Prop :=
  ∃ ops, run transporterStep (transporterRuntimeInit F) ops = some rt

/-- A used driver has a callback, and no negative number of retries. -/
def DriverOk (d : TransporterDriver F) : Prop :=
  d.used = true → d.sendFn.isSome = true ∧ 0 ≤ d.maxRetries

def DriversOk (rt : TransporterRuntime F) : Prop := ∀ i, DriverOk (rt.get i)

theorem driversOk_set {rt : TransporterRuntime F} (h : DriversOk rt) (i : Fin transporterMax)
    {d : TransporterDriver F} (hd : DriverOk d) : DriversOk (rt.set i d i.isLt) :=
  forall_set (P := fun _ d => DriverOk d) hd fun j _ => h j

theorem retries_nonneg (m : Int32) : 0 ≤ (if m < 0 then 0 else m) := by
  split
  · exact Int32.le_refl 0
  · rename_i h
    exact Int32.not_lt.mp h

theorem driversOk_call {rt : TransporterRuntime F} (h : DriversOk rt) (op : TransporterOp F) :
    DriversOk (transporterCall rt op).2 := by
  cases op with
  | register name priority sendFn =>
    simp only [transporterCall, transporterRegister]
    cases sendFn with
    | none => exact h
    | some fn =>
      have hfresh : ∀ (d : TransporterDriver F), DriverOk (freshDriver d priority fn) :=
        fun d _ => ⟨rfl, Int32.le_refl 0⟩
      cases hf : findDriver rt name with
      | some i => exact driversOk_set h i fun _ => ⟨rfl, retries_nonneg _⟩
      | none =>
        cases hv : vacant TransporterDriver.used rt with
        | none => exact h
        | some i =>
          cases hc : copyName transporterNameMax name with
          | none => exact driversOk_set h i (hfresh _)
          | some text => exact driversOk_set h i fun _ => ⟨rfl, Int32.le_refl 0⟩
  | setEnabled name enabled =>
    simp only [transporterCall, transporterSetEnabled]
    cases hf : findDriver rt name with
    | none => exact h
    | some i => exact driversOk_set h i (h i)
  | setRetry name maxRetries =>
    simp only [transporterCall, transporterSetRetry]
    cases hf : findDriver rt name with
    | none => exact h
    | some i => exact driversOk_set h i fun hu => ⟨(h i hu).1, retries_nonneg _⟩

theorem TransporterReachable.driversOk {rt : TransporterRuntime F} (h : TransporterReachable rt) :
    DriversOk rt := by
  obtain ⟨ops, hrun⟩ := h
  have hinit : DriversOk (transporterRuntimeInit F) := by
    intro i hu
    rw [transporterRuntimeInit, get_replicate] at hu
    cases hu
  refine run_invariant transporterStep (fun s op t hs ht => ?_) hinit hrun
  unfold transporterStep at ht
  split at ht
  · cases ht
    exact driversOk_call hs op
  · cases ht

/-! ## Everything is tried before a dispatch fails -/

/-- A driver that is registered and enabled. -/
def TransporterDriver.Active (d : TransporterDriver F) : Prop :=
  d.used = true ∧ d.enabled = true

/-- Every driver that is active is tried once and retried as often as it says, until one
sends; nothing is tried more often, or after that, and the one that sent is reported. -/
structure TriesAll (outcomes : Nat → Bool) (rt : TransporterRuntime F) (cap : Nat) : Prop where
  ret_iff : (transporterDispatchAuto outcomes rt cap).ret = true ↔
    ∃ k, k < (transporterDispatchAuto outcomes rt cap).made.length ∧ outcomes k = true
  tried : (transporterDispatchAuto outcomes rt cap).ret = false → ∀ i, (rt.get i).Active →
    ((transporterDispatchAuto outcomes rt cap).made.count i : Int) =
      1 + (rt.get i).maxRetries.toInt
  bounded : ∀ i, (rt.get i).Active →
    ((transporterDispatchAuto outcomes rt cap).made.count i : Int) ≤ 1 + (rt.get i).maxRetries.toInt
  active : ∀ i ∈ (transporterDispatchAuto outcomes rt cap).made, (rt.get i).Active
  stops : ∀ k, k + 1 < (transporterDispatchAuto outcomes rt cap).made.length → outcomes k = false
  name : (transporterDispatchAuto outcomes rt cap).ret = true →
    ∃ i, (transporterDispatchAuto outcomes rt cap).made.getLast? = some i ∧
      (transporterDispatchAuto outcomes rt cap).usedName = copyName cap (rt.get i).name

/-- Some active driver, if there is one, has a priority the selection can find, and none
has as many retries as make its number of tries overflow. -/
def DispatchSafe (rt : TransporterRuntime F) : Prop :=
  ((∃ i, (rt.get i).Active) → ∃ i, (rt.get i).Active ∧ -2147483647 < (rt.get i).priority) ∧
  ∀ i, (rt.get i).Active → (rt.get i).maxRetries ≠ Int32.maxValue

theorem DriverOk.ready_iff {d : TransporterDriver F} (h : DriverOk d) :
    d.ready = true ↔ d.Active := by
  unfold TransporterDriver.ready TransporterDriver.Active
  simp only [Bool.and_eq_true]
  constructor
  · exact fun hr => hr.1
  · exact fun ha => ⟨ha, (h ha.1).1⟩

/-- The number of tries is one more than the retries, unless that overflows. -/
theorem tries_eq {d : TransporterDriver F} (h : 0 ≤ d.maxRetries) : (d.tries : Int) =
    if d.maxRetries = Int32.maxValue then 0 else 1 + d.maxRetries.toInt := by
  have hpos : 0 ≤ d.maxRetries.toInt := Int32.le_iff_toInt_le.mp h
  have hlt := d.maxRetries.toInt_lt
  have hclamp : (if d.maxRetries > 0 then d.maxRetries else 0) = d.maxRetries := by
    split
    · rfl
    · rename_i hn
      rw [← Int32.toInt_inj]
      have hle := Int32.le_iff_toInt_le.mp (Int32.not_lt.mp hn)
      have hzero : (0 : Int32).toInt = 0 := rfl
      omega
  have hmax : Int32.maxValue.toInt = 2147483647 := rfl
  have hone : (1 : Int32).toInt = 1 := rfl
  rw [TransporterDriver.tries, hclamp, Int32.toInt_add, hone]
  by_cases h31 : d.maxRetries = Int32.maxValue
  · rw [if_pos h31, h31, hmax]
    rfl
  · have hne : d.maxRetries.toInt ≠ 2147483647 := by
      rw [← hmax]
      exact fun he => h31 (Int32.toInt_inj.mp he)
    rw [if_neg h31, Int.bmod_eq_of_le (by omega) (by omega)]
    omega

theorem dispatch_ret (outcomes : Nat → Bool) (rt : TransporterRuntime F) (cap : Nat) :
    (transporterDispatchAuto outcomes rt cap).ret =
      (attempt outcomes (planOf rt (dispatchOrder rt)) []).1 :=
  congrArg Prod.fst (dispatchAuto_eq outcomes rt cap)

theorem dispatch_made (outcomes : Nat → Bool) (rt : TransporterRuntime F) (cap : Nat) :
    (transporterDispatchAuto outcomes rt cap).made =
      (attempt outcomes (planOf rt (dispatchOrder rt)) []).2 :=
  congrArg Prod.snd (dispatchAuto_eq outcomes rt cap)

/-- The calls are the beginning of the plan. -/
theorem dispatch_prefix (outcomes : Nat → Bool) (rt : TransporterRuntime F) (cap : Nat) :
    ∃ rest, planOf rt (dispatchOrder rt) =
      (transporterDispatchAuto outcomes rt cap).made ++ rest := by
  obtain ⟨done, rest, hplan, hmade⟩ := attempt_prefix outcomes (planOf rt (dispatchOrder rt)) []
  rw [List.nil_append] at hmade
  exact ⟨rest, by rw [dispatch_made, hmade, ← hplan]⟩

/-- How often a driver is tried at most, and exactly if nothing succeeds. -/
theorem dispatch_count (outcomes : Nat → Bool) (rt : TransporterRuntime F) (cap : Nat)
    (i : Fin transporterMax) :
    (transporterDispatchAuto outcomes rt cap).made.count i ≤
      (if i ∈ dispatchOrder rt then (rt.get i).tries else 0) ∧
    ((transporterDispatchAuto outcomes rt cap).ret = false →
      (transporterDispatchAuto outcomes rt cap).made.count i =
        if i ∈ dispatchOrder rt then (rt.get i).tries else 0) := by
  rw [← count_planOf rt (nodup_dispatchOrder rt)]
  constructor
  · obtain ⟨rest, hplan⟩ := dispatch_prefix outcomes rt cap
    rw [hplan, List.count_append]
    exact Nat.le_add_right _ _
  · intro hret
    rw [dispatch_ret] at hret
    rw [dispatch_made, attempt_all outcomes hret, List.nil_append]

theorem mem_dispatchOrder_active {rt : TransporterRuntime F} (hok : DriversOk rt)
    {i : Fin transporterMax} (h : i ∈ dispatchOrder rt) : (rt.get i).Active := by
  cases hbest : (pickBest rt).1 with
  | none =>
    rw [dispatchOrder, hbest] at h
    cases h
  | some best => exact (hok i).ready_iff.mp ((mem_dispatchOrder hbest i).mp h)

theorem active_mem_dispatchOrder {rt : TransporterRuntime F} (hok : DriversOk rt)
    (hsafe : DispatchSafe rt) {i : Fin transporterMax} (h : (rt.get i).Active) :
    i ∈ dispatchOrder rt := by
  cases hbest : (pickBest rt).1 with
  | none =>
    obtain ⟨j, hj, hprio⟩ := hsafe.1 ⟨i, h⟩
    have hlow := pickBest_none hbest j ((hok j).ready_iff.mpr hj)
    exact absurd (Int32.lt_of_lt_of_le hprio hlow) Int32.lt_irrefl
  | some best => exact (mem_dispatchOrder hbest i).mpr ((hok i).ready_iff.mpr h)

/-- If nothing succeeds, every active driver of a safe table gets its tries. -/
theorem tries_of_safe {rt : TransporterRuntime F} (hok : DriversOk rt) (hsafe : DispatchSafe rt)
    {i : Fin transporterMax} (h : (rt.get i).Active) :
    ((rt.get i).tries : Int) = 1 + (rt.get i).maxRetries.toInt := by
  rw [tries_eq ((hok i h.1).2), if_neg (hsafe.2 i h)]

theorem triesAll_of_safe {rt : TransporterRuntime F} (hok : DriversOk rt)
    (hsafe : DispatchSafe rt) (outcomes : Nat → Bool) (cap : Nat) :
    TriesAll outcomes rt cap where
  ret_iff := by
    rw [dispatch_ret, dispatch_made, attempt_success]
    constructor
    · rintro ⟨k, -, hlt, hk⟩
      exact ⟨k, hlt, hk⟩
    · rintro ⟨k, hlt, hk⟩
      exact ⟨k, Nat.zero_le k, hlt, hk⟩
  tried := by
    intro hret i hi
    rw [(dispatch_count outcomes rt cap i).2 hret,
      if_pos (active_mem_dispatchOrder hok hsafe hi)]
    exact tries_of_safe hok hsafe hi
  bounded := by
    intro i hi
    have hcount := (dispatch_count outcomes rt cap i).1
    rw [if_pos (active_mem_dispatchOrder hok hsafe hi)] at hcount
    rw [← tries_of_safe hok hsafe hi]
    exact Int.ofNat_le.mpr hcount
  active := by
    intro i hi
    have hcount := (dispatch_count outcomes rt cap i).1
    have hpos := List.count_pos_iff.mpr hi
    split at hcount
    · exact mem_dispatchOrder_active hok (by assumption)
    · omega
  stops := by
    intro k hk
    rw [dispatch_made] at hk
    exact attempt_stops outcomes _ [] (Nat.zero_le k) hk
  name := dispatchAuto_name

/-- While every callback fails, a table that is dispatched over as documented is safe. -/
theorem safe_of_triesAll {rt : TransporterRuntime F} (hok : DriversOk rt)
    (hall : TriesAll (fun _ => false) rt 0) : DispatchSafe rt := by
  have hret : (transporterDispatchAuto (fun _ => false) rt 0).ret = false := by
    rw [← Bool.not_eq_true, hall.ret_iff]
    rintro ⟨k, -, hk⟩
    cases hk
  have hmade : ∀ i, (rt.get i).Active → i ∈ dispatchOrder rt ∧
      ((rt.get i).tries : Int) = 1 + (rt.get i).maxRetries.toInt := by
    intro i hi
    have htried := hall.tried hret i hi
    have hretries : 0 ≤ (rt.get i).maxRetries.toInt :=
      Int32.le_iff_toInt_le.mp (hok i hi.1).2
    rw [(dispatch_count _ rt 0 i).2 hret] at htried
    split at htried
    · exact ⟨by assumption, htried⟩
    · omega
  constructor
  · rintro ⟨i, hi⟩
    cases hbest : (pickBest rt).1 with
    | none =>
      have hmem := (hmade i hi).1
      rw [dispatchOrder, hbest] at hmem
      cases hmem
    | some best =>
      obtain ⟨hready, hprio⟩ := pickBest_some hbest
      exact ⟨best, (hok best).ready_iff.mp hready, hprio⟩
  · intro i hi hmax
    have htries := (hmade i hi).2
    rw [tries_eq ((hok i hi.1).2), if_pos hmax, hmax] at htries
    cases htries

/-- A table that calls lead to is dispatched over as documented, whatever the callbacks
return, exactly if its drivers are safe. -/
theorem dispatch_tries_all_iff {rt : TransporterRuntime F} (h : TransporterReachable rt) :
    (∀ outcomes cap, TriesAll outcomes rt cap) ↔ DispatchSafe rt := by
  constructor
  · intro hall
    exact safe_of_triesAll h.driversOk (hall _ 0)
  · intro hsafe outcomes cap
    exact triesAll_of_safe h.driversOk hsafe outcomes cap

end

/-- Two drivers, the second of them retried twice. -/
def twoDrivers : TransporterRuntime Unit :=
  (transporterSetRetry (transporterRegister (transporterRegister (transporterRuntimeInit Unit)
    [97] 5 (some ())).2 [98] 7 (some ())).2 [98] 2).2

theorem twoDrivers_tries_all_iff :
    (∀ outcomes cap, TriesAll outcomes twoDrivers cap) ↔ DispatchSafe twoDrivers :=
  dispatch_tries_all_iff
    ⟨[.register [97] 5 (some ()), .register [98] 7 (some ()), .setRetry [98] 2], by decide +kernel⟩

/-- A single driver of the lowest priority there is. -/
def lowestDriver : TransporterRuntime Unit :=
  (transporterRegister (transporterRuntimeInit Unit) [97] (-2147483648) (some ())).2

/-- Its callback is never called, and the dispatch fails. -/
theorem lowestDriver_not_tried : TransporterReachable lowestDriver ∧
    (∀ outcomes cap, transporterDispatchAuto outcomes lowestDriver cap = ⟨false, [], none⟩) ∧
    ¬ ∀ outcomes cap, TriesAll outcomes lowestDriver cap := by
  have hnone : (pickBest lowestDriver).1 = none := by decide +kernel
  have hfail : ∀ outcomes cap,
      transporterDispatchAuto outcomes lowestDriver cap = ⟨false, [], none⟩ := by
    intro outcomes cap
    rw [transporterDispatchAuto, hnone]
  refine ⟨⟨[.register [97] (-2147483648) (some ())], by decide +kernel⟩, hfail, fun hall => ?_⟩
  have htried := (hall (fun _ => true) 24).tried
  rw [hfail] at htried
  have hactive : (lowestDriver.get ⟨0, by decide⟩).Active :=
    ⟨by decide +kernel, by decide +kernel⟩
  exact absurd (htried rfl ⟨0, by decide⟩ hactive) (by decide +kernel)

end Osfx
