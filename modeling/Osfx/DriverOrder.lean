import Osfx.Transporter

/-!
# The order of the drivers

`osfx_transporter_dispatch_auto` looks for the driver of the highest priority, and then
goes through the others in the order of their slots. Their priorities play no part there:
`drivers_in_order_iff` says for which tables they are tried in the order of priority all
the same.
-/

namespace Osfx

open Attempts

section
variable {F : Type}

/-- The callbacks are called in the order of priority, the retries of a driver in a row,
and one of lower priority only when all that are ready and have a higher one have failed. -/
structure PriorityOrder (outcomes : Nat → Bool) (rt : TransporterRuntime F) (cap : Nat) :
    Prop where
  sorted : (transporterDispatchAuto outcomes rt cap).made.Pairwise fun i j =>
    (rt.get j).priority ≤ (rt.get i).priority
  contiguous : ∀ before i between after, (transporterDispatchAuto outcomes rt cap).made =
    before ++ i :: (between ++ i :: after) → ∀ j ∈ between, j = i
  failed : ∀ before i after,
    (transporterDispatchAuto outcomes rt cap).made = before ++ i :: after →
    ∀ j, (rt.get j).ready = true → (rt.get i).priority < (rt.get j).priority →
      j ∈ before ∧ ∀ k < before.length, outcomes k = false

/-- The first of the drivers that are ready and have the highest priority. -/
def IsBest (rt : TransporterRuntime F) (i : Fin transporterMax) : Prop :=
  (rt.get i).ready = true ∧ ∀ j, (rt.get j).ready = true →
    (rt.get j).priority ≤ (rt.get i).priority ∧
      ((rt.get j).priority = (rt.get i).priority → i ≤ j)

/-- A driver with a higher priority than another that is tried has tries itself, and stands
before it, if it is not the best. If no priority is high enough, none is tried at all. -/
def DriversInOrder (rt : TransporterRuntime F) : Prop :=
  (∀ i, (rt.get i).ready = true → (rt.get i).priority ≤ -2147483647) ∨
  ∀ i j, (rt.get i).ready = true → (rt.get i).tries ≠ 0 → (rt.get j).ready = true →
    (rt.get i).priority < (rt.get j).priority →
      (rt.get j).tries ≠ 0 ∧ (j < i ∨ IsBest rt j)

/-! ## The best driver is the first -/

theorem pickBest_first {rt : TransporterRuntime F} {best : Fin transporterMax}
    (h : (pickBest rt).1 = some best) {j : Fin transporterMax} (hj : j < best)
    (hready : (rt.get j).ready = true) : (rt.get j).priority < (rt.get best).priority := by
  have hsplit : Picked rt (List.finRange transporterMax) (pickBest rt) ∧
      ∀ b, (pickBest rt).1 = some b → ∃ before after,
        List.finRange transporterMax = before ++ b :: after ∧
        ∀ i ∈ before, (rt.get i).ready = true → (rt.get i).priority < (rt.get b).priority := by
    refine pickBest_induction (P := fun seen best => Picked rt seen best ∧
      ∀ b, best.1 = some b → ∃ before after, seen = before ++ b :: after ∧
        ∀ i ∈ before, (rt.get i).ready = true → (rt.get i).priority < (rt.get b).priority) ?_ ?_
    · exact ⟨⟨fun _ => rfl, (fun _ hi => nomatch hi), Or.inr rfl, (fun _ hi => nomatch hi)⟩,
        (fun _ hb => nomatch hb)⟩
    · rintro seen best i ⟨hpicked, hfirst⟩
      refine ⟨hpicked.step i, fun b hb => ?_⟩
      split at hb
      · rename_i hbetter
        cases hb
        refine ⟨seen, [], rfl, fun k hk hkready => ?_⟩
        exact Int32.lt_of_le_of_lt (hpicked.max k hk hkready) hbetter.2
      · obtain ⟨before, after, rfl, hbefore⟩ := hfirst b hb
        exact ⟨before, after ++ [i], by simp, hbefore⟩
  obtain ⟨before, after, hrange, hbefore⟩ := hsplit.2 best h
  refine hbefore j ?_ hready
  have hmem : j ∈ before ++ best :: after := hrange ▸ List.mem_finRange j
  have hsorted : (before ++ best :: after).Pairwise (· < ·) :=
    hrange ▸ List.pairwise_lt_finRange transporterMax
  obtain hj' | rfl | hj' := by simpa using hmem
  · exact hj'
  · exact absurd hj (lt_irrefl _)
  · have hlt := (List.pairwise_cons.mp (List.pairwise_append.mp hsorted).2.1).1 j hj'
    exact absurd hj (lt_asymm hlt)

/-- The driver the loop finds is the best one. -/
theorem isBest_pickBest {rt : TransporterRuntime F} {best : Fin transporterMax}
    (h : (pickBest rt).1 = some best) : IsBest rt best := by
  have hpicked := pickBest_picked rt
  obtain ⟨hready, hprio⟩ := hpicked.found best h
  refine ⟨hready, fun j hj => ⟨?_, fun heq => ?_⟩⟩
  · rw [hprio]
    exact hpicked.max j (List.mem_finRange j) hj
  · refine not_lt.mp fun hlt => ?_
    have hlower := pickBest_first h hlt hj
    rw [heq] at hlower
    exact Int32.lt_irrefl hlower

theorem IsBest.unique {rt : TransporterRuntime F} {i j : Fin transporterMax} (hi : IsBest rt i)
    (hj : IsBest rt j) : i = j := by
  have hle := hi.2 j hj.1
  have hge := hj.2 i hi.1
  have heq : (rt.get j).priority = (rt.get i).priority := Int32.le_antisymm hle.1 hge.1
  exact le_antisymm (hle.2 heq) (hge.2 heq.symm)

/-! ## The plan of a dispatch -/

theorem mem_planOf {rt : TransporterRuntime F} {slots : List (Fin transporterMax)}
    {i : Fin transporterMax} : i ∈ planOf rt slots ↔ i ∈ slots ∧ (rt.get i).tries ≠ 0 := by
  simp only [planOf, List.mem_flatMap, List.mem_replicate]
  constructor
  · rintro ⟨j, hj, htries, rfl⟩
    exact ⟨hj, htries⟩
  · rintro ⟨hi, htries⟩
    exact ⟨i, hi, htries, rfl⟩

theorem pairwise_planOf {R : Fin transporterMax → Fin transporterMax → Prop} (refl : ∀ i, R i i)
    (rt : TransporterRuntime F) {slots : List (Fin transporterMax)} (h : slots.Pairwise R) :
    (planOf rt slots).Pairwise R := by
  refine List.pairwise_flatMap.mpr ⟨fun i _ => ?_, h.imp fun {i j} hij x hx y hy => ?_⟩
  · exact List.pairwise_replicate.mpr (Or.inr (refl i))
  · rw [List.eq_of_mem_replicate hx, List.eq_of_mem_replicate hy]
    exact hij

/-- The best driver comes before the others, and these in the order of their slots. -/
def Earlier (best i j : Fin transporterMax) : Prop := i = best ∨ (j ≠ best ∧ i ≤ j)

theorem earlier_refl (best i : Fin transporterMax) : Earlier best i i := by
  by_cases hi : i = best
  · exact Or.inl hi
  · exact Or.inr ⟨hi, le_refl i⟩

theorem earlier_antisymm {best i j : Fin transporterMax} (hij : Earlier best i j)
    (hji : Earlier best j i) : j = i := by
  rcases hij with rfl | ⟨hj, hle⟩
  · rcases hji with hj | ⟨hne, -⟩
    · exact hj
    · exact absurd rfl hne
  · rcases hji with hbest | ⟨-, hge⟩
    · exact absurd hbest hj
    · exact le_antisymm hge hle

theorem plan_earlier {rt : TransporterRuntime F} {best : Fin transporterMax}
    (h : (pickBest rt).1 = some best) :
    (planOf rt (dispatchOrder rt)).Pairwise (Earlier best) := by
  refine pairwise_planOf (earlier_refl best) rt ?_
  rw [dispatchOrder, h]
  refine List.pairwise_cons.mpr ⟨fun _ _ => Or.inl rfl, ?_⟩
  have hslots : (otherReady rt best (List.finRange transporterMax)).Pairwise (· < ·) :=
    (List.pairwise_lt_finRange transporterMax).filter _
  refine hslots.imp_of_mem fun {i j} _ hj hlt => Or.inr ⟨?_, le_of_lt hlt⟩
  have hother := (List.mem_filter.mp hj).2
  simp only [Bool.and_eq_true, decide_eq_true_eq] at hother
  exact hother.1

theorem mem_plan {rt : TransporterRuntime F} {best : Fin transporterMax}
    (h : (pickBest rt).1 = some best) {i : Fin transporterMax} :
    i ∈ planOf rt (dispatchOrder rt) ↔ (rt.get i).ready = true ∧ (rt.get i).tries ≠ 0 := by
  rw [mem_planOf, mem_dispatchOrder h]

theorem dispatch_made_none {rt : TransporterRuntime F} (h : (pickBest rt).1 = none)
    (outcomes : Nat → Bool) (cap : Nat) :
    (transporterDispatchAuto outcomes rt cap).made = [] := by
  rw [dispatch_made, dispatchOrder, h]
  rfl

/-- While every callback fails, the whole plan is carried out. -/
theorem dispatch_made_all (rt : TransporterRuntime F) (cap : Nat) :
    (transporterDispatchAuto (fun _ => false) rt cap).made = planOf rt (dispatchOrder rt) := by
  have hfail : (attempt (fun _ => false) (planOf rt (dispatchOrder rt)) []).1 = false := by
    rw [← Bool.not_eq_true, attempt_success]
    rintro ⟨k, -, -, hk⟩
    cases hk
  rw [dispatch_made, attempt_all _ hfail, List.nil_append]

/-! ## When the order is that of the priorities -/

/-- What the condition says about a driver that is tried and one of a higher priority. -/
theorem DriversInOrder.higher {rt : TransporterRuntime F} (hord : DriversInOrder rt)
    {best : Fin transporterMax} (hbest : (pickBest rt).1 = some best) {i j : Fin transporterMax}
    (hi : i ∈ planOf rt (dispatchOrder rt)) (hj : (rt.get j).ready = true)
    (hlt : (rt.get i).priority < (rt.get j).priority) :
    (rt.get j).tries ≠ 0 ∧ (j < i ∨ j = best) := by
  have hmax := isBest_pickBest hbest
  obtain ⟨hiready, htries⟩ := (mem_plan hbest).mp hi
  rcases hord with hlow | hord
  · have hhigh := (pickBest_some hbest).2
    exact absurd (Int32.lt_of_lt_of_le hhigh (hlow best hmax.1)) Int32.lt_irrefl
  · obtain ⟨hjtries, hbefore⟩ := hord i j hiready htries hj hlt
    exact ⟨hjtries, hbefore.imp_right fun hjbest => hjbest.unique hmax⟩

/-- A driver that is tried later does not have a higher priority. -/
theorem DriversInOrder.lower {rt : TransporterRuntime F} (hord : DriversInOrder rt)
    {best : Fin transporterMax} (hbest : (pickBest rt).1 = some best) {i j : Fin transporterMax}
    (hi : i ∈ planOf rt (dispatchOrder rt)) (hj : (rt.get j).ready = true)
    (h : Earlier best i j) : (rt.get j).priority ≤ (rt.get i).priority := by
  rcases h with rfl | ⟨hne, hle⟩
  · exact ((isBest_pickBest hbest).2 j hj).1
  · refine Int32.not_lt.mp fun hlt => ?_
    rcases (hord.higher hbest hi hj hlt).2 with hbefore | hjbest
    · exact absurd hle (not_le.mpr hbefore)
    · exact hne hjbest

/-- One with a higher priority is tried earlier. -/
theorem DriversInOrder.before {rt : TransporterRuntime F} (hord : DriversInOrder rt)
    {best : Fin transporterMax} (hbest : (pickBest rt).1 = some best) {i j : Fin transporterMax}
    {before rest : List (Fin transporterMax)}
    (hplan : planOf rt (dispatchOrder rt) = before ++ i :: rest) (hj : (rt.get j).ready = true)
    (hlt : (rt.get i).priority < (rt.get j).priority) : j ∈ before := by
  have hi : i ∈ planOf rt (dispatchOrder rt) := by simp [hplan]
  have hjplan := (mem_plan hbest).mpr ⟨hj, (hord.higher hbest hi hj hlt).1⟩
  have hpair := plan_earlier hbest
  rw [hplan] at hjplan hpair
  have hlater := (List.pairwise_cons.mp (List.pairwise_append.mp hpair).2.1).1
  rcases List.mem_append.mp hjplan with hbefore | hafter
  · exact hbefore
  · rcases List.mem_cons.mp hafter with rfl | hafter
    · exact absurd hlt Int32.lt_irrefl
    · have hle := hord.lower hbest hi hj (hlater j hafter)
      exact absurd (Int32.lt_of_lt_of_le hlt hle) Int32.lt_irrefl

theorem DriversInOrder.priorityOrder {rt : TransporterRuntime F} (hord : DriversInOrder rt)
    {best : Fin transporterMax} (hbest : (pickBest rt).1 = some best) (outcomes : Nat → Bool)
    (cap : Nat) : PriorityOrder outcomes rt cap := by
  obtain ⟨rest, hplan⟩ := dispatch_prefix outcomes rt cap
  have hmade := dispatch_made outcomes rt cap
  have hpair := plan_earlier hbest
  have hmem : ∀ i ∈ (transporterDispatchAuto outcomes rt cap).made,
      i ∈ planOf rt (dispatchOrder rt) := by
    intro i hi
    rw [hplan]
    exact List.mem_append_left rest hi
  refine ⟨?_, ?_, ?_⟩
  · rw [hplan] at hpair
    refine (List.pairwise_append.mp hpair).1.imp_of_mem fun {i j} hi hj h => ?_
    exact hord.lower hbest (hmem i hi) ((mem_plan hbest).mp (hmem j hj)).1 h
  · intro before i between after heq j hj
    rw [hplan, heq, List.append_assoc] at hpair
    have htail := List.pairwise_cons.mp (List.pairwise_append.mp hpair).2.1
    have hmid := List.pairwise_append.mp (List.pairwise_append.mp htail.2).1
    have hij := htail.1 j (by simp [hj])
    exact earlier_antisymm hij (hmid.2.2 j hj i List.mem_cons_self)
  · intro before i after heq j hj hlt
    rw [heq, List.append_assoc, List.cons_append] at hplan
    refine ⟨hord.before hbest hplan hj hlt, fun k hk => ?_⟩
    apply attempt_stops outcomes (planOf rt (dispatchOrder rt)) [] (Nat.zero_le k)
    rw [← hmade, heq, List.length_append, List.length_cons]
    omega

/-- While every callback fails, drivers that are tried in the order of priority stand so. -/
theorem inOrder_of_priorityOrder {rt : TransporterRuntime F}
    (h : PriorityOrder (fun _ => false) rt 0) : DriversInOrder rt := by
  cases hbest : (pickBest rt).1 with
  | none => exact Or.inl (pickBest_none hbest)
  | some best =>
    refine Or.inr fun i j hi htries hj hlt => ?_
    have hmem : i ∈ planOf rt (dispatchOrder rt) := (mem_plan hbest).mpr ⟨hi, htries⟩
    obtain ⟨before, after, hplan⟩ := List.append_of_mem hmem
    have hbefore : j ∈ before :=
      (h.failed before i after ((dispatch_made_all rt 0).trans hplan) j hj hlt).1
    have hjmem : j ∈ planOf rt (dispatchOrder rt) := by
      rw [hplan]
      exact List.mem_append_left _ hbefore
    refine ⟨((mem_plan hbest).mp hjmem).2, ?_⟩
    have hpair := plan_earlier hbest
    rw [hplan] at hpair
    rcases (List.pairwise_append.mp hpair).2.2 j hbefore i List.mem_cons_self with
      hjbest | ⟨-, hle⟩
    · rw [hjbest]
      exact Or.inr (isBest_pickBest hbest)
    · refine Or.inl (lt_of_le_of_ne hle fun heq => ?_)
      rw [heq] at hlt
      exact Int32.lt_irrefl hlt

/-- Drivers are tried in the order of priority, whatever the callbacks return, exactly if
the registration order of those behind the best one is that order. -/
theorem drivers_in_order_iff (rt : TransporterRuntime F) :
    (∀ outcomes cap, PriorityOrder outcomes rt cap) ↔ DriversInOrder rt := by
  constructor
  · intro h
    exact inOrder_of_priorityOrder (h _ 0)
  · intro hord outcomes cap
    cases hbest : (pickBest rt).1 with
    | none =>
      have hmade := dispatch_made_none hbest outcomes cap
      refine ⟨?_, ?_, ?_⟩
      · rw [hmade]
        exact List.Pairwise.nil
      · intro before i between after heq
        simp [hmade] at heq
      · intro before i after heq
        simp [hmade] at heq
    | some best => exact hord.priorityOrder hbest outcomes cap

end

/-- The drivers `a`, `b` and `c`, registered in this order. -/
def threeDrivers : TransporterRuntime Unit :=
  (transporterRegister (transporterRegister (transporterRegister (transporterRuntimeInit Unit)
    [97] 5 (some ())).2 [98] 1 (some ())).2 [99] 3 (some ())).2

/-- After `a` has failed, `b` is tried before `c`, though `c` has the higher priority. -/
theorem threeDrivers_out_of_order : TransporterReachable threeDrivers ∧
    (transporterDispatchAuto (fun _ => false) threeDrivers 24).made.map
      (fun i => (threeDrivers.get i).priority) = [5, 1, 3] ∧
    ¬ ∀ outcomes cap, PriorityOrder outcomes threeDrivers cap := by
  have hmade : (transporterDispatchAuto (fun _ => false) threeDrivers 24).made.map
      (fun i => (threeDrivers.get i).priority) = [5, 1, 3] := by
    decide +kernel
  refine ⟨⟨[.register [97] 5 (some ()), .register [98] 1 (some ()), .register [99] 3 (some ())],
    by decide +kernel⟩, hmade, fun h => ?_⟩
  have hsorted := (h (fun _ => false) 24).sorted
  have hmap := List.pairwise_map (R := fun (p q : Int32) => q ≤ p) |>.mpr hsorted
  rw [hmade] at hmap
  revert hmap
  decide

end Osfx
