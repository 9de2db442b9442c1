import Osfx.Transporter

/-!
# Drivers over whole runs

Every call on one runtime, the refused ones included, from the empty table on. The world
keeps the registrations that were asked for, so that the callbacks of a dispatch can be
held against them: `registered_drivers_carry`.
-/

namespace Osfx

open Attempts EventSystem SlotTable

section
variable {F : Type}

/-- A call of `osfx_transporter_register`, and what it returned. -/
structure Registration (F : Type) where
  name : Bytes
  sendFn : Option F
  ret : Bool
  deriving DecidableEq

/-- The runtime, and the registrations so far under any name, the latest first. -/
structure DriverWorld (F : Type) where
  rt : TransporterRuntime F
  registrations : List (Registration F)

/-- The calls on a runtime: a NULL name or payload is `none`, and `outcomes` is what the
callbacks of a dispatch return. -/
inductive DriverCall (F : Type) where
  | register (name : Option Bytes) (priority : Int32) (sendFn : Option F)
  | setEnabled (name : Option Bytes) (enabled : Bool)
  | setRetry (name : Option Bytes) (maxRetries : Int32)
  | dispatchNamed (name payload : Option Bytes) (outcomes : Nat → Bool)
  | dispatchAuto (payload : Option Bytes) (outcomes : Nat → Bool) (outUsedNameCap : Nat)

def driverInit (F : Type) : DriverWorld F := ⟨transporterRuntimeInit F, []⟩

def driverStep (w : DriverWorld F) : DriverCall F → Option (DriverWorld F)
  | .register none _ _ => some w
  | .register (some name) priority sendFn =>
    let result := transporterRegister w.rt name priority sendFn
    some ⟨result.2, ⟨name, sendFn, result.1⟩ :: w.registrations⟩
  | .setEnabled none _ => some w
  | .setEnabled (some name) enabled =>
    some { w with rt := (transporterSetEnabled w.rt name enabled).2 }
  | .setRetry none _ => some w
  | .setRetry (some name) maxRetries =>
    some { w with rt := (transporterSetRetry w.rt name maxRetries).2 }
  | .dispatchNamed _ _ _ => some w
  | .dispatchAuto _ _ _ => some w

/-- The drivers whose callbacks a call calls. -/
def DriverCall.made (rt : TransporterRuntime F) : DriverCall F → List (Fin transporterMax)
  | .dispatchNamed (some name) (some _) outcomes => (transporterDispatchNamed outcomes rt name).2
  | .dispatchAuto (some _) outcomes cap => (transporterDispatchAuto outcomes rt cap).made
  | _ => []

/-- The latest registration under a name. -/
def DriverWorld.latest (w : DriverWorld F) (name : Bytes) : Option (Registration F) :=
  w.registrations.find? fun r => decide (r.name = name)

/-- Slot `i` was filled by the latest registration under its name, which returned 1. -/
def Registered (w : DriverWorld F) (i : Fin transporterMax) : Prop :=
  ∃ r, w.latest (w.rt.get i).name = some r ∧ r.ret = true ∧ r.sendFn = (w.rt.get i).sendFn

/-- Whether a registration returns 0. -/
def DriverCall.Refused (rt : TransporterRuntime F) : DriverCall F → Prop
  | .register (some name) priority sendFn =>
    (transporterRegister rt name priority sendFn).1 = false
  | .register none _ _ => True
  | _ => False

/-- The callbacks called are those of registered drivers, and a registration that returns 0
leaves the table as it was. -/
def CarriedByRegistered (w : DriverWorld F) (call : DriverCall F) : Prop :=
  (∀ i ∈ call.made w.rt, Registered w i) ∧
  (call.Refused w.rt → ∀ w', driverStep w call = some w' → w'.rt = w.rt)

/-! ## The condition -/

/-- A registration that would take a free slot has a name that fits. No driver that is
ready was last registered without a callback when a dispatch is called. -/
def RegistrationsFit (w : DriverWorld F) : DriverCall F → Prop
  | .register (some name) _ (some _) =>
    name.length < transporterNameMax ∨ findDriver w.rt name ≠ none ∨
      vacant TransporterDriver.used w.rt = none
  | .dispatchNamed (some name) (some _) _ =>
    ∀ i, (w.rt.get i).ready = true → (w.rt.get i).name = name →
      ∀ r ∈ w.latest name, r.sendFn.isSome = true
  | .dispatchAuto (some _) _ _ =>
    ∀ i, (w.rt.get i).ready = true → ∀ r ∈ w.latest (w.rt.get i).name, r.sendFn.isSome = true
  | _ => True

instance decidableRegistrationsFit (w : DriverWorld F) :
    ∀ call, Decidable (RegistrationsFit w call)
  | .register (some name) _ (some _) =>
    inferInstanceAs (Decidable (name.length < transporterNameMax ∨ findDriver w.rt name ≠ none ∨
      vacant TransporterDriver.used w.rt = none))
  | .dispatchNamed (some name) (some _) _ =>
    inferInstanceAs (Decidable (∀ i, (w.rt.get i).ready = true → (w.rt.get i).name = name →
      ∀ r ∈ w.latest name, r.sendFn.isSome = true))
  | .dispatchAuto (some _) _ _ =>
    inferInstanceAs (Decidable (∀ i, (w.rt.get i).ready = true →
      ∀ r ∈ w.latest (w.rt.get i).name, r.sendFn.isSome = true))
  | .register none _ _ => inferInstanceAs (Decidable True)
  | .register (some _) _ none => inferInstanceAs (Decidable True)
  | .setEnabled _ _ => inferInstanceAs (Decidable True)
  | .setRetry _ _ => inferInstanceAs (Decidable True)
  | .dispatchNamed none _ _ => inferInstanceAs (Decidable True)
  | .dispatchNamed (some _) none _ => inferInstanceAs (Decidable True)
  | .dispatchAuto none _ _ => inferInstanceAs (Decidable True)

/-! ## What a registration does -/

/-- The ways through a registration with a callback. -/
inductive RegisterCase (rt : TransporterRuntime F) (name : Bytes) (fn : F)
    (result : Bool × TransporterRuntime F) : Prop where
  | registered (i : Fin transporterMax) (d : TransporterDriver F)
      (slot : SlotOf TransporterDriver.used TransporterDriver.name rt name i)
      (fresh : d.name = name ∧ d.used = true ∧ d.sendFn = some fn)
      (h : result = (true, rt.set i d i.isLt))
  | full (unknown : findDriver rt name = none) (h : result = (false, rt))
  | tooLong (i : Fin transporterMax) (d : TransporterDriver F) (unknown : findDriver rt name = none)
      (room : vacant TransporterDriver.used rt = some i) (long : transporterNameMax ≤ name.length)
      (used : d.used = true) (h : result = (false, rt.set i d i.isLt))

theorem register_cases (rt : TransporterRuntime F) (name : Bytes) (priority : Int32) (fn : F) :
    RegisterCase rt name fn (transporterRegister rt name priority (some fn)) := by
  simp only [transporterRegister]
  cases hf : findDriver rt name with
  | some i =>
    obtain ⟨hused, hname⟩ := lookup_some hf
    exact .registered i { rt.get i with
      priority := priority
      sendFn := some fn
      enabled := true
      maxRetries := if (rt.get i).maxRetries < 0 then 0 else (rt.get i).maxRetries }
      (Or.inl hf) ⟨hname, hused, rfl⟩ rfl
  | none =>
    cases hv : vacant TransporterDriver.used rt with
    | none => exact .full hf rfl
    | some i =>
      cases hc : copyName transporterNameMax name with
      | none =>
        refine .tooLong i (freshDriver (rt.get i) priority fn) hf hv ?_ rfl rfl
        refine Nat.not_lt.mp fun hlt => ?_
        rw [copyName, copyText, if_neg (Nat.not_lt.mpr hlt)] at hc
        cases hc
      | some text =>
        obtain ⟨rfl, -⟩ := copyText_some hc
        exact .registered i { freshDriver (rt.get i) priority fn with name := text }
          (Or.inr ⟨hf, vacant_some hv⟩) ⟨rfl, rfl, rfl⟩ rfl

/-! ## The invariant -/

/-- The latest registration under a name that had a callback. -/
def DriverWorld.latestWithFn (w : DriverWorld F) (name : Bytes) : Option (Registration F) :=
  w.registrations.find? fun r => decide (r.name = name) && r.sendFn.isSome

/-- A registration without a callback is refused, but not seen in the table. -/
def FilledByLatest (w : DriverWorld F) (d : TransporterDriver F) : Prop :=
  d.used = true → ∃ r, w.latestWithFn d.name = some r ∧ r.ret = true ∧ r.sendFn = d.sendFn

structure DriversRegistered (w : DriverWorld F) : Prop where
  distinct : Distinct TransporterDriver.used TransporterDriver.name w.rt
  filled : ∀ i, FilledByLatest w (w.rt.get i)

theorem driversRegistered_init : DriversRegistered (driverInit F) where
  distinct := distinct_replicate rfl
  filled := by
    intro i hu
    simp only [driverInit, transporterRuntimeInit, get_replicate] at hu
    cases hu

theorem latestWithFn_cons_other (w : DriverWorld F) (rt : TransporterRuntime F)
    {r : Registration F} {name : Bytes} (h : r.name ≠ name ∨ r.sendFn = none) :
    DriverWorld.latestWithFn ⟨rt, r :: w.registrations⟩ name = w.latestWithFn name := by
  refine List.find?_cons_of_neg ?_
  rcases h with hname | hfn
  · simp [hname]
  · simp [hfn]

theorem latestWithFn_cons_self (rt : TransporterRuntime F) (log : List (Registration F))
    {r : Registration F} (h : r.sendFn.isSome = true) :
    DriverWorld.latestWithFn ⟨rt, r :: log⟩ r.name = some r := by
  refine List.find?_cons_of_pos ?_
  simp [h]

/-- Without a registration that lacked a callback, the two are the same. -/
theorem latest_of_withFn {w : DriverWorld F} {name : Bytes} {r : Registration F}
    (h : w.latestWithFn name = some r) (hfn : ∀ r ∈ w.latest name, r.sendFn.isSome = true) :
    w.latest name = some r := by
  obtain ⟨rt, log⟩ := w
  cases hl : DriverWorld.latest ⟨rt, log⟩ name with
  | none =>
    have hnone := List.find?_eq_none.mp hl
    have hr := List.find?_some h
    simp only [Bool.and_eq_true] at hr
    exact absurd hr.1 (hnone r (List.mem_of_find?_eq_some h))
  | some r' =>
    have hsome := hfn r' hl
    obtain ⟨hname, before, after, hlog, hbefore⟩ := List.find?_eq_some_iff_append.mp hl
    have hr' : DriverWorld.latestWithFn ⟨rt, log⟩ name = some r' := by
      refine List.find?_eq_some_iff_append.mpr ⟨?_, before, after, hlog, fun e he => ?_⟩
      · rw [hname, hsome]
        rfl
      · have hne := hbefore e he
        simp only [Bool.not_eq_true'] at hne ⊢
        rw [hne, Bool.false_and]
    exact hr'.symm.trans h

/-- A call that changes no name, callback or use of a driver keeps the invariant. -/
theorem DriversRegistered.set {w : DriverWorld F} (h : DriversRegistered w)
    {i : Fin transporterMax} (d : TransporterDriver F) (hused : (w.rt.get i).used = true)
    (hname : d.name = (w.rt.get i).name) (hfn : d.sendFn = (w.rt.get i).sendFn) :
    DriversRegistered { w with rt := w.rt.set i d i.isLt } where
  distinct := distinct_set_same h.distinct hused hname
  filled := by
    refine forall_set (P := fun _ d => FilledByLatest _ d) (fun _ => ?_) fun j _ => h.filled j
    obtain ⟨r, hr, hret, hsend⟩ := h.filled i hused
    refine ⟨r, ?_, hret, hsend.trans hfn.symm⟩
    rw [hname]
    exact hr

theorem DriversRegistered.register {w : DriverWorld F} (h : DriversRegistered w) {name : Bytes}
    {priority : Int32} {sendFn : Option F}
    (hg : RegistrationsFit w (.register (some name) priority sendFn)) :
    DriversRegistered ⟨(transporterRegister w.rt name priority sendFn).2,
      ⟨name, sendFn, (transporterRegister w.rt name priority sendFn).1⟩ :: w.registrations⟩ := by
  cases sendFn with
  | none =>
    refine ⟨h.distinct, fun i hused => ?_⟩
    rw [latestWithFn_cons_other w _ (Or.inr rfl)]
    exact h.filled i hused
  | some fn =>
    rcases register_cases w.rt name priority fn with
      ⟨i, d, slot, ⟨rfl, hused, hfn⟩, heq⟩ | ⟨unknown, heq⟩ |
      ⟨i, d, unknown, room, long, -, heq⟩
    · rw [heq]
      refine ⟨distinct_set_slot h.distinct slot, ?_⟩
      refine forall_set (P := fun _ d => FilledByLatest _ d) (fun _ => ?_) fun j hj hu => ?_
      · exact ⟨_, latestWithFn_cons_self _ _ rfl, rfl, hfn.symm⟩
      · have hother := slot.other h.distinct hj hu
        rw [latestWithFn_cons_other w _ (Or.inl fun he => hother he.symm)]
        exact h.filled j hu
    · rw [heq]
      refine ⟨h.distinct, fun j hu => ?_⟩
      have hother := lookup_none.mp unknown j hu
      rw [latestWithFn_cons_other w _ (Or.inl fun he => hother he.symm)]
      exact h.filled j hu
    · rcases hg with hshort | hknown | hfull
      · omega
      · exact absurd unknown hknown
      · rw [room] at hfull
        cases hfull

theorem driversRegistered_step {w w' : DriverWorld F} {call : DriverCall F}
    (h : DriversRegistered w) (hg : RegistrationsFit w call) (hs : driverStep w call = some w') :
    DriversRegistered w' := by
  cases call with
  | register name priority sendFn =>
    cases name with
    | none => cases hs; exact h
    | some name => cases hs; exact h.register hg
  | setEnabled name enabled =>
    cases name with
    | none => cases hs; exact h
    | some name =>
      cases hs
      simp only [transporterSetEnabled]
      cases hf : findDriver w.rt name with
      | none => exact h
      | some i => exact h.set _ (lookup_some hf).1 rfl rfl
  | setRetry name maxRetries =>
    cases name with
    | none => cases hs; exact h
    | some name =>
      cases hs
      simp only [transporterSetRetry]
      cases hf : findDriver w.rt name with
      | none => exact h
      | some i => exact h.set _ (lookup_some hf).1 rfl rfl
  | dispatchNamed name payload outcomes => cases hs; exact h
  | dispatchAuto payload outcomes cap => cases hs; exact h

/-! ## What the calls of a run do -/

theorem dispatchAuto_ready {outcomes : Nat → Bool} {rt : TransporterRuntime F} {cap : Nat}
    {i : Fin transporterMax} (h : i ∈ (transporterDispatchAuto outcomes rt cap).made) :
    (rt.get i).ready = true := by
  obtain ⟨rest, hplan⟩ := dispatch_prefix outcomes rt cap
  have hmem : i ∈ planOf rt (dispatchOrder rt) := hplan ▸ List.mem_append_left rest h
  obtain ⟨j, hj, hij⟩ := List.mem_flatMap.mp hmem
  rw [List.eq_of_mem_replicate hij]
  cases hbest : (pickBest rt).1 with
  | none => rw [dispatchOrder, hbest] at hj; cases hj
  | some best => exact (mem_dispatchOrder hbest j).mp hj

theorem DriversRegistered.ready {w : DriverWorld F} (h : DriversRegistered w)
    {i : Fin transporterMax} (hused : (w.rt.get i).used = true)
    (henabled : (w.rt.get i).enabled = true) : (w.rt.get i).ready = true := by
  obtain ⟨r, hr, -, hsend⟩ := h.filled i hused
  have hfn := List.find?_some hr
  simp only [Bool.and_eq_true] at hfn
  rw [TransporterDriver.ready, hused, henabled, ← hsend, hfn.2]
  rfl

theorem DriversRegistered.registered {w : DriverWorld F} (h : DriversRegistered w)
    {i : Fin transporterMax} (hused : (w.rt.get i).used = true)
    (hfn : ∀ r ∈ w.latest (w.rt.get i).name, r.sendFn.isSome = true) : Registered w i := by
  obtain ⟨r, hr, hret, hsend⟩ := h.filled i hused
  exact ⟨r, latest_of_withFn hr hfn, hret, hsend⟩

theorem DriversRegistered.carried {w : DriverWorld F} (h : DriversRegistered w)
    {call : DriverCall F} (hg : RegistrationsFit w call) :
    ∀ i ∈ call.made w.rt, Registered w i := by
  intro i hi
  cases call with
  | register name priority sendFn => cases hi
  | setEnabled name enabled => cases hi
  | setRetry name maxRetries => cases hi
  | dispatchNamed name payload outcomes =>
    cases name with
    | none => cases hi
    | some name =>
      cases payload with
      | none => cases hi
      | some payload =>
        simp only [DriverCall.made, transporterDispatchNamed] at hi
        cases hf : findSlot w.rt fun d => d.used && d.enabled && decide (d.name = name) with
        | none => rw [hf] at hi; cases hi
        | some j =>
          rw [hf] at hi
          obtain ⟨k, hmade⟩ := trySend_made outcomes w.rt j []
          simp only [hmade, List.nil_append] at hi
          obtain rfl := List.eq_of_mem_replicate hi
          have hfound := (findSlot_eq_some.mp hf).1
          simp only [Bool.and_eq_true, decide_eq_true_eq] at hfound
          obtain ⟨⟨hused, henabled⟩, hname⟩ := hfound
          refine h.registered hused ?_
          rw [hname]
          exact hg i (h.ready hused henabled) hname
  | dispatchAuto payload outcomes cap =>
    cases payload with
    | none => cases hi
    | some payload =>
      have hready := dispatchAuto_ready hi
      have hused := hready
      simp only [TransporterDriver.ready, Bool.and_eq_true] at hused
      exact h.registered hused.1.1 (hg i hready)

/-- A registration that is refused without taking a slot leaves the table as it was. -/
theorem refused_unchanged {w w' : DriverWorld F} {call : DriverCall F}
    (hg : RegistrationsFit w call) (href : call.Refused w.rt)
    (hs : driverStep w call = some w') : w'.rt = w.rt := by
  cases call with
  | register name priority sendFn =>
    cases name with
    | none => cases hs; rfl
    | some name =>
      cases hs
      cases sendFn with
      | none => rfl
      | some fn =>
        rcases register_cases w.rt name priority fn with
          ⟨i, d, slot, fresh, heq⟩ | ⟨unknown, heq⟩ | ⟨i, d, unknown, room, long, -, heq⟩
        · simp [DriverCall.Refused, heq] at href
        · exact congrArg Prod.snd heq
        · rcases hg with hshort | hknown | hfull
          · omega
          · exact absurd unknown hknown
          · rw [room] at hfull
            cases hfull
  | setEnabled name enabled => cases href
  | setRetry name maxRetries => cases href
  | dispatchNamed name payload outcomes => cases href
  | dispatchAuto payload outcomes cap => cases href

/-- In a run whose registrations fit, the used drivers have distinct names, only registered
ones carry traffic, and a registration that returns 0 changes nothing. -/
theorem registered_drivers_carry {calls : List (DriverCall F)}
    (h : Each driverStep RegistrationsFit (driverInit F) calls) :
    Always driverStep (fun w => Distinct TransporterDriver.used TransporterDriver.name w.rt)
      (driverInit F) calls ∧
    Each driverStep CarriedByRegistered (driverInit F) calls := by
  have hkeep : ∀ (w : DriverWorld F) call w', DriversRegistered w → RegistrationsFit w call →
      driverStep w call = some w' → DriversRegistered w' :=
    fun _ _ _ => driversRegistered_step
  constructor
  · exact always_mono driverStep (fun _ hw => hw.distinct)
      (always_of_each driverStep hkeep driversRegistered_init h)
  · refine each_of_each driverStep hkeep (fun w call hw hg => ?_) driversRegistered_init h
    exact ⟨hw.carried hg, fun href _ hs => refused_unchanged hg href hs⟩

end

/-- Two drivers; the second registration without a callback is mended before the dispatch. -/
def mendedCalls : List (DriverCall Unit) :=
  [.register (some [97]) 5 (some ()), .register (some [98]) 7 (some ()),
    .register (some [97]) 5 none, .register (some [97]) 6 (some ()),
    .dispatchAuto (some [1]) (fun _ => false) 24]

theorem mendedCalls_carried :
    Always driverStep (fun w => Distinct TransporterDriver.used TransporterDriver.name w.rt)
      (driverInit Unit) mendedCalls ∧
    Each driverStep CarriedByRegistered (driverInit Unit) mendedCalls :=
  registered_drivers_carry (by decide +kernel)

/-- A name of 24 bytes, one more than fit. -/
def longDriverName : Bytes := List.replicate 24 97

/-- The table its registration leaves. -/
def longNameTable : TransporterRuntime Unit :=
  (transporterRegister (transporterRuntimeInit Unit) longDriverName 5 (some ())).2

/-- The registration returns 0 and fills slot 0, whose callback the next dispatch calls, though
nothing was registered under the name in that slot. -/
theorem longName_carries :
    (transporterRegister (transporterRuntimeInit Unit) longDriverName 5 (some ())).1 = false ∧
    (transporterDispatchAuto (fun _ => true) longNameTable 24).made = [⟨0, by decide⟩] ∧
    (longNameTable.get ⟨0, by decide⟩).name = [] ∧
    ¬ Each driverStep CarriedByRegistered (driverInit Unit)
      [.register (some longDriverName) 5 (some ())] ∧
    ¬ CarriedByRegistered ⟨longNameTable, [⟨longDriverName, some (), false⟩]⟩
      (.dispatchAuto (some [1]) (fun _ => true) 24) := by
  have hret :
      (transporterRegister (transporterRuntimeInit Unit) longDriverName 5 (some ())).1 = false := by
    decide +kernel
  have hmade :
      (transporterDispatchAuto (fun _ => true) longNameTable 24).made = [⟨0, by decide⟩] := by
    decide +kernel
  have hused : (longNameTable.get ⟨0, by decide⟩).used = true := by decide +kernel
  refine ⟨hret, hmade, by decide +kernel, fun h => ?_, fun h => ?_⟩
  · have hsame : longNameTable = transporterRuntimeInit Unit := h.1.2 hret _ rfl
    rw [hsame] at hused
    exact absurd hused (by decide +kernel)
  · obtain ⟨r, hr, -⟩ := h.1 ⟨0, by decide⟩ (by
      rw [DriverCall.made, hmade]
      exact List.mem_singleton_self _)
    revert hr
    have hnone : DriverWorld.latest ⟨longNameTable, [⟨longDriverName, some (), false⟩]⟩
        (longNameTable.get ⟨0, by decide⟩).name = none := by
      decide +kernel
    rw [hnone]
    exact fun he => nomatch he

end Osfx
