import Osfx.ServiceLife

/-!
# Refused registrations

What a registration brings in stays in the slot it was put in, and the runtime calls
nothing else: `SlotStep` says so of each thing that is done to a slot. A registration that
is refused should bring in nothing. `osfx_service_register_ex` copies the config last,
into the slot it has filled, so one with a config that does not fit returns 0 and is in the
table all the same. `RegistrationFits` leaves these out, and `refused_registration_iff` says
that it is the exact condition.
-/

namespace Osfx

open EventSystem SlotTable

section
variable {F I : Type}

/-! ## Whose callbacks are called -/

/-- An instance and the callbacks on it, as a registration brings them in. -/
structure ServiceCallbacks (F I : Type) where
  inst : Option I
  initFn : Option F
  tickFn : Option F
  closeFn : Option F
  reloadFn : Option F
  cmdFn : Option F

def ServiceRegistration.callbacks (r : ServiceRegistration F I) : ServiceCallbacks F I :=
  ⟨r.inst, r.initFn, r.tickFn, r.closeFn, r.reloadFn, r.cmdFn⟩

def ServiceSlot.callbacks (s : ServiceSlot F I) : ServiceCallbacks F I :=
  ⟨s.inst, s.initFn, s.tickFn, s.closeFn, s.reloadFn, s.cmdFn⟩

/-- The call is of one of the callbacks, on their instance. -/
def ServiceCallbacks.Owns (b : ServiceCallbacks F I) : ServiceCall F I → Prop
  | .init fn x _ => b.initFn = some fn ∧ b.inst = x
  | .tick fn x _ => b.tickFn = some fn ∧ b.inst = x
  | .close fn x => b.closeFn = some fn ∧ b.inst = x
  | .reload fn x _ => b.reloadFn = some fn ∧ b.inst = x
  | .cmd fn x _ _ => b.cmdFn = some fn ∧ b.inst = x

/-- What is done to a slot keeps its callbacks and calls no others. -/
structure SlotStep (s : ServiceSlot F I) (log : ServiceLog F I) (s' : ServiceSlot F I)
    (log' : ServiceLog F I) : Prop where
  used : s'.used = s.used
  name : s'.name = s.name
  callbacks : s'.callbacks = s.callbacks
  calls : ∀ c ∈ log', c ∈ log ∨ s.callbacks.Owns c.1

theorem SlotStep.idle (s : ServiceSlot F I) (log : ServiceLog F I) : SlotStep s log s log :=
  ⟨rfl, rfl, rfl, fun _ hc => Or.inl hc⟩

theorem SlotStep.trans {s s' s'' : ServiceSlot F I} {log log' log'' : ServiceLog F I}
    (h : SlotStep s log s' log') (h' : SlotStep s' log' s'' log'') : SlotStep s log s'' log'' := by
  refine ⟨h'.used.trans h.used, h'.name.trans h.name, h'.callbacks.trans h.callbacks,
    fun c hc => ?_⟩
  rcases h'.calls c hc with hc | howns
  · exact h.calls c hc
  · exact Or.inr (h.callbacks ▸ howns)

theorem SlotStep.setEnabled (s : ServiceSlot F I) (enabled : Bool) (log : ServiceLog F I) :
    SlotStep s log { s with enabled := enabled } log :=
  ⟨rfl, rfl, rfl, fun _ hc => Or.inl hc⟩

theorem SlotStep.setConfig (s : ServiceSlot F I) (text : Bytes) (log : ServiceLog F I) :
    SlotStep s log { s with config := text } log :=
  ⟨rfl, rfl, rfl, fun _ hc => Or.inl hc⟩

/-- One callback of the slot is called. -/
theorem SlotStep.call {s s' : ServiceSlot F I} (log : ServiceLog F I)
    {c : ServiceCall F I × Int32} (hused : s'.used = s.used) (hname : s'.name = s.name)
    (hsame : s'.callbacks = s.callbacks) (howns : s.callbacks.Owns c.1) :
    SlotStep s log s' (log ++ [c]) := by
  refine ⟨hused, hname, hsame, fun c' hc' => ?_⟩
  rcases List.mem_append.mp hc' with hc' | hc'
  · exact Or.inl hc'
  · rw [List.mem_singleton.mp hc']
    exact Or.inr howns

/-- A body keeps the callbacks of the slots it is run on, and calls no others. -/
def OwnCalls (body : ServiceSlot F I → ServiceLog F I → Bool × ServiceSlot F I × ServiceLog F I) :
    Prop :=
  ∀ s log, SlotStep s log (body s log).2.1 (body s log).2.2

section
variable (answers : Nat → Int32)

theorem initService_step {fn : F} (config : Bytes) {s : ServiceSlot F I} (log : ServiceLog F I)
    (hfn : s.initFn = some fn) :
    SlotStep s log (initService answers fn config s log).2.1
      (initService answers fn config s log).2.2 :=
  SlotStep.call log rfl rfl rfl ⟨hfn, rfl⟩

theorem ownCalls_initSlot (defaultConfig : Option Bytes) :
    OwnCalls (initSlot (F := F) (I := I) answers defaultConfig) := by
  intro s log
  unfold initSlot
  split
  · exact SlotStep.idle s log
  · rename_i fn hfn
    split
    · exact SlotStep.idle s log
    · exact initService_step answers _ log hfn

theorem ownCalls_loadSlot (defaultConfig : Option Bytes) :
    OwnCalls (loadSlot (F := F) (I := I) answers defaultConfig) := by
  intro s log
  unfold loadSlot
  split
  · exact SlotStep.idle s log
  · rename_i fn hfn
    split
    · exact SlotStep.idle s log
    · exact initService_step answers _ log hfn

theorem ownCalls_tickSlot (nowTs : UInt64) :
    OwnCalls (tickSlot (F := F) (I := I) answers nowTs) := by
  intro s log
  unfold tickSlot
  split
  · exact SlotStep.idle s log
  · rename_i fn hfn
    split
    · exact SlotStep.idle s log
    · exact SlotStep.call log rfl rfl rfl ⟨hfn, rfl⟩

theorem ownCalls_closeSlot : OwnCalls (closeSlot (F := F) (I := I) answers) := by
  intro s log
  unfold closeSlot
  split
  · exact SlotStep.idle s log
  · split
    · exact ⟨rfl, rfl, rfl, fun _ hc => Or.inl hc⟩
    · rename_i fn hfn
      exact SlotStep.call log rfl rfl rfl ⟨hfn, rfl⟩

theorem ownCalls_commandSlot (cmd args : Option Bytes) :
    OwnCalls (commandSlot (F := F) (I := I) answers cmd args) := by
  intro s log
  unfold commandSlot
  split
  · rename_i fn cmd hfn
    split
    · exact SlotStep.idle s log
    · exact SlotStep.call log rfl rfl rfl ⟨hfn, rfl⟩
  · exact SlotStep.idle s log

theorem closeForReload_step (s : ServiceSlot F I) (log : ServiceLog F I) :
    SlotStep s log (closeForReload answers s log).1 (closeForReload answers s log).2 := by
  unfold closeForReload
  split
  · exact SlotStep.idle s log
  · rename_i fn hfn
    split
    · exact SlotStep.idle s log
    · exact SlotStep.call log rfl rfl rfl ⟨hfn, rfl⟩

theorem ownCalls_restartSlot : OwnCalls (restartSlot (F := F) (I := I) answers) := by
  intro s log
  unfold restartSlot
  split
  · rename_i fn hfn
    exact SlotStep.call log rfl rfl rfl ⟨hfn, rfl⟩
  · have hclose := closeForReload_step answers s log
    generalize closeForReload answers s log = closed at hclose ⊢
    obtain ⟨s', log'⟩ := closed
    simp only
    split
    · exact hclose
    · rename_i fn hfn
      have hinit := initService_step answers s'.config log' hfn
      exact hclose.trans ⟨hinit.used, hinit.name, hinit.callbacks, hinit.calls⟩

theorem ownCalls_reloadSlot (config : Option Bytes) :
    OwnCalls (reloadSlot (F := F) (I := I) answers config) := by
  intro s log
  unfold reloadSlot
  split
  · exact SlotStep.idle s log
  · split
    · exact SlotStep.idle s log
    · rename_i s' hs'
      have hset : SlotStep s log s' log := by
        obtain ⟨text, rfl⟩ := reloadConfig_some hs'
        exact SlotStep.setConfig s text log
      exact hset.trans (ownCalls_restartSlot answers s' log)

/-! ## All that is not a registration -/

/-- A body of a loop passes by the slots that are not used. -/
def SkipsUnused
    (body : ServiceSlot F I → ServiceLog F I → Bool × ServiceSlot F I × ServiceLog F I) : Prop :=
  ∀ s log, s.used = false → (body s log).2 = (s, log)

theorem skipsUnused_initSlot (defaultConfig : Option Bytes) :
    SkipsUnused (initSlot (F := F) (I := I) answers defaultConfig) := by
  intro s log hu
  unfold initSlot
  split
  · rfl
  · rw [hu, if_pos (by rfl)]

theorem skipsUnused_tickSlot (nowTs : UInt64) :
    SkipsUnused (tickSlot (F := F) (I := I) answers nowTs) := by
  intro s log hu
  unfold tickSlot
  split
  · rfl
  · rw [hu, if_pos (by rfl)]

theorem skipsUnused_closeSlot : SkipsUnused (closeSlot (F := F) (I := I) answers) := by
  intro s log hu
  unfold closeSlot
  rw [hu, if_pos (by rfl)]

theorem serviceSetEnabled_cases (rt : ServiceRuntime F I) (name : Bytes) (enabled : Bool) :
    serviceSetEnabled rt name enabled = (false, rt) ∨ ∃ i, findService rt name = some i ∧
      serviceSetEnabled rt name enabled =
        (true, rt.set i { rt.get i with enabled := enabled } i.isLt) := by
  unfold serviceSetEnabled
  cases findService rt name with
  | none => exact Or.inl rfl
  | some i => exact Or.inr ⟨i, rfl, rfl⟩

theorem serviceSetConfig_cases (rt : ServiceRuntime F I) (name : Bytes) (config : Option Bytes) :
    serviceSetConfig rt name config = (false, rt) ∨ ∃ i text, findService rt name = some i ∧
      serviceSetConfig rt name config =
        (true, rt.set i { rt.get i with config := text } i.isLt) := by
  unfold serviceSetConfig
  split
  · rename_i i config hf
    split
    · exact Or.inl rfl
    · exact Or.inr ⟨i, _, hf, rfl⟩
  · exact Or.inl rfl

section
variable {P : ServiceWorld F I → Prop}
  (keep : ∀ (w : ServiceWorld F I) (i : Fin serviceMax) (s : ServiceSlot F I)
    (log : ServiceLog F I), P w → (w.rt.get i).used = true →
    SlotStep (w.rt.get i) w.log s log → P ⟨w.rt.set i s i.isLt, log⟩)
include keep

theorem sweep_keeps
    {body : ServiceSlot F I → ServiceLog F I → Bool × ServiceSlot F I × ServiceLog F I}
    (hown : OwnCalls body) (hskip : SkipsUnused body) {w : ServiceWorld F I} (h : P w) :
    P (sweepServices w body).2 := by
  refine sweep_rule (P := fun _ w => P w) (fun i _ w hw => ?_) h
  cases hu : (w.rt.get i).used with
  | true => exact keep w i _ _ hw hu (hown _ _)
  | false =>
    rw [hskip _ _ hu, set_get_self]
    exact hw

theorem onService_keeps
    {body : ServiceSlot F I → ServiceLog F I → Bool × ServiceSlot F I × ServiceLog F I}
    (hown : OwnCalls body) (name : Bytes) {w : ServiceWorld F I} (h : P w) :
    P (onService w name body).2 := by
  unfold onService
  cases hf : findService w.rt name with
  | none => exact h
  | some i => exact keep w i _ _ h (lookup_some hf).1 (hown _ _)

/-- What a step of a used slot keeps is kept by every call but a registration. -/
theorem call_keeps {w : ServiceWorld F I} (h : P w) {op : ServiceOp F I}
    (hop : ∀ r, op ≠ .register r) : P (serviceCallOp answers w op).2 := by
  cases op with
  | register r => exact absurd rfl (hop r)
  | setEnabled name enabled =>
    simp only [serviceCallOp]
    rcases serviceSetEnabled_cases w.rt name enabled with heq | ⟨i, hf, heq⟩
    · rw [heq]
      exact h
    · have hset := keep w i _ _ h (lookup_some hf).1 (SlotStep.setEnabled _ enabled w.log)
      rw [heq]
      exact hset
  | setConfig name config =>
    simp only [serviceCallOp]
    rcases serviceSetConfig_cases w.rt name config with heq | ⟨i, text, hf, heq⟩
    · rw [heq]
      exact h
    · have hset := keep w i _ _ h (lookup_some hf).1 (SlotStep.setConfig _ text w.log)
      rw [heq]
      exact hset
  | initAll defaultConfig =>
    simp only [serviceCallOp, serviceInitAll]
    exact sweep_keeps keep (ownCalls_initSlot answers _) (skipsUnused_initSlot answers _) h
  | load name defaultConfig =>
    simp only [serviceCallOp, serviceLoad]
    exact onService_keeps keep (ownCalls_loadSlot answers _) name h
  | reload name config =>
    simp only [serviceCallOp, serviceReload]
    exact onService_keeps keep (ownCalls_reloadSlot answers _) name h
  | tickAll nowTs =>
    simp only [serviceCallOp, serviceTickAll]
    exact sweep_keeps keep (ownCalls_tickSlot answers _) (skipsUnused_tickSlot answers _) h
  | command name cmd args =>
    simp only [serviceCallOp, serviceCommand]
    exact onService_keeps keep (ownCalls_commandSlot answers _ _) name h
  | closeAll =>
    simp only [serviceCallOp, serviceCloseAll]
    exact sweep_keeps keep (ownCalls_closeSlot answers) (skipsUnused_closeSlot answers) h

end

end

/-! ## Registrations -/

def ConfigFits (r : ServiceRegistration F I) : Prop :=
  ∀ text ∈ r.initialConfig, text.length < serviceConfigMax

/-- The slot a registration fills, before it does: the one of its name, or a free one that
is given the name. -/
inductive Opened (rt : ServiceRuntime F I) (r : ServiceRegistration F I) (i : Fin serviceMax) :
    ServiceSlot F I → Prop where
  | known (h : findService rt r.name = some i) : Opened rt r i (rt.get i)
  | fresh (h : findService rt r.name = none) (free : allocService rt = some i)
      (short : r.name.length < serviceNameMax) :
      Opened rt r i { ServiceSlot.zero F I with used := true, name := r.name }

theorem Opened.used {rt : ServiceRuntime F I} {r : ServiceRegistration F I} {i : Fin serviceMax}
    {s : ServiceSlot F I} (h : Opened rt r i s) : s.used = true := by
  cases h with
  | known h => exact (lookup_some h).1
  | fresh h free short => rfl

/-- The registration has a slot to fill, or it is turned away before. -/
theorem serviceRegister_cases (rt : ServiceRuntime F I) (r : ServiceRegistration F I) :
    (r.initFn = none ∨ findService rt r.name = none ∧ allocService rt = none) ∧
      serviceRegisterEx rt r = (false, rt) ∨
    (findService rt r.name = none ∧ serviceNameMax ≤ r.name.length ∧
      ∃ i, allocService rt = some i ∧
        serviceRegisterEx rt r = (false, rt.set i (ServiceSlot.zero F I) i.isLt)) ∨
    (r.initFn.isSome = true ∧ ∃ i s, Opened rt r i s ∧
      serviceRegisterEx rt r = ((fillService s r).1, rt.set i (fillService s r).2 i.isLt)) := by
  cases hfn : r.initFn with
  | none => exact Or.inl ⟨Or.inl rfl, by simp only [serviceRegisterEx, hfn]; rfl⟩
  | some fn =>
    cases hf : findService rt r.name with
    | some i =>
      refine Or.inr (Or.inr ⟨rfl, i, rt.get i, .known hf, ?_⟩)
      simp only [serviceRegisterEx, hfn, hf]
      rfl
    | none =>
      cases ha : allocService rt with
      | none =>
        refine Or.inl ⟨Or.inr ⟨rfl, rfl⟩, ?_⟩
        simp only [serviceRegisterEx, hfn, hf, ha]
        rfl
      | some i =>
        by_cases hshort : r.name.length < serviceNameMax
        · refine Or.inr (Or.inr ⟨rfl, i, _, .fresh hf ha hshort, ?_⟩)
          simp only [serviceRegisterEx, hfn, hf, ha, copyText_of_lt hshort]
          rfl
        · have hlong : copyText serviceNameMax r.name = none := by
            rw [copyText, if_pos (by omega)]
          refine Or.inr (Or.inl ⟨rfl, by omega, i, rfl, ?_⟩)
          simp only [serviceRegisterEx, hfn, hf, ha, hlong]
          rfl

theorem fillService_used (s : ServiceSlot F I) (r : ServiceRegistration F I) :
    (fillService s r).2.used = s.used := by
  unfold fillService
  split
  · rfl
  · split <;> rfl

theorem fillService_callbacks (s : ServiceSlot F I) (r : ServiceRegistration F I) :
    (fillService s r).2.callbacks = r.callbacks := by
  unfold fillService
  split
  · rfl
  · split <;> rfl

theorem not_configFits {r : ServiceRegistration F I} (h : ¬ ConfigFits r) :
    ∃ text, r.initialConfig = some text ∧ copyText serviceConfigMax text = none := by
  simp only [ConfigFits, Option.mem_def, not_forall] at h
  obtain ⟨text, hsome, hlong⟩ := h
  refine ⟨text, hsome, ?_⟩
  rw [copyText, if_pos (by omega)]

theorem fillService_ret (s : ServiceSlot F I) (r : ServiceRegistration F I) :
    (fillService s r).1 = true ↔ ConfigFits r := by
  by_cases hfits : ConfigFits r
  · refine iff_of_true ?_ hfits
    unfold fillService
    split
    · rfl
    · rename_i text hsome
      rw [copyText_of_lt (hfits text hsome)]
  · obtain ⟨text, hsome, hlong⟩ := not_configFits hfits
    refine iff_of_false ?_ hfits
    simp only [fillService, hsome, hlong, Bool.false_eq_true, not_false_eq_true]

/-- A config that does not fit is found out when all else is in the slot. -/
theorem fillService_refused {s : ServiceSlot F I} {r : ServiceRegistration F I}
    (h : ¬ ConfigFits r) :
    (fillService s r).2 = s ↔ s.callbacks = r.callbacks ∧ s.enabled = true := by
  obtain ⟨text, hsome, hlong⟩ := not_configFits h
  have hfilled : (fillService s r).2 = { s with
      inst := r.inst
      initFn := r.initFn
      tickFn := r.tickFn
      closeFn := r.closeFn
      reloadFn := r.reloadFn
      cmdFn := r.cmdFn
      enabled := true } := by
    simp only [fillService, hsome, hlong]
  rw [hfilled]
  constructor
  · intro he
    refine ⟨?_, congrArg ServiceSlot.enabled he.symm⟩
    exact congrArg ServiceSlot.callbacks he.symm
  · rintro ⟨hsame, henabled⟩
    cases s
    simp only [ServiceSlot.callbacks, ServiceRegistration.callbacks,
      ServiceCallbacks.mk.injEq] at hsame henabled
    obtain ⟨rfl, rfl, rfl, rfl, rfl, rfl⟩ := hsame
    rw [henabled]

/-! ## The condition -/

/-- The registration is not refused, or it is turned away before it has a slot, or it finds
all it would bring in there. -/
def RegistrationFits (rt : ServiceRuntime F I) (r : ServiceRegistration F I) : Prop :=
  r.initFn = none ∨ ConfigFits r ∨
  (findService rt r.name = none ∧
    (allocService rt = none ∨ serviceNameMax ≤ r.name.length)) ∨
  ∃ i, findService rt r.name = some i ∧ (rt.get i).callbacks = r.callbacks ∧
    (rt.get i).enabled = true

/-- What a registration that returns 0 has done. -/
def RefusedUnchanged (rt : ServiceRuntime F I) (r : ServiceRegistration F I) : Prop :=
  (serviceRegisterEx rt r).1 = false → (serviceRegisterEx rt r).2 = rt

/-- A slot that is not used is all zero, and a used one has an `init` callback. -/
structure SlotSound (s : ServiceSlot F I) : Prop where
  empty : s.used = false → s = ServiceSlot.zero F I
  init : s.used = true → s.initFn.isSome = true

def TableSound (rt : ServiceRuntime F I) : Prop := ∀ i, SlotSound (rt.get i)

theorem slotSound_zero : SlotSound (ServiceSlot.zero F I) := by
  refine ⟨fun _ => rfl, fun h => ?_⟩
  cases h

theorem TableSound.set_zero {rt : ServiceRuntime F I} (h : TableSound rt) {i : Fin serviceMax}
    (hfree : allocService rt = some i) : rt.set i (ServiceSlot.zero F I) i.isLt = rt := by
  rw [← (h i).empty (vacant_some hfree), set_get_self]

theorem refused_unchanged_iff {rt : ServiceRuntime F I} (hs : TableSound rt)
    (r : ServiceRegistration F I) : RefusedUnchanged rt r ↔ RegistrationFits rt r := by
  unfold RefusedUnchanged RegistrationFits
  rcases serviceRegister_cases rt r with
    ⟨hno, heq⟩ | ⟨hnone, hlong, i, hfree, heq⟩ | ⟨hinit, i, s, hopen, heq⟩
  · rw [heq]
    refine iff_of_true (fun _ => rfl) ?_
    rcases hno with hnofn | ⟨hnone, hfull⟩
    · exact Or.inl hnofn
    · exact Or.inr (Or.inr (Or.inl ⟨hnone, Or.inl hfull⟩))
  · rw [heq, hs.set_zero hfree]
    exact iff_of_true (fun _ => rfl) (Or.inr (Or.inr (Or.inl ⟨hnone, Or.inr hlong⟩)))
  · rw [heq]
    by_cases hfits : ConfigFits r
    · refine iff_of_true (fun hret => ?_) (Or.inr (Or.inl hfits))
      rw [(fillService_ret s r).mpr hfits] at hret
      cases hret
    · have hret : (fillService s r).1 = false := by
        rw [Bool.eq_false_iff]
        exact mt (fillService_ret s r).mp hfits
      have hno : r.initFn ≠ none := by
        rw [← Option.isSome_iff_ne_none]
        exact hinit
      simp only [hret, forall_const, set_eq_self, hno, hfits, false_or]
      cases hopen with
      | known hf => simp [hf, fillService_refused hfits]
      | fresh hf hfree hshort =>
        refine iff_of_false (fun he => ?_) ?_
        · have hused := congrArg ServiceSlot.used he
          rw [fillService_used, vacant_some hfree] at hused
          cases hused
        · simp [hf, hfree, Nat.not_le.mpr hshort]

/-! ## Runs -/

/-- The registration of a call, if it returns 1. -/
def acceptedAt (w : ServiceWorld F I) : ServiceOp F I → List (ServiceRegistration F I)
  | .register r => if (serviceRegisterEx w.rt r).1 then [r] else []
  | _ => []

/-- The registrations of a run that returned 1. -/
def acceptedBy (answers : Nat → Int32) :
    ServiceWorld F I → List (ServiceOp F I) → List (ServiceRegistration F I)
  | _, [] => []
  | w, op :: ops => acceptedAt w op ++ acceptedBy answers (serviceCallOp answers w op).2 ops

/-- The registrations among the calls meet the condition. -/
def FittingCall (w : ServiceWorld F I) : ServiceOp F I → Prop
  | .register r => RegistrationFits w.rt r
  | _ => True

def CameWith (accepted : List (ServiceRegistration F I)) (s : ServiceSlot F I) : Prop :=
  s.used = true → ∃ r ∈ accepted, s.callbacks = r.callbacks

/-- All that is in the table, and all that was called, came in with a registration that was
accepted. -/
structure Served (accepted : List (ServiceRegistration F I)) (w : ServiceWorld F I) : Prop where
  slots : ∀ i, CameWith accepted (w.rt.get i)
  calls : ∀ c ∈ w.log, ∃ r ∈ accepted, r.callbacks.Owns c.1

section
variable (answers : Nat → Int32)

theorem tableSound_step {w : ServiceWorld F I} (h : TableSound w.rt) (op : ServiceOp F I) :
    TableSound (serviceCallOp answers w op).2.rt := by
  by_cases hop : ∀ r, op ≠ .register r
  · refine call_keeps answers (P := fun w => TableSound w.rt) ?_ h hop
    intro w i s log hw hu hstep
    refine forall_set (P := fun _ s => SlotSound s) ⟨fun he => ?_, fun _ => ?_⟩ fun j _ => hw j
    · rw [hstep.used, hu] at he
      cases he
    · have hfn : s.initFn = (w.rt.get i).initFn :=
        congrArg ServiceCallbacks.initFn hstep.callbacks
      rw [hfn]
      exact (hw i).init hu
  · simp only [ne_eq, not_forall, not_not] at hop
    obtain ⟨r, rfl⟩ := hop
    simp only [serviceCallOp]
    rcases serviceRegister_cases w.rt r with
      ⟨-, heq⟩ | ⟨-, -, i, -, heq⟩ | ⟨hinit, i, s, hopen, heq⟩
    · rw [heq]
      exact h
    · rw [heq]
      exact forall_set (P := fun _ s => SlotSound s) slotSound_zero fun j _ => h j
    · rw [heq]
      refine forall_set (P := fun _ s => SlotSound s) ⟨fun he => ?_, fun _ => ?_⟩ fun j _ => h j
      · rw [fillService_used, hopen.used] at he
        cases he
      · have hfn : (fillService s r).2.initFn = r.initFn :=
          congrArg ServiceCallbacks.initFn (fillService_callbacks s r)
        rw [hfn]
        exact hinit

theorem tableSound_init : TableSound (serviceRuntimeInit F I).rt := by
  intro i
  rw [serviceRuntimeInit, get_replicate]
  exact slotSound_zero

theorem tableSound_run {ops : List (ServiceOp F I)} {w : ServiceWorld F I}
    (h : run (serviceStep answers) (serviceRuntimeInit F I) ops = some w) : TableSound w.rt := by
  refine run_invariant _ (I := fun w => TableSound w.rt) ?_ tableSound_init h
  intro w op w' hw hstep
  cases hstep
  exact tableSound_step answers hw op

theorem Served.mono {accepted more : List (ServiceRegistration F I)} {w : ServiceWorld F I}
    (h : Served accepted w) : Served (accepted ++ more) w := by
  refine ⟨fun i hu => ?_, fun c hc => ?_⟩
  · obtain ⟨r, hr, hsame⟩ := h.slots i hu
    exact ⟨r, List.mem_append_left more hr, hsame⟩
  · obtain ⟨r, hr, howns⟩ := h.calls c hc
    exact ⟨r, List.mem_append_left more hr, howns⟩

theorem Served.step {accepted : List (ServiceRegistration F I)} {w : ServiceWorld F I}
    (h : Served accepted w) {i : Fin serviceMax} {s : ServiceSlot F I} {log : ServiceLog F I}
    (hu : (w.rt.get i).used = true) (hstep : SlotStep (w.rt.get i) w.log s log) :
    Served accepted ⟨w.rt.set i s i.isLt, log⟩ := by
  obtain ⟨r, hr, hsame⟩ := h.slots i hu
  refine ⟨?_, fun c hc => ?_⟩
  · exact forall_set (P := fun _ s => CameWith accepted s)
      (fun _ => ⟨r, hr, hstep.callbacks.trans hsame⟩) fun j _ => h.slots j
  · rcases hstep.calls c hc with hc | howns
    · exact h.calls c hc
    · exact ⟨r, hr, hsame ▸ howns⟩

/-- A registration that returns 1 is the one its slot then has. -/
theorem Served.register {accepted : List (ServiceRegistration F I)} {w : ServiceWorld F I}
    (h : Served accepted w) {r : ServiceRegistration F I}
    (hret : (serviceRegisterEx w.rt r).1 = true) :
    Served (accepted ++ [r]) ⟨(serviceRegisterEx w.rt r).2, w.log⟩ := by
  have hmore : Served (accepted ++ [r]) w := h.mono
  rcases serviceRegister_cases w.rt r with ⟨-, heq⟩ | ⟨-, -, i, -, heq⟩ | ⟨-, i, s, -, heq⟩
  · rw [heq] at hret
    cases hret
  · rw [heq] at hret
    cases hret
  · rw [heq]
    refine ⟨?_, hmore.calls⟩
    refine forall_set (P := fun _ s => CameWith (accepted ++ [r]) s) (fun _ => ?_)
      fun j _ => hmore.slots j
    exact ⟨r, List.mem_append_right _ List.mem_cons_self, fillService_callbacks s r⟩

theorem served_call {accepted : List (ServiceRegistration F I)} {w : ServiceWorld F I}
    (hs : TableSound w.rt) (h : Served accepted w) {op : ServiceOp F I} (hg : FittingCall w op) :
    Served (accepted ++ acceptedAt w op) (serviceCallOp answers w op).2 := by
  by_cases hop : ∀ r, op ≠ .register r
  · exact (call_keeps answers (fun _ _ _ _ hw hu hstep => hw.step hu hstep) h hop).mono
  · simp only [ne_eq, not_forall, not_not] at hop
    obtain ⟨r, rfl⟩ := hop
    cases hret : (serviceRegisterEx w.rt r).1 with
    | true =>
      simp only [serviceCallOp, acceptedAt, hret, if_true]
      exact h.register hret
    | false =>
      simp only [serviceCallOp, (refused_unchanged_iff hs r).mpr hg hret]
      exact h.mono

theorem served_run {accepted : List (ServiceRegistration F I)} {ops : List (ServiceOp F I)}
    {w w' : ServiceWorld F I} (hs : TableSound w.rt) (h : Served accepted w)
    (hg : Each (serviceStep answers) FittingCall w ops)
    (hrun : run (serviceStep answers) w ops = some w') :
    Served (accepted ++ acceptedBy answers w ops) w' := by
  induction ops generalizing w accepted with
  | nil =>
    cases hrun
    rw [acceptedBy, List.append_nil]
    exact h
  | cons op ops ih =>
    rw [acceptedBy, ← List.append_assoc]
    exact ih (tableSound_step answers hs op) (served_call answers hs h hg.1) (hg.2 _ rfl) hrun

/-- In every state a runtime reaches, a registration that returns 0 changes nothing exactly if
it meets the condition; and in a run whose registrations all meet it, every callback that was
called came in with one that returned 1. -/
theorem refused_registration_iff (ops : List (ServiceOp F I)) {w : ServiceWorld F I}
    (hrun : run (serviceStep answers) (serviceRuntimeInit F I) ops = some w) :
    (∀ r, RefusedUnchanged w.rt r ↔ RegistrationFits w.rt r) ∧
    (Each (serviceStep answers) FittingCall (serviceRuntimeInit F I) ops →
      ∀ c ∈ w.log, ∃ r ∈ acceptedBy answers (serviceRuntimeInit F I) ops,
        r.callbacks.Owns c.1) := by
  refine ⟨fun r => refused_unchanged_iff (tableSound_run answers hrun) r, fun hg => ?_⟩
  have hempty : Served [] (serviceRuntimeInit F I) := by
    refine ⟨fun i hu => ?_, fun _ hc => absurd hc List.not_mem_nil⟩
    rw [serviceRuntimeInit, get_replicate] at hu
    cases hu
  exact (served_run answers tableSound_init hempty hg hrun).calls

end

end

/-- A service whose config is a byte longer than there is room for. -/
def longConfig : ServiceRegistration Unit Nat :=
  { plainService 1 with initialConfig := some (List.replicate 512 120) }

/-- A service is registered and initialised. -/
def startedService : ServiceWorld Unit Nat :=
  (serviceCallOp (fun _ => 1)
    (serviceCallOp (fun _ => 1) (serviceRuntimeInit Unit Nat) (.register (plainService 1))).2
    (.initAll none)).2

theorem startedService_registrations :
    (∀ r, RefusedUnchanged startedService.rt r ↔ RegistrationFits startedService.rt r) ∧
    (Each (serviceStep fun _ => 1) FittingCall (serviceRuntimeInit Unit Nat)
        [.register (plainService 1), .initAll none] →
      ∀ c ∈ startedService.log, ∃ r ∈ acceptedBy (fun _ => 1) (serviceRuntimeInit Unit Nat)
        [.register (plainService 1), .initAll none], r.callbacks.Owns c.1) :=
  refused_registration_iff (fun _ => 1) [.register (plainService 1), .initAll none] rfl

/-- A registration returns 0, and the `init` that follows calls the service all the same. -/
theorem refused_registration_called :
    (¬ ∀ (answers : Nat → Int32) (ops : List (ServiceOp Unit Nat)) (w : ServiceWorld Unit Nat),
      run (serviceStep answers) (serviceRuntimeInit Unit Nat) ops = some w →
      ∀ r, RefusedUnchanged w.rt r) ∧
    (run (serviceStep fun _ => 1) (serviceRuntimeInit Unit Nat)
      [.register longConfig, .initAll none]).map ServiceWorld.log =
        some [(.init () (some 1) [], 1)] := by
  refine ⟨fun hall => ?_, by decide +kernel⟩
  have hsame := hall (fun _ => 1) [] _ rfl longConfig (by decide +kernel)
  exact absurd hsame (by decide +kernel)

end Osfx
