import Osfx.ServiceRegistry

/-!
# Reloading a service

`osfx_service_reload` has two ways to reload a service, its reload callback or a close and
an `init`, and keeps the running flag in each in its own way. A reload that is refused, for a
service that is disabled or with a config that does not fit, leaves all as it was. Another
returns 1 exactly if the service then runs, whether it ran before or not (`reload_truthful`).
What a reload callback makes of a service that does not run is not looked at here: the flag
stays as it is, where an `init` would set it.
-/

namespace Osfx

open EventSystem SlotTable

section
variable {F I : Type}

/-- The service of a name runs, as `osfx_service_get_status` has it. -/
def ServiceRuns (rt : ServiceRuntime F I) (name : Bytes) : Prop :=
  ∃ i, findService rt name = some i ∧ (rt.get i).running = true

/-- There is no such service, it is disabled, or the config does not fit. -/
def ReloadRefused (rt : ServiceRuntime F I) (name : Bytes) (config : Option Bytes) : Prop :=
  ∀ i, findService rt name = some i →
    (rt.get i).enabled = false ∨ reloadConfig (rt.get i) config = none

/-- The service has a reload callback, does not run, and the callback succeeds. -/
def ReloadedStopped (answers : Nat → Int32) (w : ServiceWorld F I) (name : Bytes) : Prop :=
  ∃ i, findService w.rt name = some i ∧ (w.rt.get i).reloadFn.isSome = true ∧
    (w.rt.get i).running = false ∧ answers w.log.length ≠ 0

instance (rt : ServiceRuntime F I) (name : Bytes) : Decidable (ServiceRuns rt name) :=
  inferInstanceAs (Decidable (∃ i, findService rt name = some i ∧ (rt.get i).running = true))

instance (rt : ServiceRuntime F I) (name : Bytes) (config : Option Bytes) :
    Decidable (ReloadRefused rt name config) :=
  decidable_of_iff (∀ i, findService rt name = some i →
    (rt.get i).enabled = false ∨ (reloadConfig (rt.get i) config).isNone = true)
    (by simp only [ReloadRefused, Option.isNone_iff_eq_none])

instance (answers : Nat → Int32) (w : ServiceWorld F I) (name : Bytes) :
    Decidable (ReloadedStopped answers w name) :=
  inferInstanceAs (Decidable (∃ i, findService w.rt name = some i ∧
    (w.rt.get i).reloadFn.isSome = true ∧ (w.rt.get i).running = false ∧
    answers w.log.length ≠ 0))

variable (answers : Nat → Int32)

theorem closeForReload_initFn (s : ServiceSlot F I) (log : ServiceLog F I) :
    (closeForReload answers s log).1.initFn = s.initFn :=
  congrArg ServiceCallbacks.initFn (closeForReload_step answers s log).callbacks

/-- Behind the copy of the config, the return value is what the running flag then is. -/
theorem restartSlot_running {s : ServiceSlot F I} (log : ServiceLog F I)
    (hinit : s.initFn.isSome = true)
    (h : s.reloadFn.isSome = true → s.running = true ∨ answers log.length = 0) :
    (restartSlot answers s log).1 = (restartSlot answers s log).2.1.running := by
  unfold restartSlot
  cases hfn : s.reloadFn with
  | some fn =>
    simp only [callBack]
    rcases h (by rw [hfn]; rfl) with hrun | hfail
    · rw [hrun, Bool.true_and]
    · rw [hfail]
      exact (Bool.and_false s.running).symm
  | none =>
    obtain ⟨fn, hfn⟩ := Option.isSome_iff_exists.mp hinit
    have hclosed := closeForReload_initFn answers s log
    simp only [hclosed.trans hfn]
    rfl

theorem reload_refused {w : ServiceWorld F I} {name : Bytes} {config : Option Bytes}
    (h : ReloadRefused w.rt name config) : serviceReload answers w name config = (false, w) := by
  unfold serviceReload onService
  cases hf : findService w.rt name with
  | none => rfl
  | some i =>
    have hslot : reloadSlot answers config (w.rt.get i) w.log = (false, w.rt.get i, w.log) := by
      unfold reloadSlot
      rcases h i hf with hdisabled | hconfig
      · rw [hdisabled]
        rfl
      · rw [hconfig]
        simp only [ite_self]
    simp only [hslot, set_get_self]

/-- What a reload that is not refused does to its service. -/
theorem reload_taken {w : ServiceWorld F I} {name : Bytes} {config : Option Bytes}
    (h : ¬ ReloadRefused w.rt name config) :
    ∃ i s, findService w.rt name = some i ∧ SlotStep (w.rt.get i) w.log s w.log ∧
      s.running = (w.rt.get i).running ∧
      serviceReload answers w name config = ((restartSlot answers s w.log).1,
        ⟨w.rt.set i (restartSlot answers s w.log).2.1 i.isLt,
          (restartSlot answers s w.log).2.2⟩) := by
  simp only [ReloadRefused, not_forall, not_or, Bool.not_eq_false] at h
  obtain ⟨i, hf, henabled, hconfig⟩ := h
  obtain ⟨s, hs⟩ := Option.ne_none_iff_exists'.mp hconfig
  refine ⟨i, s, hf, ?_⟩
  have hslot : reloadSlot answers config (w.rt.get i) w.log = restartSlot answers s w.log := by
    simp only [reloadSlot, henabled, hs]
    rfl
  obtain ⟨text, rfl⟩ := reloadConfig_some hs
  refine ⟨SlotStep.setConfig _ text w.log, rfl, ?_⟩
  simp only [serviceReload, onService, hf, hslot]

/-- After a slot has been written back under its name, its running flag is that of the service. -/
theorem serviceRuns_set {rt : ServiceRuntime F I} {name : Bytes} {i : Fin serviceMax}
    {s : ServiceSlot F I} (hf : findService rt name = some i) (hused : s.used = true)
    (hname : s.name = name) : ServiceRuns (rt.set i s i.isLt) name ↔ s.running = true := by
  have hfound : findService (rt.set i s i.isLt) name = some i := by
    subst hname
    exact lookup_set_self (Or.inl hf) hused
  constructor
  · rintro ⟨j, hj, hrun⟩
    cases hfound.symm.trans hj
    rwa [get_set_self] at hrun
  · intro hrun
    refine ⟨i, hfound, ?_⟩
    rw [get_set_self]
    exact hrun

/-- In every state a runtime reaches, a reload that is refused changes nothing, and any other
returns 1 exactly if the service runs afterwards, unless it leaves a service stopped through
its reload callback. -/
theorem reload_truthful (ops : List (ServiceOp F I)) {w : ServiceWorld F I}
    (hrun : run (serviceStep answers) (serviceRuntimeInit F I) ops = some w) (name : Bytes)
    (config : Option Bytes) :
    (ReloadRefused w.rt name config → serviceReload answers w name config = (false, w)) ∧
    (¬ ReloadRefused w.rt name config → ¬ ReloadedStopped answers w name →
      ((serviceReload answers w name config).1 = true ↔
        ServiceRuns (serviceReload answers w name config).2.rt name)) := by
  refine ⟨reload_refused answers, fun hrefused hstopped => ?_⟩
  obtain ⟨i, s, hf, hs, hrunning, heq⟩ := reload_taken answers hrefused
  have hstep := hs.trans (ownCalls_restartSlot answers s w.log)
  have hinit : s.initFn.isSome = true := by
    have hfn : s.initFn = (w.rt.get i).initFn := congrArg ServiceCallbacks.initFn hs.callbacks
    rw [hfn]
    exact (tableSound_run answers hrun i).init (lookup_some hf).1
  have hflag := restartSlot_running answers w.log hinit fun hfn => by
    have hreload : s.reloadFn = (w.rt.get i).reloadFn :=
      congrArg ServiceCallbacks.reloadFn hs.callbacks
    cases hr : s.running with
    | true => exact Or.inl rfl
    | false =>
      refine Or.inr (Classical.byContradiction fun hne => hstopped ⟨i, hf, ?_, ?_, hne⟩)
      · rw [← hreload, hfn]
      · rw [← hrunning, hr]
  obtain ⟨hused, hname⟩ := lookup_some hf
  have hruns := serviceRuns_set hf (hstep.used.trans hused) (hstep.name.trans hname)
  rw [heq, hruns, hflag]

end

/-- The service of `startedService`, disabled. -/
def disabledService : ServiceWorld Unit Nat :=
  (serviceCallOp (fun _ => 1) startedService (.setEnabled (ascii "a") false)).2

theorem startedService_reload :
    (serviceReload (fun _ => 1) startedService (ascii "a") (some (ascii "x=1"))).1 = true ↔
      ServiceRuns (serviceReload (fun _ => 1) startedService (ascii "a")
        (some (ascii "x=1"))).2.rt (ascii "a") :=
  (reload_truthful (fun _ => 1) [.register (plainService 1), .initAll none] rfl (ascii "a")
    (some (ascii "x=1"))).2 (by decide +kernel) (by decide +kernel)

/-- A running service that is disabled is not reloaded, and goes on running. -/
theorem disabledService_runs :
    ¬ ∀ (answers : Nat → Int32) (ops : List (ServiceOp Unit Nat)) (w : ServiceWorld Unit Nat),
      run (serviceStep answers) (serviceRuntimeInit Unit Nat) ops = some w →
      ∀ name config, (serviceReload answers w name config).1 = true ↔
        ServiceRuns (serviceReload answers w name config).2.rt name := by
  intro hall
  have hreload := hall (fun _ => 1)
    [.register (plainService 1), .initAll none, .setEnabled (ascii "a") false] disabledService
    rfl (ascii "a") none
  have hruns : ServiceRuns (serviceReload (fun _ => 1) disabledService (ascii "a") none).2.rt
      (ascii "a") := by decide +kernel
  have hret : (serviceReload (fun _ => 1) disabledService (ascii "a") none).1 = false := by
    decide +kernel
  rw [hreload.mpr hruns] at hret
  cases hret

end Osfx
