import Osfx.Lib.History
import Osfx.ServiceRuntime

/-!
# The life of an instance

A callback other than `init` is meant for an instance that is initialised: an `init` of it
has succeeded, and it was not closed since. The runtime keeps a running flag for each
service that is to stand for that. `LifeGuard` says which calls keep the flag true to the
instance. Three kinds do not: a running service is registered again with another instance,
one that does not run is reloaded through its reload callback, and an instance is closed
that another running service has as well.
-/

namespace Osfx

open EventSystem Histories SlotTable

section
variable {F I : Type}

/-- A successful `init` of the instance. -/
def Opens (x : Option I) (c : ServiceCall F I × Int32) : Prop :=
  match c.1 with
  | .init _ y _ => y = x ∧ c.2 ≠ 0
  | _ => False

def Closes (x : Option I) (c : ServiceCall F I × Int32) : Prop :=
  match c.1 with
  | .close _ y => y = x
  | _ => False

/-- An `init` of the instance has succeeded, and it was not closed since. -/
def Initialised (x : Option I) (log : ServiceLog F I) : Prop := Since (Opens x) (Closes x) log

/-- What any callback but `init` is called on is initialised. -/
def CallOk (before : ServiceLog F I) (c : ServiceCall F I × Int32) : Prop :=
  match c.1 with
  | .init _ _ _ => True
  | .tick _ x _ => Initialised x before
  | .close _ x => Initialised x before
  | .reload _ x _ => Initialised x before
  | .cmd _ x _ _ => Initialised x before

def CallsOk (log : ServiceLog F I) : Prop := Throughout CallOk log

def ServiceSlot.Running (s : ServiceSlot F I) : Prop := s.used = true ∧ s.running = true

/-- A running service with a close callback. -/
def ServiceSlot.Closing (s : ServiceSlot F I) : Prop := s.Running ∧ s.closeFn.isSome = true

/-! ## The guard -/

/-- A running service is registered again only with the instance it has. -/
abbrev RegisterGuard (rt : ServiceRuntime F I) (r : ServiceRegistration F I) : Prop :=
  ∀ i, findService rt r.name = some i → r.initFn.isSome = true →
    (rt.get i).running = true → (rt.get i).inst = r.inst

/-- A service is reloaded through its callback only while it runs; if it is closed and the
`init` that follows fails, no other running service has its instance. -/
abbrev ReloadGuard (answers : Nat → Int32) (w : ServiceWorld F I) (name : Bytes)
    (config : Option Bytes) : Prop :=
  ∀ i, findService w.rt name = some i → (w.rt.get i).enabled = true →
    (reloadConfig (w.rt.get i) config).isSome = true →
    ((w.rt.get i).reloadFn.isSome = true → (w.rt.get i).running = true) ∧
    ((w.rt.get i).reloadFn.isSome = false → (w.rt.get i).Closing →
      answers (w.log.length + 1) = 0 →
      ∀ j, j ≠ i → (w.rt.get j).Running → (w.rt.get j).inst ≠ (w.rt.get i).inst)

/-- No instance is closed for two services. -/
abbrev CloseGuard (rt : ServiceRuntime F I) : Prop :=
  ∀ i j, i ≠ j → (rt.get i).Closing → (rt.get j).Closing → (rt.get i).inst ≠ (rt.get j).inst

def LifeGuard (answers : Nat → Int32) (w : ServiceWorld F I) : ServiceOp F I → Prop
  | .register r => RegisterGuard w.rt r
  | .reload name config => ReloadGuard answers w name config
  | .closeAll => CloseGuard w.rt
  | _ => True

instance (s : ServiceSlot F I) : Decidable s.Running :=
  inferInstanceAs (Decidable (_ ∧ _))

instance (s : ServiceSlot F I) : Decidable s.Closing :=
  inferInstanceAs (Decidable (_ ∧ _))

instance [DecidableEq I] (answers : Nat → Int32) (w : ServiceWorld F I) (op : ServiceOp F I) :
    Decidable (LifeGuard answers w op) :=
  match op with
  | .register r => inferInstanceAs (Decidable (RegisterGuard w.rt r))
  | .reload name config => inferInstanceAs (Decidable (ReloadGuard answers w name config))
  | .closeAll => inferInstanceAs (Decidable (CloseGuard w.rt))
  | .setEnabled _ _ | .setConfig _ _ | .initAll _ | .load _ _ | .tickAll _ | .command _ _ _ =>
    isTrue trivial

/-! ## One more call -/

theorem Initialised.snoc {x : Option I} {log : ServiceLog F I} {c : ServiceCall F I × Int32}
    (h : Initialised x log) (hc : ¬ Closes x c) : Initialised x (log ++ [c]) :=
  since_snoc.mpr (Or.inr ⟨h, hc⟩)

theorem initialised_of_opens {x : Option I} {log : ServiceLog F I}
    {c : ServiceCall F I × Int32} (hc : Opens x c) : Initialised x (log ++ [c]) :=
  since_snoc.mpr (Or.inl hc)

theorem CallsOk.snoc {log : ServiceLog F I} {c : ServiceCall F I × Int32} (h : CallsOk log)
    (hc : CallOk log c) : CallsOk (log ++ [c]) :=
  throughout_snoc.mpr ⟨h, hc⟩

/-! ## The invariant -/

/-- A service that runs has an initialised instance, and any service an `init` callback. -/
structure SlotLive (s : ServiceSlot F I) (log : ServiceLog F I) : Prop where
  live : s.Running → Initialised s.inst log
  init : s.used = true → s.initFn.isSome = true

structure LifeInv (w : ServiceWorld F I) : Prop where
  slots : ∀ i, SlotLive (w.rt.get i) w.log
  calls : CallsOk w.log

theorem SlotLive.later {s : ServiceSlot F I} {log log' : ServiceLog F I} (h : SlotLive s log)
    (keep : s.Running → Initialised s.inst log → Initialised s.inst log') : SlotLive s log' :=
  ⟨fun hr => keep hr (h.live hr), h.init⟩

/-- Writing one slot keeps the invariant if the instances of the others stay initialised. -/
theorem LifeInv.write {w : ServiceWorld F I} (h : LifeInv w) (i : Fin serviceMax)
    {s : ServiceSlot F I} {log : ServiceLog F I} (hs : SlotLive s log) (hcalls : CallsOk log)
    (keep : ∀ j, j ≠ i → (w.rt.get j).Running →
      Initialised (w.rt.get j).inst w.log → Initialised (w.rt.get j).inst log) :
    LifeInv ⟨w.rt.set i s i.isLt, log⟩ := by
  refine ⟨forall_set (P := fun _ s => SlotLive s log) hs fun j hij => ?_, hcalls⟩
  exact (h.slots j).later (keep j fun he => hij he.symm)

/-- Writing a slot and calling nothing. -/
theorem LifeInv.set {w : ServiceWorld F I} (h : LifeInv w) (i : Fin serviceMax)
    {s : ServiceSlot F I} (hs : SlotLive s w.log) : LifeInv ⟨w.rt.set i s i.isLt, w.log⟩ :=
  h.write i hs h.calls fun _ _ _ hx => hx

/-! ## What happens to one slot -/

/-- The slot and the log behind a step of a slot that closes nothing. -/
structure Kept (log : ServiceLog F I) (s' : ServiceSlot F I) (log' : ServiceLog F I) : Prop where
  slot : SlotLive s' log'
  calls : CallsOk log'
  keep : ∀ x, Initialised x log → Initialised x log'

/-- A body keeps the slots it is run on as they should be, and closes nothing. -/
def KeepsLive (body : ServiceSlot F I → ServiceLog F I → Bool × ServiceSlot F I × ServiceLog F I) :
    Prop :=
  ∀ s log, SlotLive s log → CallsOk log → Kept log (body s log).2.1 (body s log).2.2

theorem Kept.idle {s : ServiceSlot F I} {log : ServiceLog F I} (hs : SlotLive s log)
    (hcalls : CallsOk log) : Kept log s log :=
  ⟨hs, hcalls, fun _ hx => hx⟩

/-- A callback other than `init` and `close` on an initialised instance. -/
theorem Kept.use {s s' : ServiceSlot F I} {log : ServiceLog F I} {c : ServiceCall F I × Int32}
    (hs : SlotLive s log) (hcalls : CallsOk log) (hok : CallOk log c)
    (hc : ∀ x, ¬ Closes x c) (hinst : s'.inst = s.inst) (hrun : s'.Running → s.Running)
    (hinit : s'.used = true → s'.initFn.isSome = true) : Kept log s' (log ++ [c]) := by
  refine ⟨⟨fun hr => ?_, hinit⟩, hcalls.snoc hok, fun x hx => hx.snoc (hc x)⟩
  rw [hinst]
  exact (hs.live (hrun hr)).snoc (hc _)

variable (answers : Nat → Int32)

theorem initService_kept (fn : F) (config : Bytes) {s : ServiceSlot F I} {log : ServiceLog F I}
    (hs : SlotLive s log) (hcalls : CallsOk log) :
    Kept log (initService answers fn config s log).2.1
      (initService answers fn config s log).2.2 := by
  refine ⟨⟨fun hr => ?_, hs.init⟩, hcalls.snoc trivial, fun x hx => hx.snoc id⟩
  exact initialised_of_opens ⟨rfl, bne_iff_ne.mp hr.2⟩

theorem initUnless_kept (skip ret : Bool) (fn : F) (config : Bytes) {s : ServiceSlot F I}
    {log : ServiceLog F I} (hs : SlotLive s log) (hcalls : CallsOk log) :
    Kept log (if skip then (ret, s, log) else initService answers fn config s log).2.1
      (if skip then (ret, s, log) else initService answers fn config s log).2.2 := by
  cases skip with
  | true => exact Kept.idle hs hcalls
  | false => exact initService_kept answers fn config hs hcalls

theorem keepsLive_initSlot (defaultConfig : Option Bytes) :
    KeepsLive (initSlot (F := F) (I := I) answers defaultConfig) := by
  intro s log hs hcalls
  unfold initSlot
  cases s.initFn with
  | none => exact Kept.idle hs hcalls
  | some fn => exact initUnless_kept answers _ true fn _ hs hcalls

theorem keepsLive_loadSlot (defaultConfig : Option Bytes) :
    KeepsLive (loadSlot (F := F) (I := I) answers defaultConfig) := by
  intro s log hs hcalls
  unfold loadSlot
  cases s.initFn with
  | none => exact Kept.idle hs hcalls
  | some fn => exact initUnless_kept answers _ false fn _ hs hcalls

theorem keepsLive_tickSlot (nowTs : UInt64) :
    KeepsLive (tickSlot (F := F) (I := I) answers nowTs) := by
  intro s log hs hcalls
  unfold tickSlot
  cases s.tickFn with
  | none => exact Kept.idle hs hcalls
  | some fn =>
    simp only
    split
    · exact Kept.idle hs hcalls
    · rename_i hrun
      have hr : s.Running := by
        simp only [Bool.or_eq_true, Bool.not_eq_true', not_or, Bool.not_eq_false] at hrun
        exact ⟨hrun.1.1, hrun.2⟩
      exact Kept.use hs hcalls (hs.live hr) (fun _ => id) rfl (fun _ => hr) hs.init

theorem commandSlot_kept (cmd args : Option Bytes) {s : ServiceSlot F I}
    {log : ServiceLog F I} (hu : s.used = true) (hs : SlotLive s log) (hcalls : CallsOk log) :
    Kept log (commandSlot answers cmd args s log).2.1 (commandSlot answers cmd args s log).2.2 := by
  unfold commandSlot
  split
  · split
    · exact Kept.idle hs hcalls
    · rename_i hrun
      have hr : s.Running := by
        simp only [Bool.or_eq_true, Bool.not_eq_true', not_or, Bool.not_eq_false] at hrun
        exact ⟨hu, hrun.2⟩
      exact Kept.use hs hcalls (hs.live hr) (fun _ => id) rfl (fun _ => hr) hs.init
  · exact Kept.idle hs hcalls

/-! ## Loops over the slots -/

theorem LifeInv.kept {w : ServiceWorld F I} (h : LifeInv w) (i : Fin serviceMax)
    {s : ServiceSlot F I} {log : ServiceLog F I} (hk : Kept w.log s log) :
    LifeInv ⟨w.rt.set i s i.isLt, log⟩ :=
  h.write i hk.slot hk.calls fun _ _ _ => hk.keep _

/-- What each turn carries from the slots still to come to those behind it holds at the
end of the loop. -/
theorem sweep_rule
    {body : ServiceSlot F I → ServiceLog F I → Bool × ServiceSlot F I × ServiceLog F I}
    {P : List (Fin serviceMax) → ServiceWorld F I → Prop}
    (hstep : ∀ i rest w, P (i :: rest) w → P rest ⟨w.rt.set i (body (w.rt.get i) w.log).2.1 i.isLt,
      (body (w.rt.get i) w.log).2.2⟩)
    {slots : List (Fin serviceMax)} {state : Bool × ServiceWorld F I} (h : P slots state.2) :
    P [] (slots.foldl (sweepSlot body) state).2 := by
  induction slots generalizing state with
  | nil => exact h
  | cons i rest ih => exact ih (hstep i rest state.2 h)

theorem LifeInv.sweep
    {body : ServiceSlot F I → ServiceLog F I → Bool × ServiceSlot F I × ServiceLog F I}
    (hbody : KeepsLive body) {w : ServiceWorld F I} (h : LifeInv w) :
    LifeInv (sweepServices w body).2 := by
  refine sweep_rule (P := fun _ w => LifeInv w) (fun i _ w hw => ?_) h
  exact hw.kept i (hbody _ _ (hw.slots i) hw.calls)

/-! ## Operations on one service -/

theorem LifeInv.onService
    {body : ServiceSlot F I → ServiceLog F I → Bool × ServiceSlot F I × ServiceLog F I}
    {w : ServiceWorld F I} (h : LifeInv w) (name : Bytes)
    (hbody : ∀ i, findService w.rt name = some i →
      LifeInv ⟨w.rt.set i (body (w.rt.get i) w.log).2.1 i.isLt, (body (w.rt.get i) w.log).2.2⟩) :
    LifeInv (onService w name body).2 := by
  unfold Osfx.onService
  cases hf : findService w.rt name with
  | none => exact h
  | some i => exact hbody i hf

theorem reloadConfig_some {s s' : ServiceSlot F I} {config : Option Bytes}
    (h : reloadConfig s config = some s') : ∃ text, s' = { s with config := text } := by
  cases config with
  | none =>
    cases h
    exact ⟨s.config, rfl⟩
  | some config =>
    obtain ⟨text, -, rfl⟩ := Option.map_eq_some_iff.mp h
    exact ⟨text, rfl⟩

/-- Closing an instance and initialising it again. -/
theorem LifeInv.reopen {w : ServiceWorld F I} (h : LifeInv w) (i : Fin serviceMax)
    {s s' : ServiceSlot F I} {closeFn initFn : F} {config : Bytes} {rc rc' : Int32}
    (hlive : Initialised s.inst w.log) (hs : s'.inst = s.inst) (hrun : s'.running = (rc' != 0))
    (hinit : s'.used = true → s'.initFn.isSome = true)
    (hothers : rc' = 0 → ∀ j, j ≠ i → (w.rt.get j).Running → (w.rt.get j).inst ≠ s.inst) :
    LifeInv ⟨w.rt.set i s' i.isLt,
      w.log ++ [(.close closeFn s.inst, rc)] ++ [(.init initFn s.inst config, rc')]⟩ := by
  have hopen : rc' ≠ 0 → Initialised s.inst
      (w.log ++ [(.close closeFn s.inst, rc)] ++ [(.init initFn s.inst config, rc')]) :=
    fun hrc => initialised_of_opens ⟨rfl, hrc⟩
  have hclose : CallOk w.log (.close closeFn s.inst, rc) := hlive
  refine h.write i ⟨fun hr => ?_, hinit⟩ (CallsOk.snoc (h.calls.snoc hclose) trivial) ?_
  · rw [hs]
    exact hopen (bne_iff_ne.mp (hrun ▸ hr.2))
  · intro j hj hr hx
    by_cases hsame : (w.rt.get j).inst = s.inst
    · rw [hsame]
      exact hopen fun hrc => hothers hrc j hj hr hsame
    · have hne : ¬ Closes (w.rt.get j).inst (.close closeFn s.inst, rc) :=
        fun hc => hsame (Eq.symm hc)
      exact (hx.snoc hne).snoc id

theorem closeForReload_idle {s : ServiceSlot F I} (log : ServiceLog F I) (hu : s.used = true)
    (h : ¬ s.Closing) : closeForReload answers s log = (s, log) := by
  unfold closeForReload
  cases hf : s.closeFn with
  | none => rfl
  | some fn =>
    cases hr : s.running with
    | false => rfl
    | true => exact absurd ⟨⟨hu, hr⟩, by rw [hf]; rfl⟩ h

theorem closeForReload_closing {s : ServiceSlot F I} (log : ServiceLog F I) (h : s.Closing) :
    ∃ fn, closeForReload answers s log =
      ({ s with closeCount := s.closeCount + 1, running := false },
        log ++ [(.close fn s.inst, answers log.length)]) := by
  obtain ⟨fn, hf⟩ := Option.isSome_iff_exists.mp h.2
  refine ⟨fn, ?_⟩
  rw [closeForReload, hf]
  simp only
  rw [if_neg (by simp [h.1.2]), callBack]

theorem LifeInv.restart {w : ServiceWorld F I} (h : LifeInv w) (i : Fin serviceMax)
    {s : ServiceSlot F I} (hs : SlotLive s w.log) (hu : s.used = true)
    (hreload : s.reloadFn.isSome = true → s.running = true)
    (hothers : s.reloadFn.isSome = false → s.Closing → answers (w.log.length + 1) = 0 →
      ∀ j, j ≠ i → (w.rt.get j).Running → (w.rt.get j).inst ≠ s.inst) :
    LifeInv ⟨w.rt.set i (restartSlot answers s w.log).2.1 i.isLt,
      (restartSlot answers s w.log).2.2⟩ := by
  unfold restartSlot
  cases hfn : s.reloadFn with
  | some fn =>
    have hr : s.Running := ⟨hu, hreload (by rw [hfn]; rfl)⟩
    exact h.kept i (Kept.use hs h.calls (hs.live hr) (fun _ => id) rfl (fun _ => hr) hs.init)
  | none =>
    obtain ⟨initFn, hinit⟩ := Option.isSome_iff_exists.mp (hs.init hu)
    by_cases hc : s.Closing
    · obtain ⟨closeFn, hclose⟩ := closeForReload_closing answers w.log hc
      simp only [hclose, hinit]
      refine h.reopen i (hs.live hc.1) rfl rfl (fun _ => by rw [← hinit]; exact hs.init hu) ?_
      intro hrc
      refine hothers (by rw [hfn]; rfl) hc ?_
      simpa [initService, callBack] using hrc
    · have hopen := initService_kept answers initFn s.config hs h.calls
      simp only [closeForReload_idle answers w.log hu hc, hinit]
      exact h.kept i ⟨⟨hopen.slot.live, hopen.slot.init⟩, hopen.calls, hopen.keep⟩

theorem LifeInv.reload {w : ServiceWorld F I} (h : LifeInv w) (name : Bytes)
    (config : Option Bytes) (hg : ReloadGuard answers w name config) :
    LifeInv (serviceReload answers w name config).2 := by
  refine h.onService name fun i hi => ?_
  have hu := (lookup_some hi).1
  unfold reloadSlot
  split
  · exact h.set i (h.slots i)
  · rename_i henabled
    cases hconfig : reloadConfig (w.rt.get i) config with
    | none => exact h.set i (h.slots i)
    | some s =>
      have hguard := hg i hi (by simpa using henabled) (by rw [hconfig]; rfl)
      obtain ⟨text, rfl⟩ := reloadConfig_some hconfig
      exact h.restart answers i ⟨(h.slots i).live, (h.slots i).init⟩ hu hguard.1 hguard.2

/-! ## Closing all services -/

/-- The loop of `osfx_service_close_all` with the slots it has still to come to: the others
do not run, and what is still to be closed is initialised and not to be closed twice. -/
structure ClosingInv (rest : List (Fin serviceMax)) (w : ServiceWorld F I) : Prop where
  nodup : rest.Nodup
  calls : CallsOk w.log
  init : ∀ i, (w.rt.get i).used = true → (w.rt.get i).initFn.isSome = true
  stopped : ∀ i, i ∉ rest → ¬ (w.rt.get i).Running
  live : ∀ i ∈ rest, (w.rt.get i).Closing → Initialised (w.rt.get i).inst w.log
  apart : ∀ i ∈ rest, ∀ j ∈ rest, i ≠ j → (w.rt.get i).Closing → (w.rt.get j).Closing →
    (w.rt.get i).inst ≠ (w.rt.get j).inst

/-- A turn of the loop leaves the slot stopped, and closes its instance if it has to. -/
theorem closeSlot_cases (s : ServiceSlot F I) (log : ServiceLog F I) :
    (closeSlot answers s log).2.1.used = s.used ∧
    (closeSlot answers s log).2.1.initFn = s.initFn ∧
    ¬ (closeSlot answers s log).2.1.Running ∧
    ((closeSlot answers s log).2.2 = log ∨
      s.Closing ∧ ∃ fn rc, (closeSlot answers s log).2.2 = log ++ [(.close fn s.inst, rc)]) := by
  unfold closeSlot
  split
  · rename_i hskip
    refine ⟨rfl, rfl, fun hr => ?_, Or.inl rfl⟩
    have hused : s.used = true := hr.1
    have hrunning : s.running = true := hr.2
    simp [hused, hrunning] at hskip
  · rename_i hrun
    have hr : s.Running := by
      simp only [Bool.or_eq_true, Bool.not_eq_true', not_or, Bool.not_eq_false] at hrun
      exact hrun
    cases hf : s.closeFn with
    | none => exact ⟨rfl, rfl, fun hs => (nomatch hs.2), Or.inl rfl⟩
    | some fn =>
      refine ⟨rfl, rfl, fun hs => (nomatch hs.2), Or.inr ⟨⟨hr, ?_⟩, fn, _, rfl⟩⟩
      rw [hf]
      rfl

/-- The instances of the slots still to come outlive a turn of the loop. -/
theorem ClosingInv.closed {i : Fin serviceMax} {rest : List (Fin serviceMax)}
    {w : ServiceWorld F I} (h : ClosingInv (i :: rest) w) {log : ServiceLog F I}
    (hlog : log = w.log ∨ (w.rt.get i).Closing ∧
      ∃ fn rc, log = w.log ++ [(.close fn (w.rt.get i).inst, rc)]) :
    CallsOk log ∧ ∀ j ∈ rest, (w.rt.get j).Closing → Initialised (w.rt.get j).inst log := by
  have htail : ∀ j ∈ rest, j ∈ i :: rest := fun _ hj => List.mem_cons_of_mem i hj
  rcases hlog with rfl | ⟨hi, fn, rc, rfl⟩
  · exact ⟨h.calls, fun j hj => h.live j (htail j hj)⟩
  · have hlive := h.live i List.mem_cons_self hi
    refine ⟨h.calls.snoc hlive, fun j hj hc => ?_⟩
    have hij : i ≠ j := by
      rintro rfl
      exact (List.nodup_cons.mp h.nodup).1 hj
    exact (h.live j (htail j hj) hc).snoc
      (h.apart i List.mem_cons_self j (htail j hj) hij hi hc)

theorem ClosingInv.step {i : Fin serviceMax} {rest : List (Fin serviceMax)}
    {w : ServiceWorld F I} (h : ClosingInv (i :: rest) w) :
    ClosingInv rest ⟨w.rt.set i (closeSlot answers (w.rt.get i) w.log).2.1 i.isLt,
      (closeSlot answers (w.rt.get i) w.log).2.2⟩ := by
  obtain ⟨hused, hinit, hstop, hlog⟩ := closeSlot_cases answers (w.rt.get i) w.log
  obtain ⟨hcalls, hlive⟩ := h.closed hlog
  obtain ⟨hi, hnodup⟩ := List.nodup_cons.mp h.nodup
  have hsame : ∀ (s : ServiceSlot F I), ∀ j ∈ rest, (w.rt.set i s i.isLt).get j = w.rt.get j :=
    fun s j hj => get_set_ne w.rt s fun he => hi (he ▸ hj)
  have htail : ∀ j ∈ rest, j ∈ i :: rest := fun _ hj => List.mem_cons_of_mem i hj
  refine ⟨hnodup, hcalls, ?_, ?_, fun j hj hc => ?_, fun j hj k hk hjk hcj hck => ?_⟩
  · refine forall_set (P := fun _ (s : ServiceSlot F I) => s.used = true → s.initFn.isSome = true)
      ?_ fun j _ => h.init j
    rw [hused, hinit]
    exact h.init i
  · refine forall_set (P := fun j (s : ServiceSlot F I) => j ∉ rest → ¬ s.Running)
      (fun _ => hstop) fun j hij hj => ?_
    refine h.stopped j fun hmem => ?_
    rcases List.mem_cons.mp hmem with he | hmem
    · exact hij he.symm
    · exact hj hmem
  · rw [hsame _ j hj] at hc ⊢
    exact hlive j hj hc
  · rw [hsame _ j hj] at hcj ⊢
    rw [hsame _ k hk] at hck ⊢
    exact h.apart j (htail j hj) k (htail k hk) hjk hcj hck

theorem LifeInv.closeAll {w : ServiceWorld F I} (h : LifeInv w) (hg : CloseGuard w.rt) :
    LifeInv (serviceCloseAll answers w).2 := by
  have hstart : ClosingInv (List.finRange serviceMax) w :=
    ⟨List.nodup_finRange _, h.calls, fun i => (h.slots i).init,
      fun i hi => absurd (List.mem_finRange i) hi, fun i _ hc => (h.slots i).live hc.1,
      fun i _ j _ => hg i j⟩
  have hend : ClosingInv [] (serviceCloseAll answers w).2 :=
    sweep_rule (fun _ _ _ hw => hw.step answers) hstart
  refine ⟨fun i => ⟨fun hr => ?_, hend.init i⟩, hend.calls⟩
  exact absurd hr (hend.stopped i List.not_mem_nil)

/-! ## Operations that call nothing -/

theorem fillService_live {s : ServiceSlot F I} {log : ServiceLog F I}
    {r : ServiceRegistration F I} (hinit : r.initFn.isSome = true)
    (hs : s.Running → Initialised r.inst log) : SlotLive (fillService s r).2 log := by
  unfold fillService
  split
  · exact ⟨hs, fun _ => hinit⟩
  · split
    · exact ⟨hs, fun _ => hinit⟩
    · exact ⟨hs, fun _ => hinit⟩

theorem slotLive_zero (log : ServiceLog F I) : SlotLive (ServiceSlot.zero F I) log :=
  ⟨fun hr => (nomatch hr.1), fun hu => (nomatch hu)⟩

theorem LifeInv.register {w : ServiceWorld F I} (h : LifeInv w) (r : ServiceRegistration F I)
    (hg : RegisterGuard w.rt r) : LifeInv ⟨(serviceRegisterEx w.rt r).2, w.log⟩ := by
  unfold serviceRegisterEx
  split
  · exact h
  · rename_i hinit
    have hinit : r.initFn.isSome = true := by
      cases hfn : r.initFn with
      | none => exact absurd (by rw [hfn]; rfl) hinit
      | some _ => rfl
    cases hf : findService w.rt r.name with
    | some i =>
      refine h.set i (fillService_live hinit fun hr => ?_)
      rw [← hg i hf hinit hr.2]
      exact (h.slots i).live hr
    | none =>
      cases ha : allocService w.rt with
      | none => exact h
      | some i =>
        cases hc : copyText serviceNameMax r.name with
        | none => exact h.set i (slotLive_zero w.log)
        | some name => exact h.set i (fillService_live hinit fun hr => (nomatch hr.2))

theorem LifeInv.setEnabled {w : ServiceWorld F I} (h : LifeInv w) (name : Bytes)
    (enabled : Bool) : LifeInv ⟨(serviceSetEnabled w.rt name enabled).2, w.log⟩ := by
  unfold serviceSetEnabled
  cases hf : findService w.rt name with
  | none => exact h
  | some i => exact h.set i ⟨(h.slots i).live, (h.slots i).init⟩

theorem LifeInv.setConfig {w : ServiceWorld F I} (h : LifeInv w) (name : Bytes)
    (config : Option Bytes) : LifeInv ⟨(serviceSetConfig w.rt name config).2, w.log⟩ := by
  unfold serviceSetConfig
  split
  · split
    · exact h
    · exact h.set _ ⟨(h.slots _).live, (h.slots _).init⟩
  · exact h

/-! ## Runs -/

theorem lifeInv_init : LifeInv (serviceRuntimeInit F I) := by
  refine ⟨fun i => ?_, throughout_nil CallOk⟩
  rw [serviceRuntimeInit, get_replicate]
  exact slotLive_zero []

theorem lifeInv_step {w w' : ServiceWorld F I} {op : ServiceOp F I} (h : LifeInv w)
    (hg : LifeGuard answers w op) (hstep : serviceStep answers w op = some w') : LifeInv w' := by
  cases hstep
  cases op with
  | register r => exact h.register r hg
  | setEnabled name enabled => exact h.setEnabled name enabled
  | setConfig name config => exact h.setConfig name config
  | initAll defaultConfig => exact h.sweep (keepsLive_initSlot answers defaultConfig)
  | load name defaultConfig =>
    exact h.onService name fun i _ =>
      h.kept i (keepsLive_loadSlot answers defaultConfig _ _ (h.slots i) h.calls)
  | reload name config => exact h.reload answers name config hg
  | tickAll nowTs => exact h.sweep (keepsLive_tickSlot answers nowTs)
  | command name cmd args =>
    exact h.onService name fun i hi =>
      h.kept i (commandSlot_kept answers cmd args (lookup_some hi).1 (h.slots i) h.calls)
  | closeAll => exact h.closeAll answers hg

/-- In a run of guarded calls, whatever the callbacks return, every callback but `init` is
called on an instance that is initialised. -/
theorem callbacks_on_initialised (ops : List (ServiceOp F I))
    (hg : Each (serviceStep answers) (LifeGuard answers) (serviceRuntimeInit F I) ops) :
    Always (serviceStep answers) (fun w => CallsOk w.log) (serviceRuntimeInit F I) ops :=
  always_mono _ (fun _ h => h.calls)
    (always_of_each _ (fun _ _ _ h hg hs => lifeInv_step answers h hg hs) lifeInv_init hg)

end

/-- A service with every callback but the one for a reload. -/
def plainService (inst : Nat) : ServiceRegistration Unit Nat :=
  ⟨ascii "a", some inst, some (), some (), some (), none, some (), none⟩

/-- A service is set up, used, reloaded, registered again and closed. -/
def plainLife : List (ServiceOp Unit Nat) :=
  [.register (plainService 1), .initAll none, .tickAll 5, .reload (ascii "a") (some (ascii "x=1")),
    .register (plainService 1), .command (ascii "a") (some (ascii "status")) none, .closeAll,
    .register (plainService 2), .load (ascii "a") none, .tickAll 6]

theorem plainLife_on_initialised : Always (serviceStep fun _ => 1) (fun w => CallsOk w.log)
    (serviceRuntimeInit Unit Nat) plainLife :=
  callbacks_on_initialised (fun _ => 1) plainLife (by decide +kernel)

/-- A running service is registered again with another instance, and the next tick is a
callback on one that was never initialised. -/
theorem replaced_instance_ticked : ¬ ∀ (answers : Nat → Int32) (ops : List (ServiceOp Unit Nat)),
    Always (serviceStep answers) (fun w => CallsOk w.log) (serviceRuntimeInit Unit Nat) ops := by
  intro hall
  obtain ⟨w, hrun, hlog⟩ := Option.map_eq_some_iff.mp (show
    (run (serviceStep fun _ => 1) (serviceRuntimeInit Unit Nat)
      [.register (plainService 1), .initAll none, .register (plainService 2),
        .tickAll 5]).map ServiceWorld.log =
      some [(.init () (some 1) [], 1), (.tick () (some 2) 5, 1)] by decide +kernel)
  have hcalls := always_end _ (hall (fun _ => 1) _) hrun
  have htick : Initialised (some 2) ([] ++ [(ServiceCall.init () (some 1) [], 1)]) :=
    hcalls [(.init () (some 1) [], 1)] (.tick () (some 2) 5, 1) [] hlog
  rcases since_snoc.mp htick with ⟨hinst, -⟩ | ⟨hbefore, -⟩
  · cases hinst
  · exact not_since_nil _ _ hbefore

end Osfx
