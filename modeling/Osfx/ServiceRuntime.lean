import Osfx.Lib.Run
import Osfx.Lib.SlotTable
import Osfx.Sizes

/-!
# The service runtime

`osfx_service_runtime.c`: a table of services, each an instance and callbacks on it, and
the operations that call them. A callback is a value of a type `F`, an instance a pointer
into `I` or NULL. What a callback returns is not up to the runtime: `answers k` is what the
`k`-th callback of a run returns, and the log lists the callbacks so far with their
answers. Names and the pointers to the runtime are not NULL.
-/

namespace Osfx

open SlotTable

def serviceMax : Nat := 32
def serviceNameMax : Nat := 32
def serviceConfigMax : Nat := 512

structure ServiceSlot (F I : Type) where
  name : Bytes
  config : Bytes
  inst : Option I
  initFn : Option F
  tickFn : Option F
  closeFn : Option F
  reloadFn : Option F
  cmdFn : Option F
  used : Bool
  enabled : Bool
  running : Bool
  lastRc : Int32
  initCount : UInt32
  tickCount : UInt32
  closeCount : UInt32
  reloadCount : UInt32
  cmdCount : UInt32
  deriving DecidableEq

abbrev ServiceRuntime (F I : Type) := Vector (ServiceSlot F I) serviceMax

/-- A callback and what it is called on. The output buffer of a command is passed on. -/
inductive ServiceCall (F I : Type) where
  | init (fn : F) (inst : Option I) (config : Bytes)
  | tick (fn : F) (inst : Option I) (nowTs : UInt64)
  | close (fn : F) (inst : Option I)
  | reload (fn : F) (inst : Option I) (config : Bytes)
  | cmd (fn : F) (inst : Option I) (cmd : Bytes) (args : Option Bytes)
  deriving DecidableEq

abbrev ServiceLog (F I : Type) := List (ServiceCall F I × Int32)

structure ServiceWorld (F I : Type) where
  rt : ServiceRuntime F I
  log : ServiceLog F I
  deriving DecidableEq

section
variable {F I : Type}

def ServiceSlot.zero (F I : Type) : ServiceSlot F I :=
  ⟨[], [], none, none, none, none, none, none, false, false, false, 0, 0, 0, 0, 0, 0⟩

/-- A runtime behind `osfx_service_runtime_init`, and nothing called yet. -/
def serviceRuntimeInit (F I : Type) : ServiceWorld F I :=
  ⟨Vector.replicate _ (ServiceSlot.zero F I), []⟩

/-- `find_slot`. -/
def findService (rt : ServiceRuntime F I) (name : Bytes) : Option (Fin serviceMax) :=
  lookup ServiceSlot.used ServiceSlot.name rt name

/-- `alloc_slot`. -/
def allocService (rt : ServiceRuntime F I) : Option (Fin serviceMax) :=
  vacant ServiceSlot.used rt

/-! ## Registration -/

/-- The arguments of `osfx_service_register_ex`. -/
structure ServiceRegistration (F I : Type) where
  name : Bytes
  inst : Option I
  initFn : Option F
  tickFn : Option F
  closeFn : Option F
  reloadFn : Option F
  cmdFn : Option F
  initialConfig : Option Bytes

/-- What a registration puts in a slot that has its name. -/
def fillService (s : ServiceSlot F I) (r : ServiceRegistration F I) :
    Bool × ServiceSlot F I :=
  let s := { s with
    inst := r.inst
    initFn := r.initFn
    tickFn := r.tickFn
    closeFn := r.closeFn
    reloadFn := r.reloadFn
    cmdFn := r.cmdFn
    enabled := true }
  match r.initialConfig with
  | none => (true, s)
  | some initial =>
    match copyText serviceConfigMax initial with
    | none => (false, s)
    | some config => (true, { s with config := config })

/-- `osfx_service_register_ex`: the return value and the table afterwards. -/
def serviceRegisterEx (rt : ServiceRuntime F I) (r : ServiceRegistration F I) :
    Bool × ServiceRuntime F I :=
  if r.initFn.isNone then (false, rt)
  else
    match findService rt r.name with
    | some i =>
      let filled := fillService (rt.get i) r
      (filled.1, rt.set i filled.2 i.isLt)
    | none =>
      match allocService rt with
      | none => (false, rt)
      | some i =>
        match copyText serviceNameMax r.name with
        | none => (false, rt.set i (ServiceSlot.zero F I) i.isLt)
        | some name =>
          let filled := fillService { ServiceSlot.zero F I with used := true, name := name } r
          (filled.1, rt.set i filled.2 i.isLt)

/-- `osfx_service_set_enabled`. -/
def serviceSetEnabled (rt : ServiceRuntime F I) (name : Bytes) (enabled : Bool) :
    Bool × ServiceRuntime F I :=
  match findService rt name with
  | none => (false, rt)
  | some i => (true, rt.set i { rt.get i with enabled := enabled } i.isLt)

/-- `osfx_service_set_config`. -/
def serviceSetConfig (rt : ServiceRuntime F I) (name : Bytes) (config : Option Bytes) :
    Bool × ServiceRuntime F I :=
  match findService rt name, config with
  | some i, some config =>
    match copyText serviceConfigMax config with
    | none => (false, rt)
    | some config => (true, rt.set i { rt.get i with config := config } i.isLt)
  | _, _ => (false, rt)

/-! ## Operations that call back

Each is made of what it does to one slot: the value that slot contributes, the slot and the
log afterwards. -/

section
variable (answers : Nat → Int32)

/-- Call a callback. -/
def callBack (call : ServiceCall F I) (log : ServiceLog F I) : Int32 × ServiceLog F I :=
  (answers log.length, log ++ [(call, answers log.length)])

/-- `cfg` of `osfx_service_init_all` and `osfx_service_load`. -/
def startConfig (s : ServiceSlot F I) (defaultConfig : Option Bytes) : Bytes :=
  if s.config ≠ [] then s.config else defaultConfig.getD []

/-- `rc = s->init_fn(s->instance, cfg)` and what is kept of it. -/
def initService (fn : F) (config : Bytes) (s : ServiceSlot F I) (log : ServiceLog F I) :
    Bool × ServiceSlot F I × ServiceLog F I :=
  let (rc, log) := callBack answers (.init fn s.inst config) log
  (rc != 0, { s with lastRc := rc, initCount := s.initCount + 1, running := rc != 0 }, log)

/-- The body of the loop of `osfx_service_init_all`. -/
def initSlot (defaultConfig : Option Bytes) (s : ServiceSlot F I) (log : ServiceLog F I) :
    Bool × ServiceSlot F I × ServiceLog F I :=
  match s.initFn with
  | none => (true, s, log)
  | some fn =>
    if !s.used || !s.enabled then (true, s, log)
    else initService answers fn (startConfig s defaultConfig) s log

/-- The body of the loop of `osfx_service_tick_all`. -/
def tickSlot (nowTs : UInt64) (s : ServiceSlot F I) (log : ServiceLog F I) :
    Bool × ServiceSlot F I × ServiceLog F I :=
  match s.tickFn with
  | none => (true, s, log)
  | some fn =>
    if !s.used || !s.enabled || !s.running then (true, s, log)
    else
      let (rc, log) := callBack answers (.tick fn s.inst nowTs) log
      (rc != 0, { s with lastRc := rc, tickCount := s.tickCount + 1 }, log)

/-- The body of the loop of `osfx_service_close_all`. -/
def closeSlot (s : ServiceSlot F I) (log : ServiceLog F I) :
    Bool × ServiceSlot F I × ServiceLog F I :=
  if !s.used || !s.running then (true, s, log)
  else
    match s.closeFn with
    | none => (true, { s with running := false }, log)
    | some fn =>
      let (rc, log) := callBack answers (.close fn s.inst) log
      (rc != 0, { s with lastRc := rc, closeCount := s.closeCount + 1, running := false }, log)

/-- `osfx_service_load` on the slot it has found. -/
def loadSlot (defaultConfig : Option Bytes) (s : ServiceSlot F I) (log : ServiceLog F I) :
    Bool × ServiceSlot F I × ServiceLog F I :=
  match s.initFn with
  | none => (false, s, log)
  | some fn =>
    if !s.enabled then (false, s, log)
    else initService answers fn (startConfig s defaultConfig) s log

/-- The closing part of `osfx_service_reload`. -/
def closeForReload (s : ServiceSlot F I) (log : ServiceLog F I) :
    ServiceSlot F I × ServiceLog F I :=
  match s.closeFn with
  | none => (s, log)
  | some fn =>
    if !s.running then (s, log)
    else
      ({ s with closeCount := s.closeCount + 1, running := false },
        (callBack answers (.close fn s.inst) log).2)

/-- What `osfx_service_reload` does behind the copy of the config. -/
def restartSlot (s : ServiceSlot F I) (log : ServiceLog F I) :
    Bool × ServiceSlot F I × ServiceLog F I :=
  match s.reloadFn with
  | some fn =>
    let (rc, log) := callBack answers (.reload fn s.inst s.config) log
    (rc != 0, { s with
      lastRc := rc
      reloadCount := s.reloadCount + 1
      running := s.running && rc != 0 }, log)
  | none =>
    let (s, log) := closeForReload answers s log
    match s.initFn with
    | none => (false, s, log)
    | some fn =>
      let (ret, s, log) := initService answers fn s.config s log
      (ret, { s with reloadCount := s.reloadCount + 1 }, log)

/-- The slot with the config of a reload, if that is one that fits. -/
def reloadConfig (s : ServiceSlot F I) : Option Bytes → Option (ServiceSlot F I)
  | none => some s
  | some config => (copyText serviceConfigMax config).map fun text => { s with config := text }

/-- `osfx_service_reload` on the slot it has found. -/
def reloadSlot (config : Option Bytes) (s : ServiceSlot F I) (log : ServiceLog F I) :
    Bool × ServiceSlot F I × ServiceLog F I :=
  if !s.enabled then (false, s, log)
  else
    match reloadConfig s config with
    | none => (false, s, log)
    | some s => restartSlot answers s log

/-- `osfx_service_command` on the slot it has found. -/
def commandSlot (cmd : Option Bytes) (args : Option Bytes) (s : ServiceSlot F I)
    (log : ServiceLog F I) : Bool × ServiceSlot F I × ServiceLog F I :=
  match s.cmdFn, cmd with
  | some fn, some cmd =>
    if !s.enabled || !s.running then (false, s, log)
    else
      let (rc, log) := callBack answers (.cmd fn s.inst cmd args) log
      (rc != 0, { s with lastRc := rc, cmdCount := s.cmdCount + 1 }, log)
  | _, _ => (false, s, log)

end

/-- What an operation does to the slot of a name; without one it returns 0. -/
def onService (w : ServiceWorld F I) (name : Bytes)
    (body : ServiceSlot F I → ServiceLog F I → Bool × ServiceSlot F I × ServiceLog F I) :
    Bool × ServiceWorld F I :=
  match findService w.rt name with
  | none => (false, w)
  | some i =>
    let (ret, s, log) := body (w.rt.get i) w.log
    (ret, ⟨w.rt.set i s i.isLt, log⟩)

/-- One turn of a loop over the slots. -/
def sweepSlot (body : ServiceSlot F I → ServiceLog F I → Bool × ServiceSlot F I × ServiceLog F I)
    (state : Bool × ServiceWorld F I) (i : Fin serviceMax) : Bool × ServiceWorld F I :=
  let (ok, w) := state
  let (ret, s, log) := body (w.rt.get i) w.log
  (ok && ret, ⟨w.rt.set i s i.isLt, log⟩)

/-- A loop over the slots, with its `ok`. -/
def sweepServices (w : ServiceWorld F I)
    (body : ServiceSlot F I → ServiceLog F I → Bool × ServiceSlot F I × ServiceLog F I) :
    Bool × ServiceWorld F I :=
  (List.finRange serviceMax).foldl (sweepSlot body) (true, w)

section
variable (answers : Nat → Int32) (w : ServiceWorld F I)

def serviceInitAll (defaultConfig : Option Bytes) : Bool × ServiceWorld F I :=
  sweepServices w (initSlot answers defaultConfig)

def serviceTickAll (nowTs : UInt64) : Bool × ServiceWorld F I :=
  sweepServices w (tickSlot answers nowTs)

def serviceCloseAll : Bool × ServiceWorld F I := sweepServices w (closeSlot answers)

def serviceLoad (name : Bytes) (defaultConfig : Option Bytes) : Bool × ServiceWorld F I :=
  onService w name (loadSlot answers defaultConfig)

def serviceReload (name : Bytes) (config : Option Bytes) : Bool × ServiceWorld F I :=
  onService w name (reloadSlot answers config)

def serviceCommand (name : Bytes) (cmd args : Option Bytes) : Bool × ServiceWorld F I :=
  onService w name (commandSlot answers cmd args)

end

inductive ServiceOp (F I : Type) where
  | register (r : ServiceRegistration F I)
  | setEnabled (name : Bytes) (enabled : Bool)
  | setConfig (name : Bytes) (config : Option Bytes)
  | initAll (defaultConfig : Option Bytes)
  | load (name : Bytes) (defaultConfig : Option Bytes)
  | reload (name : Bytes) (config : Option Bytes)
  | tickAll (nowTs : UInt64)
  | command (name : Bytes) (cmd args : Option Bytes)
  | closeAll

/-- The return value of a call, and what it leaves. -/
def serviceCallOp (answers : Nat → Int32) (w : ServiceWorld F I) :
    ServiceOp F I → Bool × ServiceWorld F I
  | .register r => ((serviceRegisterEx w.rt r).1, ⟨(serviceRegisterEx w.rt r).2, w.log⟩)
  | .setEnabled name enabled =>
    ((serviceSetEnabled w.rt name enabled).1, ⟨(serviceSetEnabled w.rt name enabled).2, w.log⟩)
  | .setConfig name config =>
    ((serviceSetConfig w.rt name config).1, ⟨(serviceSetConfig w.rt name config).2, w.log⟩)
  | .initAll defaultConfig => serviceInitAll answers w defaultConfig
  | .load name defaultConfig => serviceLoad answers w name defaultConfig
  | .reload name config => serviceReload answers w name config
  | .tickAll nowTs => serviceTickAll answers w nowTs
  | .command name cmd args => serviceCommand answers w name cmd args
  | .closeAll => serviceCloseAll answers w

/-- One call of a run, whatever it returns. -/
def serviceStep (answers : Nat → Int32) (w : ServiceWorld F I) (op : ServiceOp F I) :
    Option (ServiceWorld F I) :=
  some (serviceCallOp answers w op).2

end

end Osfx
