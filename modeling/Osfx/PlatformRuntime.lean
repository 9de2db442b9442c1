import Osfx.PortPlugin
import Osfx.ServiceRegistry
import Osfx.TransportPlugin

/-!
# The platform runtime

`osfx_platform_runtime.c`: the three plugins, which are registered as services, and the two
calls that reach them, a load and a command. Both go through the service runtime, which says
whose callback is called, if any is. A name reaches the plugin that was registered under it
(`loads_named`, `commands_named`).
-/

namespace Osfx

open SlotTable Scan Numeral

/-! ## The test plugin -/

/-- `osfx_plugin_test`. -/
structure TestPlugin where
  initialized : Bool
  totalRuns : UInt64
  passRuns : UInt64
  lastSuite : Bytes
  deriving DecidableEq

/-- `osfx_plugin_test_init_ctx`. -/
def testInitCtx : TestPlugin := ⟨false, 0, 0, []⟩

/-- `osfx_plugin_test_init` and `osfx_plugin_test_reload`. -/
def testInit (p : TestPlugin) : TestPlugin := { p with initialized := true }

def testStatus (p : TestPlugin) : Bytes :=
  ascii "test_plugin initialized=" ++ printInt p.initialized.toInt ++ ascii " total_runs=" ++
    decimal p.totalRuns.toNat ++ ascii " pass_runs=" ++ decimal p.passRuns.toNat ++
    ascii " last_suite=" ++ p.lastSuite

/-- `osfx_plugin_test_command`. -/
def testCommand (p : TestPlugin) (cmd : Bytes) (args : Option Bytes) (outRoom : Nat) :
    Bool × Bytes × TestPlugin :=
  if cmd = ascii "status" then (true, printOut outRoom (testStatus p), p)
  else if cmd = ascii "run" then
    let suite := (args.filter (· ≠ [])).getD (ascii "component")
    let p := { p with
      totalRuns := p.totalRuns + 1
      passRuns := p.passRuns + 1
      lastSuite := suite.take 31 }
    (true, printOut outRoom (ascii "ok=1 suite=" ++ p.lastSuite), p)
  else (false, printOut outRoom (ascii "error=unknown_cmd"), p)

/-! ## osfx_platform_runtime.c -/

inductive Plugin where
  | transport | testPlugin | portForwarder
  deriving DecidableEq

def Plugin.name : Plugin → Bytes
  | .transport => ascii "transport"
  | .testPlugin => ascii "test_plugin"
  | .portForwarder => ascii "port_forwarder"

/-- `osfx_platform_runtime`, and the files there are. The callbacks of a service, and its
instance, are named by the plugin they are of. -/
structure Platform where
  services : ServiceWorld Plugin Plugin
  transport : TransportPlugin
  testPlugin : TestPlugin
  portForwarder : PortPlugin
  files : Files

def pluginService (p : Plugin) : ServiceRegistration Plugin Plugin :=
  ⟨p.name, some p, some p, some p, some p, some p, some p, some []⟩

def registerPlugin (w : ServiceWorld Plugin Plugin) (p : Plugin) : ServiceWorld Plugin Plugin :=
  ⟨(serviceRegisterEx w.rt (pluginService p)).2, w.log⟩

def platformServices : ServiceWorld Plugin Plugin :=
  [Plugin.transport, .testPlugin, .portForwarder].foldl registerPlugin (serviceRuntimeInit _ _)

/-- `osfx_platform_runtime_init`. -/
def platformInit (drivers : TransporterRuntime MatrixLink) (matrix : ProtocolMatrix)
    (files : Files) : Platform :=
  ⟨platformServices, transportInitCtx drivers matrix, testInitCtx, portInitCtx, files⟩

namespace Platform

/-- The plugin whose init `osfx_service_load` calls, and the configuration it is given. -/
def loads (p : Platform) (name : Bytes) (config : Option Bytes) : Option (Plugin × Bytes) :=
  (findService p.services.rt name).bind fun i =>
    if (p.services.rt.get i).enabled then
      (p.services.rt.get i).initFn.map fun plugin =>
        (plugin, startConfig (p.services.rt.get i) config)
    else none

/-- The init callback of a plugin. -/
def initPlugin (p : Platform) (config : Bytes) : Plugin → Platform
  | .transport => { p with transport := transportInit p.transport }
  | .testPlugin => { p with testPlugin := testInit p.testPlugin }
  | .portForwarder =>
    { p with portForwarder := portInit p.files p.portForwarder (some config) }

/-- `osfx_platform_plugin_load`. The init of every plugin returns 1. -/
def load (p : Platform) (name : Bytes) (config : Option Bytes) : Bool × Platform :=
  let loaded := serviceLoad (fun _ => 1) p.services name config
  match p.loads name config with
  | none => (loaded.1, { p with services := loaded.2 })
  | some (plugin, text) => (loaded.1, { p.initPlugin text plugin with services := loaded.2 })

/-- The plugin whose command `osfx_service_command` calls. -/
def commands (p : Platform) (name : Bytes) : Option Plugin :=
  (findService p.services.rt name).bind fun i =>
    if (p.services.rt.get i).enabled && (p.services.rt.get i).running then
      (p.services.rt.get i).cmdFn
    else none

end Platform

/-- The return value, what is written to `out`, and the platform afterwards. -/
structure PlatformAnswer where
  ret : Bool
  out : Bytes
  platform : Platform

/-- What the port forwarder is given with a command: its emit callback, and whether a file
that is written opens. -/
structure PortGiven where
  emitFn : Option (Bytes → UInt16 → Bytes → Bool)
  opens : Bool

namespace Platform

/-- The command callback of a plugin. -/
def commandPlugin (p : Platform) (given : PortGiven) (cmd args : Bytes) (outRoom : Nat) :
    Plugin → PlatformAnswer
  | .transport =>
    let answer := transportCommand p.transport cmd (some args) outRoom
    ⟨answer.ret, answer.out, { p with transport := answer.plugin }⟩
  | .testPlugin =>
    let answer := testCommand p.testPlugin cmd (some args) outRoom
    ⟨answer.1, answer.2.1, { p with testPlugin := answer.2.2 }⟩
  | .portForwarder =>
    let answer :=
      portCommand p.files p.portForwarder given.emitFn cmd (some args) outRoom given.opens
    ⟨answer.ret, answer.out, { p with
      portForwarder := answer.plugin
      files := writeFile p.files answer.written }⟩

/-- `osfx_platform_plugin_cmd`. Nothing is written where no plugin is called. -/
def command (p : Platform) (given : PortGiven) (name cmd args : Bytes) (outRoom : Nat) :
    PlatformAnswer :=
  match p.commands name with
  | none => ⟨false, [], p⟩
  | some plugin =>
    let answer := p.commandPlugin given cmd args outRoom plugin
    let services := serviceCommand (fun _ => if answer.ret then 1 else 0) p.services name
      (some cmd) (some args)
    ⟨services.1, answer.out, { answer.platform with services := services.2 }⟩

/-- What `osfx_platform_plugin_name_at` gives for each index, with room for `outCap` bytes. -/
def pluginNames (p : Platform) (outCap : Nat) : List (Option Bytes) :=
  (usedSlots ServiceSlot.used p.services.rt).map fun s => copyText outCap s.name

end Platform

/-! ## Whose plugin a name reaches -/

/-- The service of a plugin, which has no configuration of its own. -/
structure ServiceOf (p : Plugin) (s : ServiceSlot Plugin Plugin) : Prop where
  name : s.name = p.name
  initFn : s.initFn = some p
  cmdFn : s.cmdFn = some p
  config : s.config = []

/-- Every service is that of a plugin. -/
def ServesPlugins (w : ServiceWorld Plugin Plugin) : Prop :=
  ∀ i, (w.rt.get i).used = true → ∃ p, ServiceOf p (w.rt.get i)

theorem onService_slots {F I : Type} {P : ServiceSlot F I → Prop}
    {body : ServiceSlot F I → ServiceLog F I → Bool × ServiceSlot F I × ServiceLog F I}
    (hbody : ∀ s log, P s → P (body s log).2.1) {w : ServiceWorld F I} (name : Bytes)
    (h : ∀ i, P (w.rt.get i)) : ∀ i, P ((onService w name body).2.rt.get i) := by
  unfold onService
  cases findService w.rt name with
  | none => exact h
  | some i => exact forall_set (P := fun _ s => P s) (hbody _ _ (h i)) fun j _ => h j

/-- A slot that is left as it is in what `ServiceOf` says of it. -/
theorem ServiceOf.same {p : Plugin} {s s' : ServiceSlot Plugin Plugin} (h : ServiceOf p s)
    (hname : s'.name = s.name) (hcallbacks : s'.callbacks = s.callbacks)
    (hconfig : s'.config = s.config) : ServiceOf p s' where
  name := hname.trans h.name
  initFn := (congrArg ServiceCallbacks.initFn hcallbacks).trans h.initFn
  cmdFn := (congrArg ServiceCallbacks.cmdFn hcallbacks).trans h.cmdFn
  config := hconfig.trans h.config

section
variable {F I : Type} (answers : Nat → Int32) (s : ServiceSlot F I) (log : ServiceLog F I)

theorem loadSlot_config (config : Option Bytes) :
    (loadSlot answers config s log).2.1.config = s.config := by
  unfold loadSlot
  cases s.initFn with
  | none => rfl
  | some fn =>
    simp only
    split
    · rfl
    · rfl

theorem commandSlot_config (cmd args : Option Bytes) :
    (commandSlot answers cmd args s log).2.1.config = s.config := by
  unfold commandSlot
  split
  · split
    · rfl
    · rfl
  · rfl

end

theorem servesPlugins_onService {w : ServiceWorld Plugin Plugin} (h : ServesPlugins w)
    {body : ServiceSlot Plugin Plugin → ServiceLog Plugin Plugin →
      Bool × ServiceSlot Plugin Plugin × ServiceLog Plugin Plugin}
    (hown : OwnCalls body) (hconfig : ∀ s log, (body s log).2.1.config = s.config)
    (name : Bytes) : ServesPlugins (onService w name body).2 := by
  refine onService_slots
    (P := fun s => s.used = true → ∃ p, ServiceOf p s) (fun s log hs hused => ?_) name h
  have hstep := hown s log
  obtain ⟨p, hp⟩ := hs (hstep.used.symm.trans hused)
  exact ⟨p, hp.same hstep.name hstep.callbacks (hconfig s log)⟩

theorem servesPlugins_register {w : ServiceWorld Plugin Plugin} (h : ServesPlugins w)
    (p : Plugin) : ServesPlugins (registerPlugin w p) := by
  unfold registerPlugin
  rcases serviceRegister_cases w.rt (pluginService p) with
    ⟨-, hsame⟩ | ⟨-, -, i, -, hzero⟩ | ⟨-, i, s, hopened, hfilled⟩
  · rw [hsame]
    exact h
  · rw [hzero]
    refine forall_set (P := fun _ s => s.used = true → ∃ p, ServiceOf p s) ?_ fun j _ => h j
    intro hused
    cases hused
  · have hname : s.name = p.name := by
      cases hopened with
      | known hfind => exact (lookup_some hfind).2
      | fresh _ _ _ => rfl
    rw [hfilled]
    refine forall_set (P := fun _ s => s.used = true → ∃ p, ServiceOf p s)
      (fun _ => ⟨p, ?_⟩) fun j _ => h j
    exact ⟨hname, rfl, rfl, rfl⟩

theorem servesPlugins_init : ServesPlugins platformServices := by
  refine servesPlugins_register (servesPlugins_register (servesPlugins_register ?_ _) _) _
  intro i hi
  rw [serviceRuntimeInit, get_replicate] at hi
  cases hi

/-! ## What a load and a command do -/

namespace Platform

/-- A load of a plugin is one by its own name, with the configuration that was given. -/
theorem loads_named {p : Platform} (h : ServesPlugins p.services) {name config text : Bytes}
    {plugin : Plugin} (hloads : p.loads name (some config) = some (plugin, text)) :
    name = plugin.name ∧ text = config := by
  obtain ⟨i, hfind, hloads⟩ := Option.bind_eq_some_iff.mp hloads
  obtain ⟨hused, hname⟩ := lookup_some hfind
  obtain ⟨q, hq⟩ := h i hused
  obtain ⟨-, hloads⟩ := Option.ite_none_right_eq_some.mp hloads
  rw [hq.initFn, Option.map_some, Option.some.injEq, Prod.mk.injEq] at hloads
  obtain ⟨rfl, rfl⟩ := hloads
  refine ⟨hname.symm.trans hq.name, ?_⟩
  rw [startConfig, hq.config, if_neg (by simp), Option.getD_some]

theorem commands_named {p : Platform} (h : ServesPlugins p.services) {name : Bytes}
    {plugin : Plugin} (hcommands : p.commands name = some plugin) : name = plugin.name := by
  obtain ⟨i, hfind, hcommands⟩ := Option.bind_eq_some_iff.mp hcommands
  obtain ⟨hused, hname⟩ := lookup_some hfind
  obtain ⟨q, hq⟩ := h i hused
  obtain ⟨-, hcommands⟩ := Option.ite_none_right_eq_some.mp hcommands
  rw [hq.cmdFn, Option.some.injEq] at hcommands
  rw [← hcommands]
  exact hname.symm.trans hq.name

/-- The service runtime says of a load what the plugin says that is loaded. -/
theorem load_ret (p : Platform) (name : Bytes) (config : Option Bytes) :
    (serviceLoad (fun _ => 1) p.services name config).1 = (p.loads name config).isSome := by
  unfold serviceLoad onService loads
  cases findService p.services.rt name with
  | none => rfl
  | some i =>
    simp only [Option.bind_some]
    generalize p.services.rt.get i = s
    unfold loadSlot
    cases s.initFn with
    | none =>
      simp only [Option.map_none, ite_self]
      rfl
    | some fn =>
      cases s.enabled with
      | false => rfl
      | true => rfl

theorem command_ret {p : Platform} {name : Bytes} {plugin : Plugin}
    (h : p.commands name = some plugin) (rc : Int32) (cmd : Bytes) (args : Option Bytes) :
    (serviceCommand (fun _ => rc) p.services name (some cmd) args).1 = (rc != 0) := by
  obtain ⟨i, hfind, h⟩ := Option.bind_eq_some_iff.mp h
  obtain ⟨hruns, hfn⟩ := Option.ite_none_right_eq_some.mp h
  unfold serviceCommand onService
  rw [hfind]
  simp only [commandSlot, hfn]
  rw [if_neg (by simpa using hruns)]
  rfl

/-- What a load answers, and what becomes of the platform. -/
inductive Loaded (p : Platform) (name config : Bytes) : Bool × Platform → Prop where
  | refused {services : ServiceWorld Plugin Plugin} (h : ServesPlugins services) :
      Loaded p name config (false, { p with services := services })
  | inits {services : ServiceWorld Plugin Plugin} (h : ServesPlugins services)
      {plugin : Plugin} (hname : name = plugin.name) :
      Loaded p name config (true, { p.initPlugin config plugin with services := services })

theorem load_loaded {p : Platform} (h : ServesPlugins p.services) (name config : Bytes) :
    Loaded p name config (p.load name (some config)) := by
  have hserves : ServesPlugins (serviceLoad (fun _ => 1) p.services name (some config)).2 :=
    servesPlugins_onService h (ownCalls_loadSlot _ _) (fun s log => loadSlot_config _ s log _) name
  have hret := p.load_ret name (some config)
  unfold load
  cases hloads : p.loads name (some config) with
  | none =>
    rw [hloads, Option.isSome_none] at hret
    simp only [hret]
    exact .refused hserves
  | some call =>
    obtain ⟨plugin, text⟩ := call
    obtain ⟨hname, rfl⟩ := loads_named h hloads
    rw [hloads, Option.isSome_some] at hret
    simp only [hret]
    exact .inits hserves hname

/-- What a command answers, and what becomes of the platform. -/
inductive Commanded (p : Platform) (given : PortGiven) (name cmd args : Bytes) (outRoom : Nat) :
    PlatformAnswer → Prop where
  | refused : Commanded p given name cmd args outRoom ⟨false, [], p⟩
  | reaches {services : ServiceWorld Plugin Plugin} (h : ServesPlugins services)
      {plugin : Plugin} (hname : name = plugin.name) :
      Commanded p given name cmd args outRoom
        ⟨(p.commandPlugin given cmd args outRoom plugin).ret,
          (p.commandPlugin given cmd args outRoom plugin).out,
          { (p.commandPlugin given cmd args outRoom plugin).platform with services := services }⟩

theorem command_commanded {p : Platform} (h : ServesPlugins p.services) (given : PortGiven)
    (name cmd args : Bytes) (outRoom : Nat) :
    Commanded p given name cmd args outRoom (p.command given name cmd args outRoom) := by
  unfold command
  cases hcommands : p.commands name with
  | none => exact .refused
  | some plugin =>
    have hret := command_ret hcommands
      (if (p.commandPlugin given cmd args outRoom plugin).ret then 1 else 0) cmd (some args)
    have hrc : ((if (p.commandPlugin given cmd args outRoom plugin).ret then 1 else 0 : Int32)
        != 0) = (p.commandPlugin given cmd args outRoom plugin).ret := by
      cases (p.commandPlugin given cmd args outRoom plugin).ret with
      | false => rfl
      | true => rfl
    simp only [hret, hrc]
    refine .reaches ?_ (commands_named h hcommands)
    exact servesPlugins_onService h (ownCalls_commandSlot _ _ _)
      (fun s log => commandSlot_config _ s log _ _) name

end Platform

end Osfx
