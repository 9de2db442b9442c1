import Mathlib.Logic.Function.Basic
import Osfx.PortCommand

/-!
# The port forwarder plugin

The callbacks of `osfx_plugin_port_forwarder.c` and all commands. The rules are saved at a
close, or by command, and are loaded at an init whose configuration has a path, or by
command. A device that is restarted has lost what is in memory.

`RuleBook` says what this is for: the rules in the order they were registered, and for each
path those that were saved there last. `forwards_by_the_book` says that the forwarder follows
the book through all commands, closes, inits and restarts.
-/

namespace Osfx

open EventSystem SlotTable Scan Numeral

def pfPathMax : Nat := 260

/-- The callback and its context are left to the calls. -/
structure PortPlugin where
  forwarder : PortForwarder
  initialized : Bool
  persistPath : Bytes

/-- The content of a file that is there. -/
abbrev Files := Bytes → Option Bytes

/-- `osfx_plugin_port_forwarder_init_ctx`. -/
def portInitCtx : PortPlugin := ⟨pfInitCtx, false, []⟩

/-- `parse_config_path`: what is behind the first `path=`. -/
def parseConfigPath (config : Bytes) : Option Bytes :=
  (config.tails.find? fun rest => (ascii "path=").isPrefixOf rest).bind fun rest =>
    copyText pfPathMax (rest.drop 5)

/-- `osfx_plugin_port_forwarder_init`, and `osfx_plugin_port_forwarder_reload`. -/
def portInit (files : Files) (p : PortPlugin) (config : Option Bytes) : PortPlugin :=
  let p := { p with initialized := true }
  match config with
  | none => p
  | some config =>
    let p := { p with persistPath := (parseConfigPath config).getD p.persistPath }
    if p.persistPath = [] then p
    else { p with forwarder := (pfLoad p.forwarder (files p.persistPath)).1 }

/-- The rules written to a path, if it opens. -/
def portSave (p : PortPlugin) (path : Bytes) (opens : Bool) : Option (Bytes × Bytes) :=
  if opens then some (path, (pfSave p.forwarder true).1) else none

/-- `osfx_plugin_port_forwarder_close`, with the file it writes. -/
def portClose (p : PortPlugin) (opens : Bool) : PortPlugin × Option (Bytes × Bytes) :=
  ({ p with initialized := false },
    if p.persistPath = [] then none else portSave p p.persistPath opens)

/-! ## osfx_plugin_port_forwarder_command -/

/-- What a command does beside the forwarder: the file it writes. -/
structure PortAnswer where
  ret : Bool
  out : Bytes
  emitted : Option (Bytes × UInt16)
  plugin : PortPlugin
  written : Option (Bytes × Bytes)

/-- An answer that changes nothing. -/
def PortPlugin.say (p : PortPlugin) (ret : Bool) (outRoom : Nat) (text : Bytes) : PortAnswer :=
  ⟨ret, printOut outRoom text, none, p, none⟩

def portStatus (p : PortPlugin) : Bytes :=
  ascii "port_forwarder initialized=" ++ printInt p.initialized.toInt ++ ascii " forwarded=" ++
    decimal p.forwarder.totalForwarded.toNat ++ ascii " dropped=" ++
    decimal p.forwarder.totalDropped.toNat

def portStats (p : PortPlugin) : Bytes :=
  ascii "forwarded=" ++ decimal p.forwarder.totalForwarded.toNat ++ ascii " dropped=" ++
    decimal p.forwarder.totalDropped.toNat

def listedRule (r : PfRule) : Bytes :=
  r.name ++ ascii "(" ++ r.fromProto ++ ascii ":" ++
    (if r.hasFromPort then ascii "port" else ascii "*") ++ ascii "->" ++ r.toProto ++ ascii ":" ++
    decimal r.toPort.toNat ++ ascii ",hits=" ++ decimal r.hitCount.toNat ++ ascii ",en=" ++
    printInt r.enabled.toInt ++ ascii ")"

/-- The loop of `list`, behind what is printed already. It stops where the buffer is full. -/
def listRules (outRoom : Nat) : List PfRule → Bytes → Bool × Bytes
  | [], text => (true, text)
  | r :: rs, text =>
    let text := text ++ (if 6 < text.length then ascii ";" else []) ++ listedRule r
    if outRoom < text.length then (false, printOut outRoom text) else listRules outRoom rs text

/-- `list`. -/
def portList (p : PortPlugin) (outRoom : Nat) : Bool × Bytes :=
  if outRoom < (ascii "rules=").length then (false, printOut outRoom (ascii "rules="))
  else listRules outRoom (savedRules p.forwarder) (ascii "rules=")

/-- `"%31s %d"`. -/
def scanEnableRule (args : Bytes) : Option (Bytes × Int) := do
  let (name, rest) ← word 31 args
  let (enabled, _) ← i32 rest
  return (name, enabled)

/-- `remove-rule`. -/
def portRemoveRule (p : PortPlugin) (args : Option Bytes) (outRoom : Nat) : PortAnswer :=
  match args.bind (word 31) with
  | none => p.say false outRoom (ascii "error=usage remove-rule <name>")
  | some (name, _) =>
    let done := pfRemoveRule p.forwarder name
    if done.1 = false then p.say false outRoom (ascii "error=remove_rule_failed")
    else { p with forwarder := done.2 }.say true outRoom (ascii "ok=1 removed=" ++ name)

/-- `enable-rule`. -/
def portEnableRule (p : PortPlugin) (args : Option Bytes) (outRoom : Nat) : PortAnswer :=
  match args.bind scanEnableRule with
  | none => p.say false outRoom (ascii "error=usage enable-rule <name> <0|1>")
  | some (name, enabled) =>
    let done := pfSetRuleEnabled p.forwarder name (enabled != 0)
    if done.1 = false then p.say false outRoom (ascii "error=enable_rule_failed")
    else { p with forwarder := done.2 }.say true outRoom (ascii "ok=1 rule=" ++ name ++
      ascii " enabled=" ++ printInt (enabled != 0).toInt)

/-- The path of `save` and `load`. -/
def commandPath (p : PortPlugin) (args : Option Bytes) : Bytes :=
  (args.filter (· ≠ [])).getD p.persistPath

/-- `save`. -/
def portSaveCommand (p : PortPlugin) (args : Option Bytes) (outRoom : Nat) (opens : Bool) :
    PortAnswer :=
  if commandPath p args = [] ∨ opens = false then p.say false outRoom (ascii "error=save_failed")
  else { p.say true outRoom (ascii "ok=1 saved=" ++ commandPath p args) with
    written := portSave p (commandPath p args) opens }

/-- `load`. -/
def portLoadCommand (files : Files) (p : PortPlugin) (args : Option Bytes) (outRoom : Nat) :
    PortAnswer :=
  let loaded := pfLoad p.forwarder (files (commandPath p args))
  if commandPath p args = [] ∨ loaded.2 = false then
    p.say false outRoom (ascii "error=load_failed")
  else { p with forwarder := loaded.1 }.say true outRoom
    (ascii "ok=1 loaded=" ++ commandPath p args)

/-- An answer of `add-rule` or `forward`. -/
def PortPlugin.answer (p : PortPlugin) (c : PfCommand) : PortAnswer :=
  ⟨c.ret, c.out, c.emitted, { p with forwarder := c.plugin }, none⟩

/-- The commands there are. -/
inductive PortCmd where
  | status | stats | list | addRule | removeRule | enableRule | forward | save | load
  deriving DecidableEq

def portCmd (cmd : Bytes) : Option PortCmd :=
  if cmd = ascii "status" then some .status
  else if cmd = ascii "stats" then some .stats
  else if cmd = ascii "list" then some .list
  else if cmd = ascii "add-rule" then some .addRule
  else if cmd = ascii "remove-rule" then some .removeRule
  else if cmd = ascii "enable-rule" then some .enableRule
  else if cmd = ascii "forward" then some .forward
  else if cmd = ascii "save" then some .save
  else if cmd = ascii "load" then some .load
  else none

/-- `osfx_plugin_port_forwarder_command`. -/
def portCommand (files : Files) (p : PortPlugin)
    (emitFn : Option (Bytes → UInt16 → Bytes → Bool)) (cmd : Bytes) (args : Option Bytes)
    (outRoom : Nat) (opens : Bool) : PortAnswer :=
  match portCmd cmd with
  | some .status => p.say true outRoom (portStatus p)
  | some .stats => p.say true outRoom (portStats p)
  | some .list => ⟨(portList p outRoom).1, (portList p outRoom).2, none, p, none⟩
  | some .addRule => p.answer (pfAddRuleCommand p.forwarder args outRoom)
  | some .removeRule => portRemoveRule p args outRoom
  | some .enableRule => portEnableRule p args outRoom
  | some .forward => p.answer (pfForwardCommand p.forwarder emitFn args outRoom)
  | some .save => portSaveCommand p args outRoom opens
  | some .load => portLoadCommand files p args outRoom
  | none => p.say false outRoom (ascii "error=unknown_cmd")

/-! ## The book -/

/-- The rules as they were registered, and those that were saved to each path. -/
structure RuleBook where
  rules : List RegisteredRule
  saved : Bytes → Option (List RegisteredRule)

namespace RuleBook

def apply (b : RuleBook) (op : PfOp) : RuleBook :=
  { b with rules := RegisteredRule.after b.rules op }

def save (b : RuleBook) (path : Bytes) : RuleBook :=
  { b with saved := Function.update b.saved path (some b.rules) }

/-- A path nothing was saved to leaves the rules as they are. -/
def load (b : RuleBook) (path : Bytes) : RuleBook :=
  { b with rules := (b.saved path).getD b.rules }

def restart (b : RuleBook) : RuleBook := { b with rules := [] }

end RuleBook

/-- The call a command stands for, where its arguments can be read. -/
def typedOp (emitFn : Option (Bytes → UInt16 → Bytes → Bool)) (args : Option Bytes) :
    PortCmd → Option PfOp
  | .addRule => (args.bind scanAddRule).map fun r =>
      .addRule r.name r.fromProto r.fromPortToken r.toProto r.toPort.toUInt16
  | .removeRule => (args.bind (word 31)).map fun w => .removeRule w.1
  | .enableRule => (args.bind scanEnableRule).map fun r => .setRuleEnabled r.1 (r.2 != 0)
  | .forward => (args.bind scanForward).bind fun r => (pfHexToBytes r.hex 512).map fun payload =>
      .forward emitFn r.fromProto r.fromPort.toUInt16 payload 64
  | _ => none

/-- What a command that returns 1 does to the book. -/
def RuleBook.command (b : RuleBook) (path : Bytes)
    (emitFn : Option (Bytes → UInt16 → Bytes → Bool)) (args : Option Bytes) : PortCmd → RuleBook
  | .save => b.save path
  | .load => b.load path
  | cmd => ((typedOp emitFn args cmd).map b.apply).getD b

/-! ## A device with the plugin -/

/-- The plugin, the files there are, and the book. -/
structure PortNode where
  plugin : PortPlugin
  files : Files
  book : RuleBook

inductive PortEvent where
  | restart
  | init (config : Option Bytes)
  | close (opens : Bool)
  | command (emitFn : Option (Bytes → UInt16 → Bytes → Bool)) (cmd : Bytes) (args : Option Bytes)
      (outRoom : Nat) (opens : Bool)

/-- No file is there, and nothing is in the book. -/
def portNodeInit : PortNode := ⟨portInitCtx, fun _ => none, ⟨[], fun _ => none⟩⟩

def writeFile (files : Files) : Option (Bytes × Bytes) → Files
  | none => files
  | some (path, file) => Function.update files path (some file)

/-- The path an init loads from. -/
def initPath (p : PortPlugin) (config : Option Bytes) : Bytes :=
  config.elim [] fun config => (parseConfigPath config).getD p.persistPath

def portStep (w : PortNode) : PortEvent → Option PortNode
  | .restart => some ⟨portInitCtx, w.files, w.book.restart⟩
  | .init config =>
    some ⟨portInit w.files w.plugin config, w.files,
      if initPath w.plugin config = [] then w.book else w.book.load (initPath w.plugin config)⟩
  | .close opens =>
    let (plugin, written) := portClose w.plugin opens
    some ⟨plugin, writeFile w.files written,
      if written.isSome then w.book.save w.plugin.persistPath else w.book⟩
  | .command emitFn cmd args outRoom opens =>
    let answer := portCommand w.files w.plugin emitFn cmd args outRoom opens
    some ⟨answer.plugin, writeFile w.files answer.written,
      if answer.ret then
        ((portCmd cmd).map (w.book.command (commandPath w.plugin args) emitFn args)).getD w.book
      else w.book⟩

/-- What is typed has no comma in it, and a rule with a new name goes behind those there are. -/
def AppendsRule (p : PortForwarder) (text : Bytes) : Prop :=
  comma ∉ text ∧ 0 ∉ text ∧
  ∀ r i, scanAddRule text = some r → findRule p.rules r.name = none →
    ruleSlot p.rules r.name = some i → ∀ j, (p.rules.get j).used = true → j < i

def PortGuard (w : PortNode) : PortEvent → Prop
  | .command _ cmd args _ _ =>
    portCmd cmd = some .addRule → ∀ text, args = some text → AppendsRule w.plugin.forwarder text
  | _ => True

/-! ## Rules that are read back -/

structure ReadBack (r : PfRule) : Prop where
  fit : TextsFit r.name r.fromProto r.toProto
  savable : SavableTexts r

/-- The forwarder has the rules of the book, and would read them back from a file. -/
structure Follows (p : PortForwarder) (rules : List RegisteredRule) : Prop where
  inSlots : InSlots p.rules rules
  texts : ∀ i, (p.rules.get i).used = true → ReadBack (p.rules.get i)

/-- A file that is there was saved from a forwarder that had the rules. -/
inductive OnFile : Option Bytes → Option (List RegisteredRule) → Prop where
  | absent : OnFile none none
  | saved {q : PortForwarder} {rules : List RegisteredRule} (h : Follows q rules) :
      OnFile (some (pfSave q true).1) (some rules)

structure NodeOk (w : PortNode) : Prop where
  follows : Follows w.plugin.forwarder w.book.rules
  onFile : ∀ path, OnFile (w.files path) (w.book.saved path)

theorem follows_empty : Follows pfInitCtx [] where
  inSlots := inSlots_init
  texts i hi := by
    rw [pfInitCtx, get_replicate] at hi
    cases hi

theorem Follows.saved {p : PortForwarder} {rules : List RegisteredRule} (h : Follows p rules) :
    ∀ r ∈ savedRules p, ReadBack r := by
  intro r hr
  obtain ⟨i, rfl, hi⟩ := mem_savedRules.mp hr
  exact h.texts i hi

/-- A forwarder with the same rules in the same order follows the same book. -/
theorem Follows.congr {p q : PortForwarder} {rules : List RegisteredRule} (h : Follows p rules)
    (hsame : savedRules q = savedRules p) : Follows q rules := by
  have hsaved : usedSlots PfRule.used q.rules = usedSlots PfRule.used p.rules := hsame
  have hnames : ((usedSlots PfRule.used q.rules).map PfRule.name).Nodup := by
    rw [hsaved]
    exact h.inSlots.distinct.nodup_keys
  refine ⟨⟨distinct_of_nodup hnames, ?_⟩, ?_⟩
  · rw [hsaved]
    exact h.inSlots.rules_eq
  · intro i hi
    apply h.saved
    rw [← hsame]
    exact mem_savedRules.mpr ⟨i, rfl, hi⟩

theorem Follows.load {q : PortForwarder} {rules : List RegisteredRule} (h : Follows q rules)
    (target : PortForwarder) : Follows (pfLoad target (some (pfSave q true).1)).1 rules := by
  apply h.congr
  apply load_savedRules target
  · exact fun r hr => (h.saved r hr).fit
  · exact fun r hr => (h.saved r hr).savable

/-- A load brings the rules that were saved to its path, or none was. -/
theorem follows_load {w : PortNode} (h : NodeOk w) (path : Bytes) :
    Follows (pfLoad w.plugin.forwarder (w.files path)).1 (w.book.load path).rules := by
  have hfile := h.onFile path
  unfold RuleBook.load
  revert hfile
  generalize w.files path = file, w.book.saved path = saved
  intro hfile
  cases hfile with
  | absent => exact h.follows
  | saved hq => exact hq.load w.plugin.forwarder

theorem onFile_save {w : PortNode} (h : NodeOk w) (path : Bytes) (other : Bytes) :
    OnFile (writeFile w.files (some (path, (pfSave w.plugin.forwarder true).1)) other)
      ((w.book.save path).saved other) := by
  simp only [writeFile, RuleBook.save]
  by_cases hother : other = path
  · subst hother
    rw [Function.update_self, Function.update_self]
    exact OnFile.saved h.follows
  · rw [Function.update_of_ne hother, Function.update_of_ne hother]
    exact h.onFile other

/-! ## What a call keeps -/

/-- The texts of a rule that a call adds are read back. -/
def AddsReadBack : PfOp → Prop
  | .addRule name fromProto _ toProto _ =>
    TextsFit name fromProto toProto ∧ Savable name ∧ Savable fromProto ∧ Savable toProto
  | _ => True

section
variable {p : PortForwarder} (h : ∀ i, (p.rules.get i).used = true → ReadBack (p.rules.get i))
include h

theorem texts_set (i : Fin pfRuleMax) {r : PfRule} (hr : r.used = true → ReadBack r)
    (j : Fin pfRuleMax) (hj : ((p.rules.set i r i.isLt).get j).used = true) :
    ReadBack ((p.rules.set i r i.isLt).get j) :=
  forall_set (P := fun _ (q : PfRule) => q.used = true → ReadBack q) hr (fun k _ => h k) j hj

theorem texts_forward (emitFn : Option (Bytes → UInt16 → Bytes → Bool)) (fromProto : Bytes)
    (fromPort : UInt16) (payload : Bytes) (outRouteCap : Nat) (j : Fin pfRuleMax)
    (hj : ((pfForward p emitFn fromProto fromPort payload outRouteCap).plugin.rules.get j).used =
      true) :
    ReadBack ((pfForward p emitFn fromProto fromPort payload outRouteCap).plugin.rules.get j) := by
  revert j hj
  cases emitFn with
  | none => exact h
  | some emit =>
    cases hfind : findSlot p.rules fun r => r.used && r.accepts fromProto fromPort with
    | none =>
      rw [pfForward_not_found emit payload outRouteCap hfind]
      exact h
    | some i =>
      simp only [pfForward, hfind]
      cases emit (p.rules.get i).toProto (p.rules.get i).toPort payload with
      | false => exact h
      | true =>
        refine texts_set h i fun hi => ?_
        exact ⟨(h i hi).fit, ⟨(h i hi).savable.name, (h i hi).savable.fromProto,
          (h i hi).savable.toProto⟩⟩

theorem texts_call {op : PfOp} (hop : AddsReadBack op) (j : Fin pfRuleMax)
    (hj : ((pfCall p op).2.rules.get j).used = true) :
    ReadBack ((pfCall p op).2.rules.get j) := by
  revert j hj
  cases op with
  | addRule name fromProto fromPortToken toProto toPort =>
    obtain ⟨hfit, hname, hfrom, hto⟩ := hop
    simp only [pfCall]
    rcases pfAddRule_cases p name fromProto fromPortToken toProto toPort with
      hadd | ⟨-, port, hasPort, i, -, -, hadd⟩
    · rw [hadd]
      exact h
    · rw [hadd, copyRuleTexts_fit _ hfit]
      exact texts_set h i fun _ => ⟨hfit, hname, hfrom, hto⟩
  | removeRule name =>
    simp only [pfCall]
    rcases pfRemoveRule_cases p name with hremove | ⟨i, -, hremove⟩
    · rw [hremove]
      exact h
    · rw [hremove]
      exact texts_set h i fun hi => Bool.noConfusion hi
  | setRuleEnabled name enabled =>
    simp only [pfCall]
    rcases pfSetRuleEnabled_cases p name enabled with hset | ⟨i, -, hset⟩
    · rw [hset]
      exact h
    · rw [hset]
      refine texts_set h i fun hi => ?_
      exact ⟨(h i hi).fit, ⟨(h i hi).savable.name, (h i hi).savable.fromProto,
        (h i hi).savable.toProto⟩⟩
  | forward emitFn fromProto fromPort payload outRouteCap =>
    exact texts_forward h emitFn fromProto fromPort payload outRouteCap

end

theorem Follows.call {p : PortForwarder} {rules : List RegisteredRule} (h : Follows p rules)
    {op : PfOp} (hguard : OrderGuard ⟨p, rules⟩ op) (hop : AddsReadBack op) :
    Follows (pfCall p op).2
      (if (pfCall p op).1 then RegisteredRule.after rules op else rules) where
  inSlots := inSlots_step (w := ⟨p, rules⟩) h.inSlots hguard rfl
  texts := texts_call h.texts hop

/-! ## What is typed -/

theorem savable_word {width : Nat} {text run rest : Bytes} (hcomma : comma ∉ text)
    (hnul : 0 ∉ text) (h : word width text = some (run, rest)) :
    Savable run ∧ comma ∉ rest ∧ 0 ∉ rest := by
  obtain ⟨hsplit, hne, -, hrun⟩ := scanSet_some h
  have hin : ∀ b ∈ run ++ rest, b ∈ text := by
    intro b hb
    rw [← hsplit] at hb
    exact (List.dropWhile_sublist _).mem hb
  refine ⟨⟨hne, ?_, ?_, ?_⟩, ?_, ?_⟩
  · exact fun hmem => hcomma (hin _ (List.mem_append_left _ hmem))
  · exact fun hmem => absurd (hrun _ hmem) (by decide)
  · exact fun hmem => hnul (hin _ (List.mem_append_left _ hmem))
  · exact fun hmem => hcomma (hin _ (List.mem_append_right _ hmem))
  · exact fun hmem => hnul (hin _ (List.mem_append_right _ hmem))

theorem savable_scanAddRule {text : Bytes} {r : AddRuleArgs} (hcomma : comma ∉ text)
    (hnul : 0 ∉ text) (h : scanAddRule text = some r) :
    Savable r.name ∧ Savable r.fromProto ∧ Savable r.toProto := by
  simp only [scanAddRule, Option.bind_eq_bind] at h
  obtain ⟨⟨name, rest₁⟩, hname, h⟩ := Option.bind_eq_some_iff.mp h
  obtain ⟨⟨fromProto, rest₂⟩, hfrom, h⟩ := Option.bind_eq_some_iff.mp h
  obtain ⟨⟨token, rest₃⟩, htoken, h⟩ := Option.bind_eq_some_iff.mp h
  obtain ⟨⟨toProto, rest₄⟩, hto, h⟩ := Option.bind_eq_some_iff.mp h
  obtain ⟨⟨toPort, rest₅⟩, hport, h⟩ := Option.bind_eq_some_iff.mp h
  cases h
  obtain ⟨hname, hcomma, hnul⟩ := savable_word hcomma hnul hname
  obtain ⟨hfrom, hcomma, hnul⟩ := savable_word hcomma hnul hfrom
  obtain ⟨-, hcomma, hnul⟩ := savable_word hcomma hnul htoken
  exact ⟨hname, hfrom, (savable_word hcomma hnul hto).1⟩

/-- What the guard gives of the call a command stands for. -/
theorem typedOp_guarded {p : PortForwarder} {rules : List RegisteredRule}
    {emitFn : Option (Bytes → UInt16 → Bytes → Bool)} {args : Option Bytes} {cmd : PortCmd}
    (hguard : cmd = .addRule → ∀ text, args = some text → AppendsRule p text) {op : PfOp}
    (h : typedOp emitFn args cmd = some op) : OrderGuard ⟨p, rules⟩ op ∧ AddsReadBack op := by
  cases cmd with
  | addRule =>
    obtain ⟨r, hscan, rfl⟩ := Option.map_eq_some_iff.mp h
    obtain ⟨text, rfl, hscan⟩ := Option.bind_eq_some_iff.mp hscan
    obtain ⟨hcomma, hnul, hbehind⟩ := hguard rfl text rfl
    obtain ⟨-, -, -, -, -, -, hfit⟩ := scanAddRule_some hscan
    refine ⟨fun _ _ i hslot => ⟨hfit, fun hnew => hbehind r i hscan hnew hslot⟩, hfit, ?_⟩
    exact savable_scanAddRule hcomma hnul hscan
  | removeRule =>
    obtain ⟨_, -, rfl⟩ := Option.map_eq_some_iff.mp h
    exact ⟨trivial, trivial⟩
  | enableRule =>
    obtain ⟨_, -, rfl⟩ := Option.map_eq_some_iff.mp h
    exact ⟨trivial, trivial⟩
  | forward =>
    obtain ⟨_, -, h⟩ := Option.bind_eq_some_iff.mp h
    obtain ⟨_, -, rfl⟩ := Option.map_eq_some_iff.mp h
    exact ⟨trivial, trivial⟩
  | status => cases h
  | stats => cases h
  | list => cases h
  | save => cases h
  | load => cases h

/-! ## What a command does -/

/-- The answer to a command that stands for a call. -/
structure AnswersCall (p : PortPlugin) (done : Bool × PortForwarder) (answer : PortAnswer) :
    Prop where
  ret : answer.ret = done.1
  plugin : answer.plugin = { p with forwarder := done.2 }
  written : answer.written = none

/-- An answer that leaves the plugin and the files as they are. -/
structure LeavesPlugin (p : PortPlugin) (answer : PortAnswer) : Prop where
  plugin : answer.plugin = p
  written : answer.written = none

theorem leaves_say (p : PortPlugin) (ret : Bool) (outRoom : Nat) (text : Bytes) :
    LeavesPlugin p (p.say ret outRoom text) := ⟨rfl, rfl⟩

section
variable {p : PortPlugin} {args : Option Bytes} {op : PfOp} (outRoom : Nat)

theorem addRule_answers (emitFn : Option (Bytes → UInt16 → Bytes → Bool))
    (h : typedOp emitFn args .addRule = some op) :
    AnswersCall p (pfCall p.forwarder op)
      (p.answer (pfAddRuleCommand p.forwarder args outRoom)) := by
  obtain ⟨r, hscan, rfl⟩ := Option.map_eq_some_iff.mp h
  simp only [PortPlugin.answer, pfAddRuleCommand, hscan, pfCall]
  generalize pfAddRule p.forwarder r.name r.fromProto r.fromPortToken r.toProto
    r.toPort.toUInt16 = added
  obtain ⟨ret, plugin⟩ := added
  cases ret with
  | false => exact ⟨rfl, rfl, rfl⟩
  | true => exact ⟨rfl, rfl, rfl⟩

theorem removeRule_answers (emitFn : Option (Bytes → UInt16 → Bytes → Bool))
    (h : typedOp emitFn args .removeRule = some op) :
    AnswersCall p (pfCall p.forwarder op) (portRemoveRule p args outRoom) := by
  obtain ⟨w, hword, rfl⟩ := Option.map_eq_some_iff.mp h
  simp only [portRemoveRule, hword, pfCall]
  rcases pfRemoveRule_cases p.forwarder w.1 with hremove | ⟨i, -, hremove⟩
  · rw [hremove]
    exact ⟨rfl, rfl, rfl⟩
  · rw [hremove]
    exact ⟨rfl, rfl, rfl⟩

theorem enableRule_answers (emitFn : Option (Bytes → UInt16 → Bytes → Bool))
    (h : typedOp emitFn args .enableRule = some op) :
    AnswersCall p (pfCall p.forwarder op) (portEnableRule p args outRoom) := by
  obtain ⟨r, hscan, rfl⟩ := Option.map_eq_some_iff.mp h
  simp only [portEnableRule, hscan, pfCall]
  rcases pfSetRuleEnabled_cases p.forwarder r.1 (r.2 != 0) with hset | ⟨i, -, hset⟩
  · rw [hset]
    exact ⟨rfl, rfl, rfl⟩
  · rw [hset]
    exact ⟨rfl, rfl, rfl⟩

theorem forward_answers (emitFn : Option (Bytes → UInt16 → Bytes → Bool))
    (h : typedOp emitFn args .forward = some op) :
    AnswersCall p (pfCall p.forwarder op)
      (p.answer (pfForwardCommand p.forwarder emitFn args outRoom)) := by
  obtain ⟨r, hscan, h⟩ := Option.bind_eq_some_iff.mp h
  obtain ⟨payload, hhex, rfl⟩ := Option.map_eq_some_iff.mp h
  simp only [PortPlugin.answer, pfForwardCommand, hscan, hhex, pfCall]
  generalize pfForward p.forwarder emitFn r.fromProto r.fromPort.toUInt16 payload 64 = forward
  obtain ⟨ret, emitted, route, plugin⟩ := forward
  cases ret with
  | false => exact ⟨rfl, rfl, rfl⟩
  | true => exact ⟨rfl, rfl, rfl⟩

end

section
variable {p : PortPlugin} {files : Files} {emitFn : Option (Bytes → UInt16 → Bytes → Bool)}
  {text : Bytes} {cmd : PortCmd} {args : Option Bytes} (outRoom : Nat) (opens : Bool)
  (hcmd : portCmd text = some cmd)
include hcmd

theorem portCommand_answers {op : PfOp} (h : typedOp emitFn args cmd = some op) :
    AnswersCall p (pfCall p.forwarder op) (portCommand files p emitFn text args outRoom opens) := by
  unfold portCommand
  rw [hcmd]
  cases cmd with
  | addRule => exact addRule_answers outRoom emitFn h
  | removeRule => exact removeRule_answers outRoom emitFn h
  | enableRule => exact enableRule_answers outRoom emitFn h
  | forward => exact forward_answers outRoom emitFn h
  | status => cases h
  | stats => cases h
  | list => cases h
  | save => cases h
  | load => cases h

/-- A command whose arguments cannot be read, or that only prints. -/
theorem portCommand_leaves (h : typedOp emitFn args cmd = none) (hsave : cmd ≠ .save)
    (hload : cmd ≠ .load) :
    LeavesPlugin p (portCommand files p emitFn text args outRoom opens) := by
  unfold portCommand
  rw [hcmd]
  cases cmd with
  | status => exact leaves_say p true outRoom _
  | stats => exact leaves_say p true outRoom _
  | list => exact ⟨rfl, rfl⟩
  | addRule =>
    have hscan := Option.map_eq_none_iff.mp h
    simp only [pfAddRuleCommand, hscan]
    exact ⟨rfl, rfl⟩
  | removeRule =>
    have hword := Option.map_eq_none_iff.mp h
    simp only [portRemoveRule, hword]
    exact leaves_say p false outRoom _
  | enableRule =>
    have hscan := Option.map_eq_none_iff.mp h
    simp only [portEnableRule, hscan]
    exact leaves_say p false outRoom _
  | forward =>
    unfold pfForwardCommand
    cases hscan : args.bind scanForward with
    | none => exact ⟨rfl, rfl⟩
    | some r =>
      rw [typedOp, hscan, Option.bind_some, Option.map_eq_none_iff] at h
      simp only [h]
      exact ⟨rfl, rfl⟩
  | save => exact absurd rfl hsave
  | load => exact absurd rfl hload

end

/-- A save that returns 1 has written the rules to its path, and another nothing. -/
theorem portSaveCommand_cases (p : PortPlugin) (args : Option Bytes) (outRoom : Nat)
    (opens : Bool) :
    (portSaveCommand p args outRoom opens).plugin = p ∧
    ((portSaveCommand p args outRoom opens).ret = false ∧
      (portSaveCommand p args outRoom opens).written = none ∨
    (portSaveCommand p args outRoom opens).ret = true ∧
      (portSaveCommand p args outRoom opens).written =
        some (commandPath p args, (pfSave p.forwarder true).1)) := by
  unfold portSaveCommand
  by_cases hfails : commandPath p args = [] ∨ opens = false
  · rw [if_pos hfails]
    exact ⟨rfl, Or.inl ⟨rfl, rfl⟩⟩
  · rw [if_neg hfails]
    have hopens : opens = true := by
      cases opens with
      | false => exact absurd (Or.inr rfl) hfails
      | true => rfl
    refine ⟨rfl, Or.inr ⟨rfl, ?_⟩⟩
    simp only [portSave, hopens, if_true]

/-- A load that returns 1 has loaded the file of its path, and another nothing. -/
theorem portLoadCommand_cases (files : Files) (p : PortPlugin) (args : Option Bytes)
    (outRoom : Nat) :
    (portLoadCommand files p args outRoom).written = none ∧
    ((portLoadCommand files p args outRoom).ret = false ∧
      (portLoadCommand files p args outRoom).plugin = p ∨
    (portLoadCommand files p args outRoom).ret = true ∧
      (portLoadCommand files p args outRoom).plugin =
        { p with forwarder := (pfLoad p.forwarder (files (commandPath p args))).1 }) := by
  unfold portLoadCommand
  simp only
  split
  · exact ⟨rfl, Or.inl ⟨rfl, rfl⟩⟩
  · exact ⟨rfl, Or.inr ⟨rfl, rfl⟩⟩

/-! ## Runs -/

theorem nodeOk_write {w : PortNode} (h : NodeOk w) (plugin : PortPlugin)
    (hsame : plugin.forwarder = w.plugin.forwarder) (path : Bytes) :
    NodeOk ⟨plugin, writeFile w.files (some (path, (pfSave w.plugin.forwarder true).1)),
      w.book.save path⟩ where
  follows := by
    rw [hsame]
    exact h.follows
  onFile := onFile_save h path

theorem portInit_forwarder (files : Files) (p : PortPlugin) (config : Option Bytes) :
    (portInit files p config).forwarder =
      if initPath p config = [] then p.forwarder
      else (pfLoad p.forwarder (files (initPath p config))).1 := by
  cases config with
  | none => rfl
  | some config =>
    simp only [portInit, initPath, Option.elim_some]
    exact apply_ite PortPlugin.forwarder _ _ _

theorem nodeOk_init {w : PortNode} (h : NodeOk w) (config : Option Bytes) :
    NodeOk ⟨portInit w.files w.plugin config, w.files,
      if initPath w.plugin config = [] then w.book
      else w.book.load (initPath w.plugin config)⟩ := by
  have hinit := portInit_forwarder w.files w.plugin config
  by_cases hpath : initPath w.plugin config = []
  · rw [if_pos hpath] at hinit ⊢
    exact ⟨by rw [hinit]; exact h.follows, h.onFile⟩
  · rw [if_neg hpath] at hinit ⊢
    exact ⟨by rw [hinit]; exact follows_load h _, h.onFile⟩

theorem nodeOk_close {w w' : PortNode} (h : NodeOk w) {opens : Bool}
    (hstep : portStep w (.close opens) = some w') : NodeOk w' := by
  cases hstep
  by_cases hpath : w.plugin.persistPath = []
  · simp only [if_pos hpath]
    exact ⟨h.follows, h.onFile⟩
  · simp only [if_neg hpath]
    cases opens with
    | false => exact ⟨h.follows, h.onFile⟩
    | true => exact nodeOk_write h { w.plugin with initialized := false } rfl _

/-- What a command with this answer makes of the device. -/
def PortNode.answered (w : PortNode) (answer : PortAnswer) (book : RuleBook) : PortNode :=
  ⟨answer.plugin, writeFile w.files answer.written, if answer.ret then book else w.book⟩

theorem nodeOk_call {w : PortNode} (h : NodeOk w) {op : PfOp}
    (hguard : OrderGuard ⟨w.plugin.forwarder, w.book.rules⟩ op) (hop : AddsReadBack op)
    {answer : PortAnswer} (hanswer : AnswersCall w.plugin (pfCall w.plugin.forwarder op) answer) :
    NodeOk (w.answered answer (w.book.apply op)) := by
  have hcall := h.follows.call hguard hop
  obtain ⟨ret, out, emitted, plugin, written⟩ := answer
  obtain ⟨rfl, rfl, rfl⟩ := hanswer
  unfold PortNode.answered
  revert hcall
  generalize pfCall w.plugin.forwarder op = done
  obtain ⟨ret, forwarder⟩ := done
  intro hcall
  cases ret with
  | false => exact ⟨hcall, h.onFile⟩
  | true => exact ⟨hcall, h.onFile⟩

theorem nodeOk_leaves {w : PortNode} (h : NodeOk w) {answer : PortAnswer}
    (hanswer : LeavesPlugin w.plugin answer) : NodeOk (w.answered answer w.book) := by
  unfold PortNode.answered
  rw [ite_self, hanswer.plugin, hanswer.written]
  exact ⟨h.follows, h.onFile⟩

theorem nodeOk_save {w : PortNode} (h : NodeOk w) (args : Option Bytes) (outRoom : Nat)
    (opens : Bool) : NodeOk (w.answered (portSaveCommand w.plugin args outRoom opens)
      (w.book.save (commandPath w.plugin args))) := by
  have hcases := portSaveCommand_cases w.plugin args outRoom opens
  revert hcases
  generalize portSaveCommand w.plugin args outRoom opens = answer
  obtain ⟨ret, out, emitted, plugin, written⟩ := answer
  rintro ⟨rfl, ⟨rfl, rfl⟩ | ⟨rfl, rfl⟩⟩
  · exact ⟨h.follows, h.onFile⟩
  · exact nodeOk_write h _ rfl _

theorem nodeOk_load {w : PortNode} (h : NodeOk w) (args : Option Bytes) (outRoom : Nat) :
    NodeOk (w.answered (portLoadCommand w.files w.plugin args outRoom)
      (w.book.load (commandPath w.plugin args))) := by
  have hcases := portLoadCommand_cases w.files w.plugin args outRoom
  revert hcases
  generalize portLoadCommand w.files w.plugin args outRoom = answer
  obtain ⟨ret, out, emitted, plugin, written⟩ := answer
  rintro ⟨rfl, ⟨rfl, rfl⟩ | ⟨rfl, rfl⟩⟩
  · exact ⟨h.follows, h.onFile⟩
  · exact ⟨follows_load h _, h.onFile⟩

section
variable (b : RuleBook) (path : Bytes) {emitFn : Option (Bytes → UInt16 → Bytes → Bool)}
  {args : Option Bytes} {cmd : PortCmd}

theorem command_call {op : PfOp} (h : typedOp emitFn args cmd = some op) :
    b.command path emitFn args cmd = b.apply op := by
  have happly : ((typedOp emitFn args cmd).map b.apply).getD b = b.apply op := by
    rw [h, Option.map_some, Option.getD_some]
  cases cmd with
  | save => cases h
  | load => cases h
  | status | stats | list | addRule | removeRule | enableRule | forward => exact happly

theorem command_leaves (h : typedOp emitFn args cmd = none) (hsave : cmd ≠ .save)
    (hload : cmd ≠ .load) : b.command path emitFn args cmd = b := by
  have hleaves : ((typedOp emitFn args cmd).map b.apply).getD b = b := by
    rw [h, Option.map_none, Option.getD_none]
  cases cmd with
  | save => exact absurd rfl hsave
  | load => exact absurd rfl hload
  | status | stats | list | addRule | removeRule | enableRule | forward => exact hleaves

end

theorem nodeOk_command {w w' : PortNode} (h : NodeOk w)
    {emitFn : Option (Bytes → UInt16 → Bytes → Bool)} {text : Bytes} {args : Option Bytes}
    {outRoom : Nat} {opens : Bool} (hguard : PortGuard w (.command emitFn text args outRoom opens))
    (hstep : portStep w (.command emitFn text args outRoom opens) = some w') : NodeOk w' := by
  have hstep' : w.answered (portCommand w.files w.plugin emitFn text args outRoom opens)
      (((portCmd text).map (w.book.command (commandPath w.plugin args) emitFn args)).getD w.book) =
      w' := Option.some.inj hstep
  rw [← hstep']
  cases hcmd : portCmd text with
  | none =>
    unfold portCommand
    rw [hcmd]
    exact nodeOk_leaves h (leaves_say _ _ _ _)
  | some cmd =>
    rw [Option.map_some, Option.getD_some]
    cases hop : typedOp emitFn args cmd with
    | some op =>
      obtain ⟨hg, hadds⟩ := typedOp_guarded (fun he => hguard (he ▸ hcmd)) hop
      rw [command_call _ _ hop]
      exact nodeOk_call h hg hadds (portCommand_answers outRoom opens hcmd hop)
    | none =>
      by_cases hsave : cmd = .save
      · subst hsave
        unfold portCommand
        rw [hcmd]
        exact nodeOk_save h args outRoom opens
      · by_cases hload : cmd = .load
        · subst hload
          unfold portCommand
          rw [hcmd]
          exact nodeOk_load h args outRoom
        · rw [command_leaves _ _ hop hsave hload]
          exact nodeOk_leaves h (portCommand_leaves outRoom opens hcmd hop hsave hload)

theorem portStep_nodeOk (w : PortNode) (e : PortEvent) (w' : PortNode) (h : NodeOk w)
    (hguard : PortGuard w e) (hstep : portStep w e = some w') : NodeOk w' := by
  cases e with
  | restart =>
    cases hstep
    exact ⟨follows_empty, h.onFile⟩
  | init config =>
    cases hstep
    exact nodeOk_init h config
  | close opens => exact nodeOk_close h hstep
  | command emitFn text args outRoom opens => exact nodeOk_command h hguard hstep

/-- In every run of commands, closes, inits and restarts what is forwarded goes by the first
rule of the book, if no rule is typed with a comma in it and each new one goes behind those
there are. -/
theorem forwards_by_the_book {es : List PortEvent} (h : Each portStep PortGuard portNodeInit es) :
    Always portStep (fun w => InOrder ⟨w.plugin.forwarder, w.book.rules⟩) portNodeInit es :=
  have hinit : NodeOk portNodeInit := ⟨follows_empty, fun _ => OnFile.absent⟩
  always_mono _ (fun _ hw => inOrder_of_inSlots hw.follows.inSlots)
    (always_of_each _ portStep_nodeOk hinit h)

/-- A rule that is typed, saved at the close and loaded by the init after a restart. -/
def webRuleKept : List PortEvent :=
  [.init (some (ascii "path=r")),
    .command none (ascii "add-rule") (some (ascii "web udp 80 tcp 443")) 0 true,
    .close true, .restart, .init (some (ascii "path=r"))]

/-- It is followed after the restart. -/
theorem webRuleKept_followed :
    (run portStep portNodeInit webRuleKept).map (fun w =>
      (pfForward w.plugin.forwarder (some fun _ _ _ => true) (ascii "udp") 80 [] 0).emitted) =
        some (some (ascii "tcp", 443)) ∧
    Always portStep (fun w => InOrder ⟨w.plugin.forwarder, w.book.rules⟩) portNodeInit
      webRuleKept := by
  refine ⟨by decide +kernel, forwards_by_the_book ?_⟩
  refine ⟨trivial, fun w hw => ⟨fun _ text htext => ?_, fun w' _ => ?_⟩⟩
  · cases hw
    cases htext
    refine ⟨by decide, by decide, fun _ _ _ _ _ j hj => ?_⟩
    have hempty : (portInit portNodeInit.files portNodeInit.plugin
        (some (ascii "path=r"))).forwarder = pfInitCtx := by decide +kernel
    rw [hempty, pfInitCtx, get_replicate] at hj
    cases hj
  · exact ⟨trivial, fun _ _ => ⟨trivial, fun _ _ => ⟨trivial, fun _ _ => trivial⟩⟩⟩

end Osfx
