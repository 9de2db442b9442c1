import Osfx.PlatformRuntime

/-!
# The command line

`osfx_cli_lite.c`: a line of words is a load of a plugin or a command for one. The words
behind the command are put together to one text, with a blank between them, and a plugin
reads words from that text again. Words that fit what they are read into are read as they
were typed (`typedOp_words`), so that what a line does can be said of its words.
`lines_carried_out` says it of all lines and restarts.
-/

namespace Osfx

open EventSystem Scan SlotTable

/-! ## osfx_cli_lite.c -/

def cliArgsMax : Nat := 512

/-- `append_token`. -/
def appendToken (outCap : Nat) (out token : Bytes) : Option Bytes :=
  if outCap ≤ out.length + token.length + 1 then none else some (out ++ token)

/-- The loop of `join_args` behind its first turn. -/
def joinRest (outCap : Nat) : List Bytes → Bytes → Option Bytes
  | [], out => some out
  | token :: rest, out => do
    let out ← appendToken outCap out (ascii " ")
    let out ← appendToken outCap out token
    joinRest outCap rest out

/-- `join_args`. -/
def joinArgs (outCap : Nat) : List Bytes → Option Bytes
  | [] => some []
  | token :: rest => do
    let out ← appendToken outCap [] token
    joinRest outCap rest out

/-- The loop of `plugin-list`, behind what is printed already. -/
def listPlugins (outRoom : Nat) : List (Option Bytes × Nat) → Bytes → Bool × Bytes
  | [], text => (true, text)
  | (none, _) :: rest, text => listPlugins outRoom rest text
  | (some name, i) :: rest, text =>
    let text := text ++ (if i = 0 then [] else ascii ",") ++ name
    if outRoom < text.length then (false, printOut outRoom text)
    else listPlugins outRoom rest text

/-- `plugin-list`. -/
def cliPluginList (p : Platform) (outRoom : Nat) : PlatformAnswer :=
  if outRoom < (ascii "plugins=").length then ⟨false, printOut outRoom (ascii "plugins="), p⟩
  else
    let listed := listPlugins outRoom (p.pluginNames 32).zipIdx (ascii "plugins=")
    ⟨listed.1, listed.2, p⟩

/-- `plugin-load`. -/
def cliPluginLoad (p : Platform) (outRoom : Nat) : List Bytes → PlatformAnswer
  | [] => ⟨false, printOut outRoom (ascii "error=usage plugin-load <name> [config]"), p⟩
  | name :: rest =>
    let loaded := p.load name (some (rest.headD []))
    ⟨loaded.1, printOut outRoom
      ((if loaded.1 then ascii "ok=1 loaded=" else ascii "error=load_failed name=") ++ name),
      loaded.2⟩

/-- `plugin-cmd`. -/
def cliPluginCmd (p : Platform) (given : PortGiven) (outRoom : Nat) : List Bytes → PlatformAnswer
  | name :: cmd :: rest =>
    match joinArgs cliArgsMax rest with
    | none => ⟨false, printOut outRoom (ascii "error=args_too_long"), p⟩
    | some args => p.command given name cmd args outRoom
  | _ => ⟨false, printOut outRoom (ascii "error=usage plugin-cmd <name> <cmd> [args...]"), p⟩

/-- `test-plugin` and `port-forwarder`. -/
def cliShort (p : Platform) (given : PortGiven) (name : Bytes) (outRoom : Nat)
    (words : List Bytes) : PlatformAnswer :=
  match joinArgs cliArgsMax words.tail with
  | none => ⟨false, [], p⟩
  | some args => p.command given name (words.headD (ascii "status")) args outRoom

/-- `osfx_cli_lite_run`. -/
def cliRun (p : Platform) (given : PortGiven) (outRoom : Nat) : List Bytes → PlatformAnswer
  | [] => ⟨false, printOut outRoom (ascii "error=empty_command"), p⟩
  | head :: words =>
    if head = ascii "plugin-list" then cliPluginList p outRoom
    else if head = ascii "plugin-load" then cliPluginLoad p outRoom words
    else if head = ascii "plugin-cmd" then cliPluginCmd p given outRoom words
    else if head = ascii "transport-status" then
      p.command given (ascii "transport") (ascii "status") [] outRoom
    else if head = ascii "test-plugin" then cliShort p given (ascii "test_plugin") outRoom words
    else if head = ascii "port-forwarder" then
      cliShort p given (ascii "port_forwarder") outRoom words
    else ⟨false, printOut outRoom (ascii "error=unknown_command"), p⟩

/-! ## What a line says -/

/-- What a line asks of a plugin. -/
inductive LineAsk where
  | load (name config : Bytes)
  | command (name cmd : Bytes) (words : List Bytes)

def lineAsk : List Bytes → Option LineAsk
  | [] => none
  | head :: words =>
    if head = ascii "plugin-list" then none
    else if head = ascii "plugin-load" then
      words.head?.map fun name => .load name (words.tail.headD [])
    else if head = ascii "plugin-cmd" then
      words.head?.bind fun name => words.tail.head?.map fun cmd =>
        .command name cmd words.tail.tail
    else if head = ascii "transport-status" then
      some (.command (ascii "transport") (ascii "status") [])
    else if head = ascii "test-plugin" then
      some (.command (ascii "test_plugin") (words.headD (ascii "status")) words.tail)
    else if head = ascii "port-forwarder" then
      some (.command (ascii "port_forwarder") (words.headD (ascii "status")) words.tail)
    else none

/-- The call that is meant by the words behind a command. -/
def ruleOp : PortCmd → List Bytes → Option PfOp
  | .addRule, name :: fromProto :: token :: toProto :: port :: _ =>
    (u32 port).map fun r => .addRule name fromProto token toProto r.1.toUInt16
  | .removeRule, name :: _ => some (.removeRule name)
  | .enableRule, name :: enabled :: _ =>
    (i32 enabled).map fun r => .setRuleEnabled name (r.1 != 0)
  | _, _ => none

/-- What a command that is answered with 1 does to the book. -/
def RuleBook.words (b : RuleBook) (path cmd : Bytes) (words : List Bytes) : RuleBook :=
  match portCmd cmd with
  | none => b
  | some .save => b.save path
  | some .load => b.load path
  | some cmd => ((ruleOp cmd words).map b.apply).getD b

/-- What a line that is answered with 1 does to the book. -/
def RuleBook.line (b : RuleBook) (p : PortPlugin) : Option LineAsk → RuleBook
  | some (.load name config) =>
    if name ≠ ascii "port_forwarder" ∨ initPath p (some config) = [] then b
    else b.load (initPath p (some config))
  | some (.command name cmd words) =>
    if name = ascii "port_forwarder" then b.words (commandPath p (some (joined words))) cmd words
    else b
  | none => b

/-- The arguments of a `dispatch`, if a line is one. -/
def dispatched : Option LineAsk → List Bytes
  | some (.command name cmd words) =>
    if name = ascii "transport" ∧ cmd = ascii "dispatch" then [joined words] else []
  | _ => []

/-! ## Words are read as they were typed -/

theorem appendToken_some {outCap : Nat} {out token text : Bytes}
    (h : appendToken outCap out token = some text) : text = out ++ token := by
  rw [appendToken, Option.ite_none_left_eq_some] at h
  exact (Option.some.inj h.2).symm

theorem joinRest_some {outCap : Nat} {words : List Bytes} {out text : Bytes}
    (h : joinRest outCap words out = some text) : text = out ++ behind words := by
  induction words generalizing out with
  | nil =>
    cases h
    exact (List.append_nil _).symm
  | cons token rest ih =>
    obtain ⟨out₁, hblank, h⟩ := Option.bind_eq_some_iff.mp h
    obtain ⟨out₂, htoken, h⟩ := Option.bind_eq_some_iff.mp h
    rw [ih h, appendToken_some htoken, appendToken_some hblank, behind, behind, List.flatMap_cons]
    simp only [List.append_assoc, List.cons_append]
    rfl

theorem joinArgs_some {outCap : Nat} {words : List Bytes} {text : Bytes}
    (h : joinArgs outCap words = some text) : text = joined words := by
  cases words with
  | nil =>
    cases h
    rfl
  | cons token rest =>
    obtain ⟨out, htoken, h⟩ := Option.bind_eq_some_iff.mp h
    rw [joinRest_some h, appendToken_some htoken]
    rfl

/-- How much of each word a command has room for. -/
def wordWidths : PortCmd → List Nat
  | .addRule => [31, 15, 15, 15]
  | .removeRule => [31]
  | .enableRule => [31]
  | _ => []

/-- The words behind a command are words, and those that are kept have room. -/
structure WordsRead (cmd : PortCmd) (words : List Bytes) : Prop where
  areWords : ∀ w ∈ words, IsWord w
  widths : ∀ x ∈ words.zip (wordWidths cmd), x.1.length ≤ x.2

instance (cmd : PortCmd) (words : List Bytes) : Decidable (WordsRead cmd words) :=
  decidable_of_iff ((∀ w ∈ words, IsWord w) ∧
    ∀ x ∈ words.zip (wordWidths cmd), x.1.length ≤ x.2)
    ⟨fun h => ⟨h.1, h.2⟩, fun h => ⟨h.areWords, h.widths⟩⟩

section
variable {text : Bytes}

/-- The next of the words of a text is read whole, if there is one. -/
theorem bind_word {α : Type} {ws : List Bytes} (h : Leads text ws) (hws : ∀ w ∈ ws, IsWord w)
    {width : Nat} (hwidth : ∀ w ∈ ws.head?, w.length ≤ width) (f : Bytes × Bytes → Option α) :
    (word width text).bind f = ws.head?.bind fun w => f (w, behind ws.tail) := by
  cases ws with
  | nil =>
    rw [word_leads_nil h]
    rfl
  | cons w ws =>
    rw [word_leads h (hws w List.mem_cons_self) (hwidth w rfl)]
    rfl

theorem u32_leads {w : Bytes} {ws : List Bytes} (h : Leads text (w :: ws)) (hw : IsWord w) :
    (u32 text).map Prod.fst = (u32 w).map Prod.fst := by
  have hread : ∀ t, (u32 t).map Prod.fst =
      ((integer t).map Prod.fst).map fun v => (toUnsigned v).toUInt32 := by
    intro t
    simp only [u32, Option.map_map]
    rfl
  rw [hread, hread, integer_leads h hw]

theorem i32_leads {w : Bytes} {ws : List Bytes} (h : Leads text (w :: ws)) (hw : IsWord w) :
    (i32 text).map Prod.fst = (i32 w).map Prod.fst := by
  have hread : ∀ t, (i32 t).map Prod.fst =
      ((integer t).map Prod.fst).map fun v => (toSigned v).bmod (2 ^ 32) := by
    intro t
    simp only [i32, Option.map_map]
    rfl
  rw [hread, hread, integer_leads h hw]

end

/-- A call that depends on a number is that of the word the number is read from. -/
theorem bind_u32 {α : Type} {ws : List Bytes} (hws : ∀ w ∈ ws, IsWord w) (f : UInt32 → α) :
    ((u32 (behind ws)).bind fun r => some (f r.1)) =
      ws.head?.bind fun w => (u32 w).map fun r => f r.1 := by
  cases ws with
  | nil => rfl
  | cons w ws =>
    have hread := u32_leads (leads_behind hws) (hws w List.mem_cons_self)
    have hmap := congrArg (Option.map f) hread
    rw [Option.map_map, Option.map_map] at hmap
    exact Option.map_eq_bind.symm.trans hmap

/-- There is room for the first word, and for those behind it. -/
theorem widths_cons {ws : List Bytes} {n : Nat} {ns : List Nat}
    (h : ∀ x ∈ ws.zip (n :: ns), x.1.length ≤ x.2) :
    (∀ w ∈ ws.head?, w.length ≤ n) ∧ ∀ x ∈ ws.tail.zip ns, x.1.length ≤ x.2 := by
  cases ws with
  | nil =>
    constructor
    · intro w hw
      cases hw
    · intro x hx
      cases hx
  | cons w ws =>
    obtain ⟨hw, hws⟩ := List.forall_mem_cons.mp h
    refine ⟨fun v hv => ?_, hws⟩
    cases hv
    exact hw

theorem scanAddRule_words {words : List Bytes} (h : WordsRead .addRule words) :
    (scanAddRule (joined words)).map (fun r => PfOp.addRule r.name r.fromProto r.fromPortToken
      r.toProto r.toPort.toUInt16) = ruleOp .addRule words := by
  obtain ⟨hwords, hwidths⟩ := h
  obtain ⟨hwidth, hwidths⟩ := widths_cons hwidths
  simp only [scanAddRule, Option.bind_eq_bind]
  rw [bind_word (leads_joined hwords) hwords hwidth]
  cases words with
  | nil => rfl
  | cons name words =>
  obtain ⟨-, hwords⟩ := List.forall_mem_cons.mp hwords
  obtain ⟨hwidth, hwidths⟩ := widths_cons hwidths
  rw [List.head?_cons, Option.bind_some, List.tail_cons,
    bind_word (leads_behind hwords) hwords hwidth]
  cases words with
  | nil => rfl
  | cons fromProto words =>
  obtain ⟨-, hwords⟩ := List.forall_mem_cons.mp hwords
  obtain ⟨hwidth, hwidths⟩ := widths_cons hwidths
  rw [List.head?_cons, Option.bind_some, List.tail_cons,
    bind_word (leads_behind hwords) hwords hwidth]
  cases words with
  | nil => rfl
  | cons token words =>
  obtain ⟨-, hwords⟩ := List.forall_mem_cons.mp hwords
  obtain ⟨hwidth, hwidths⟩ := widths_cons hwidths
  rw [List.head?_cons, Option.bind_some, List.tail_cons,
    bind_word (leads_behind hwords) hwords hwidth]
  cases words with
  | nil => rfl
  | cons toProto words =>
  obtain ⟨-, hwords⟩ := List.forall_mem_cons.mp hwords
  rw [List.head?_cons, Option.bind_some, List.tail_cons]
  have hport := bind_u32 hwords fun v => (⟨name, fromProto, token, toProto, v⟩ : AddRuleArgs)
  have hcall := congrArg (Option.map fun r : AddRuleArgs => PfOp.addRule r.name r.fromProto
    r.fromPortToken r.toProto r.toPort.toUInt16) hport
  refine hcall.trans ?_
  cases words with
  | nil => rfl
  | cons port words =>
    rw [List.head?_cons, Option.bind_some, Option.map_map]
    rfl

/-- The commands that change the rules. -/
def PortCmd.changesRules : PortCmd → Bool
  | .addRule | .removeRule | .enableRule => true
  | _ => false

/-- The text the words are put together to stands for the call that is meant by them. -/
theorem typedOp_words (emitFn : Option (Bytes → UInt16 → Bytes → Bool)) {cmd : PortCmd}
    {words : List Bytes} (hcmd : cmd.changesRules = true) (h : WordsRead cmd words) :
    typedOp emitFn (some (joined words)) cmd = ruleOp cmd words := by
  cases cmd with
  | addRule => exact scanAddRule_words h
  | removeRule =>
    obtain ⟨hwords, hwidths⟩ := h
    have hword := bind_word (leads_joined hwords) hwords (widths_cons hwidths).1
      fun w => some (PfOp.removeRule w.1)
    refine (Option.map_eq_bind.trans hword).trans ?_
    cases words with
    | nil => rfl
    | cons name words => rfl
  | enableRule =>
    obtain ⟨hwords, hwidths⟩ := h
    simp only [typedOp, Option.bind_some, scanEnableRule, Option.bind_eq_bind]
    rw [bind_word (leads_joined hwords) hwords (widths_cons hwidths).1]
    cases words with
    | nil => rfl
    | cons name words =>
    obtain ⟨-, hwords⟩ := List.forall_mem_cons.mp hwords
    rw [List.head?_cons, Option.bind_some, List.tail_cons]
    cases words with
    | nil => rfl
    | cons enabled words =>
    have hread := i32_leads (leads_behind hwords) (hwords enabled List.mem_cons_self)
    have hcall := congrArg (Option.map fun v => PfOp.setRuleEnabled name (v != 0)) hread
    rw [Option.map_map, Option.map_map] at hcall
    refine Eq.trans ?_ hcall
    cases i32 (behind (enabled :: words)) with
    | none => rfl
    | some r => rfl
  | status | stats | list | forward | save | load => cases hcmd

/-- What the words say of the book is what the text says of it. -/
theorem words_command (b : RuleBook) (path text : Bytes)
    (emitFn : Option (Bytes → UInt16 → Bytes → Bool)) {words : List Bytes}
    (h : ∀ cmd, portCmd text = some cmd → cmd.changesRules = true → WordsRead cmd words) :
    b.words path text words =
      ((portCmd text).map (b.command path emitFn (some (joined words)))).getD b := by
  unfold RuleBook.words
  cases hcmd : portCmd text with
  | none => rfl
  | some cmd =>
    have hread := h cmd hcmd
    rw [Option.map_some, Option.getD_some]
    cases cmd with
    | addRule | removeRule | enableRule =>
      simp only [RuleBook.command, typedOp_words emitFn rfl (hread rfl)]
    | forward =>
      simp only [RuleBook.command]
      cases hop : typedOp emitFn (some (joined words)) .forward with
      | none => rfl
      | some op =>
        obtain ⟨_, -, hop⟩ := Option.bind_eq_some_iff.mp hop
        obtain ⟨_, -, rfl⟩ := Option.map_eq_some_iff.mp hop
        rfl
    | status | stats | list | save | load => rfl

/-! ## Lines and restarts -/

/-- The platform, the book of the port forwarder, and the texts `dispatch` was given since the
last restart, all of them and those that were answered with 1. -/
structure CliWorld where
  platform : Platform
  book : RuleBook
  given : List Bytes
  answered : List Bytes

inductive CliEvent where
  | line (given : PortGiven) (argv : List Bytes) (outRoom : Nat)
  | restart (emitFn : Option (List MatrixFrame → MatrixFrame → Bool))

/-- A platform with the default drivers, as it is started. -/
def cliPlatform (emitFn : Option (List MatrixFrame → MatrixFrame → Bool)) (files : Files) :
    Platform :=
  platformInit defaultDrivers (matrixInit emitFn) files

def cliInit (emitFn : Option (List MatrixFrame → MatrixFrame → Bool)) : CliWorld :=
  ⟨cliPlatform emitFn fun _ => none, ⟨[], fun _ => none⟩, [], []⟩

def cliStep (w : CliWorld) : CliEvent → Option CliWorld
  | .line given argv outRoom =>
    let answer := cliRun w.platform given outRoom argv
    some {
      platform := answer.platform
      book := if answer.ret then w.book.line w.platform.portForwarder (lineAsk argv) else w.book
      given := w.given ++ dispatched (lineAsk argv)
      answered :=
        if answer.ret then w.answered ++ dispatched (lineAsk argv) else w.answered }
  | .restart emitFn => some ⟨cliPlatform emitFn w.platform.files, w.book.restart, [], []⟩

/-- A line that changes the rules has words that are kept whole, and in a new rule no comma;
and a rule with a new name goes behind those there are. -/
def CliGuard (w : CliWorld) : CliEvent → Prop
  | .line _ argv _ => ∀ text words cmd,
    lineAsk argv = some (.command (ascii "port_forwarder") text words) →
    portCmd text = some cmd → cmd.changesRules = true → WordsRead cmd words ∧
      (cmd = .addRule → (∀ w ∈ words, comma ∉ w ∧ 0 ∉ w) ∧
        ∀ name i, words.head? = some name →
          findRule w.platform.portForwarder.forwarder.rules name = none →
          ruleSlot w.platform.portForwarder.forwarder.rules name = some i →
          ∀ j, (w.platform.portForwarder.forwarder.rules.get j).used = true → j < i)
  | .restart _ => True

/-! ## What a line does -/

/-- What a line answers, and what becomes of the platform. -/
inductive LineDone (p : Platform) (given : PortGiven) (argv : List Bytes) (outRoom : Nat) :
    PlatformAnswer → Prop where
  | idle {ret : Bool} {out : Bytes} (hret : ret = true → lineAsk argv = none) :
      LineDone p given argv outRoom ⟨ret, out, p⟩
  | loads {name config out : Bytes} {done : Bool × Platform}
      (hask : lineAsk argv = some (.load name config)) (h : p.Loaded name config done) :
      LineDone p given argv outRoom ⟨done.1, out, done.2⟩
  | commands {name cmd : Bytes} {words : List Bytes} {answer : PlatformAnswer}
      (hask : lineAsk argv = some (.command name cmd words))
      (h : p.Commanded given name cmd (joined words) outRoom answer) :
      LineDone p given argv outRoom answer

section
variable {p : Platform} (hserves : ServesPlugins p.services) (given : PortGiven) (outRoom : Nat)
  {argv : List Bytes}
include hserves

theorem joined_done {name cmd : Bytes} {words : List Bytes}
    (hask : lineAsk argv = some (.command name cmd words)) {out : Bytes} :
    LineDone p given argv outRoom
      (match joinArgs cliArgsMax words with
      | none => ⟨false, out, p⟩
      | some args => p.command given name cmd args outRoom) := by
  cases hjoin : joinArgs cliArgsMax words with
  | none => exact .idle fun h => Bool.noConfusion h
  | some args =>
    rw [joinArgs_some hjoin]
    exact .commands hask (Platform.command_commanded hserves given name cmd _ outRoom)

theorem cliRun_done (argv : List Bytes) :
    LineDone p given argv outRoom (cliRun p given outRoom argv) := by
  cases argv with
  | nil => exact .idle fun h => Bool.noConfusion h
  | cons head words =>
  rw [cliRun]
  by_cases hlist : head = ascii "plugin-list"
  · rw [if_pos hlist]
    have hnone : lineAsk (head :: words) = none := by rw [lineAsk, if_pos hlist]
    unfold cliPluginList
    split
    · exact .idle fun _ => hnone
    · exact .idle fun _ => hnone
  rw [if_neg hlist]
  by_cases hload : head = ascii "plugin-load"
  · rw [if_pos hload]
    cases words with
    | nil => exact .idle fun h => Bool.noConfusion h
    | cons name rest =>
      have hask : lineAsk (head :: name :: rest) = some (.load name (rest.headD [])) := by
        rw [lineAsk, if_neg hlist, if_pos hload]
        rfl
      exact .loads hask (Platform.load_loaded hserves name _)
  rw [if_neg hload]
  by_cases hcmd : head = ascii "plugin-cmd"
  · rw [if_pos hcmd]
    rcases words with _ | ⟨name, _ | ⟨cmd, rest⟩⟩
    · exact .idle fun h => Bool.noConfusion h
    · exact .idle fun h => Bool.noConfusion h
    · have hask : lineAsk (head :: name :: cmd :: rest) = some (.command name cmd rest) := by
        rw [lineAsk, if_neg hlist, if_neg hload, if_pos hcmd]
        rfl
      exact joined_done hserves given outRoom hask
  rw [if_neg hcmd]
  by_cases hstatus : head = ascii "transport-status"
  · have hask : lineAsk (head :: words) =
        some (.command (ascii "transport") (ascii "status") []) := by
      rw [lineAsk, if_neg hlist, if_neg hload, if_neg hcmd, if_pos hstatus]
    rw [if_pos hstatus]
    exact .commands hask (Platform.command_commanded hserves given _ _ [] outRoom)
  rw [if_neg hstatus]
  by_cases htest : head = ascii "test-plugin"
  · have hask : lineAsk (head :: words) =
        some (.command (ascii "test_plugin") (words.headD (ascii "status")) words.tail) := by
      rw [lineAsk, if_neg hlist, if_neg hload, if_neg hcmd, if_neg hstatus, if_pos htest]
    rw [if_pos htest]
    exact joined_done hserves given outRoom hask
  rw [if_neg htest]
  by_cases hport : head = ascii "port-forwarder"
  · have hask : lineAsk (head :: words) =
        some (.command (ascii "port_forwarder") (words.headD (ascii "status")) words.tail) := by
      rw [lineAsk, if_neg hlist, if_neg hload, if_neg hcmd, if_neg hstatus, if_neg htest,
        if_pos hport]
    rw [if_pos hport]
    exact joined_done hserves given outRoom hask
  rw [if_neg hport]
  exact .idle fun h => Bool.noConfusion h

end

/-! ## Runs -/

structure CliOk (w : CliWorld) : Prop where
  serves : ServesPlugins w.platform.services
  port : NodeOk ⟨w.platform.portForwarder, w.platform.files, w.book⟩
  transport : TransportOk ⟨w.platform.transport, w.given, w.answered⟩

theorem cliOk_start (emitFn : Option (List MatrixFrame → MatrixFrame → Bool)) (files : Files)
    (book : RuleBook) (hfiles : ∀ path, OnFile (files path) (book.saved path)) :
    CliOk ⟨cliPlatform emitFn files, book.restart, [], []⟩ where
  serves := servesPlugins_init
  port := ⟨follows_empty, hfiles⟩
  transport := transportOk_init emitFn

theorem dispatched_other {name : Bytes} (h : name ≠ ascii "transport") (cmd : Bytes)
    (words : List Bytes) : dispatched (some (.command name cmd words)) = [] :=
  if_neg fun hname => h hname.1

theorem line_other {name : Bytes} (h : name ≠ ascii "port_forwarder") (b : RuleBook)
    (p : PortPlugin) (cmd : Bytes) (words : List Bytes) :
    b.line p (some (.command name cmd words)) = b :=
  if_neg h

theorem line_own (b : RuleBook) (p : PortPlugin) (cmd : Bytes) (words : List Bytes) :
    b.line p (some (.command (ascii "port_forwarder") cmd words)) =
      b.words (commandPath p (some (joined words))) cmd words := by
  rw [RuleBook.line, if_pos rfl]

/-- A load by the name of a plugin. -/
theorem cliOk_load {w : CliWorld} (h : CliOk w) {services : ServiceWorld Plugin Plugin}
    (hserves : ServesPlugins services) (plugin : Plugin) (config : Bytes) :
    CliOk ⟨{ w.platform.initPlugin config plugin with services := services },
      w.book.line w.platform.portForwarder (some (.load plugin.name config)), w.given,
      w.answered⟩ := by
  cases plugin with
  | transport => exact ⟨hserves, h.port, transportStep_keeps _ .init _ h.transport rfl⟩
  | testPlugin => exact ⟨hserves, h.port, h.transport⟩
  | portForwarder =>
    refine ⟨hserves, ?_, h.transport⟩
    have hinit := nodeOk_init h.port (some config)
    have hname : ¬ Plugin.portForwarder.name ≠ ascii "port_forwarder" := fun hne => hne rfl
    simp only [RuleBook.line, hname, false_or]
    exact hinit

/-- What is typed for a new rule, as the guard of the plugin has it. -/
theorem appendsRule_words {p : PortForwarder} {words : List Bytes}
    (hread : WordsRead .addRule words) (hclean : ∀ w ∈ words, comma ∉ w ∧ 0 ∉ w)
    (hbehind : ∀ name i, words.head? = some name → findRule p.rules name = none →
      ruleSlot p.rules name = some i → ∀ j, (p.rules.get j).used = true → j < i) :
    AppendsRule p (joined words) := by
  have hmem : ∀ b ∈ joined words, b ≠ comma ∧ b ≠ 0 := by
    intro b hb
    rcases mem_joined hb with rfl | ⟨w, hw, hbw⟩
    · exact ⟨by decide, by decide⟩
    · exact ⟨fun he => (hclean w hw).1 (he ▸ hbw), fun he => (hclean w hw).2 (he ▸ hbw)⟩
  refine ⟨fun h => (hmem _ h).1 rfl, fun h => (hmem _ h).2 rfl, ?_⟩
  intro r i hscan hnew hslot
  have hop := scanAddRule_words hread
  rw [hscan, Option.map_some] at hop
  refine hbehind r.name i ?_ hnew hslot
  rcases words with _ | ⟨name, _ | ⟨fromProto, _ | ⟨token, _ | ⟨toProto, _ | ⟨port, rest⟩⟩⟩⟩⟩
  · cases hop
  · cases hop
  · cases hop
  · cases hop
  · cases hop
  · obtain ⟨_, -, hcall⟩ := Option.map_eq_some_iff.mp hop.symm
    rw [List.head?_cons, (PfOp.addRule.inj hcall).1]

/-- A command by the name of a plugin. -/
theorem cliOk_command {w : CliWorld} (h : CliOk w) {services : ServiceWorld Plugin Plugin}
    (hserves : ServesPlugins services) {given : PortGiven} {outRoom : Nat} {argv : List Bytes}
    (hguard : CliGuard w (.line given argv outRoom)) {plugin : Plugin} {cmd : Bytes}
    {words : List Bytes} (hask : lineAsk argv = some (.command plugin.name cmd words))
    {answer : PlatformAnswer}
    (hanswer : answer = w.platform.commandPlugin given cmd (joined words) outRoom plugin) :
    CliOk ⟨{ answer.platform with services := services },
      if answer.ret then w.book.line w.platform.portForwarder (lineAsk argv) else w.book,
      w.given ++ dispatched (lineAsk argv),
      if answer.ret then w.answered ++ dispatched (lineAsk argv) else w.answered⟩ := by
  subst hanswer
  rw [hask]
  cases plugin with
  | transport =>
    have hstep := transportStep_keeps _ (.command cmd (some (joined words)) outRoom) _
      h.transport rfl
    have htexts : dispatched (some (.command Plugin.transport.name cmd words)) =
        if cmd = ascii "dispatch" then (some (joined words)).toList else [] := by
      by_cases hcmd : cmd = ascii "dispatch"
      · rw [if_pos hcmd]
        exact if_pos ⟨rfl, hcmd⟩
      · rw [if_neg hcmd]
        exact if_neg fun hboth => hcmd hboth.2
    rw [line_other (by decide), ite_self, htexts]
    exact ⟨hserves, h.port, hstep⟩
  | testPlugin =>
    rw [line_other (by decide), ite_self, dispatched_other (by decide), List.append_nil,
      List.append_nil, ite_self]
    exact ⟨hserves, h.port, h.transport⟩
  | portForwarder =>
    have hline : w.book.line w.platform.portForwarder
        (some (.command Plugin.portForwarder.name cmd words)) =
        w.book.words (commandPath w.platform.portForwarder (some (joined words))) cmd words :=
      line_own _ _ _ _
    have hbook := words_command w.book
      (commandPath w.platform.portForwarder (some (joined words))) cmd given.emitFn
      fun c hc hchanges => (hguard cmd words c hask hc hchanges).1
    have hport : PortGuard ⟨w.platform.portForwarder, w.platform.files, w.book⟩
        (.command given.emitFn cmd (some (joined words)) outRoom given.opens) := by
      intro hcmd text htext
      cases htext
      obtain ⟨hread, hadds⟩ := hguard cmd words .addRule hask hcmd rfl
      exact appendsRule_words hread (hadds rfl).1 (hadds rfl).2
    have hnode := nodeOk_command h.port hport rfl
    rw [hline, hbook, dispatched_other (by decide), List.append_nil, List.append_nil, ite_self]
    exact ⟨hserves, hnode, h.transport⟩

theorem cliStep_ok (w : CliWorld) (e : CliEvent) (w' : CliWorld) (h : CliOk w)
    (hguard : CliGuard w e) (hstep : cliStep w e = some w') : CliOk w' := by
  cases e with
  | restart emitFn =>
    cases hstep
    exact cliOk_start emitFn _ _ h.port.onFile
  | line given argv outRoom =>
    have hdone := cliRun_done h.serves given outRoom argv
    simp only [cliStep, Option.some.injEq] at hstep
    generalize cliRun w.platform given outRoom argv = answer at hdone hstep
    subst hstep
    cases hdone with
    | @idle ret out hret =>
      cases ret with
      | false => exact ⟨h.serves, h.port, given_more h.transport _⟩
      | true =>
        rw [hret rfl]
        exact ⟨h.serves, h.port, by simpa [dispatched] using h.transport⟩
    | @loads name config out done hask hloaded =>
      rw [hask]
      cases hloaded with
      | refused hserves => exact ⟨hserves, h.port, given_more h.transport _⟩
      | @inits services hserves plugin hname =>
        subst hname
        have hload := cliOk_load h hserves plugin config
        simpa only [dispatched, List.append_nil, if_true] using hload
    | @commands name cmd words answer hask hcommanded =>
      cases hcommanded with
      | refused => exact ⟨h.serves, h.port, given_more h.transport _⟩
      | @reaches services hserves plugin hname =>
        subst hname
        exact cliOk_command h hserves hguard hask rfl

/-- In every run of command lines and restarts what the port forwarder forwards goes by the
first rule of the book, and the book is kept by the words of the lines; and what the transport
plugin has sent since the last restart was typed. -/
theorem lines_carried_out (emitFn : Option (List MatrixFrame → MatrixFrame → Bool))
    {es : List CliEvent} (h : Each cliStep CliGuard (cliInit emitFn) es) :
    Always cliStep (fun w =>
      InOrder ⟨w.platform.portForwarder.forwarder, w.book.rules⟩ ∧
      TransportOk ⟨w.platform.transport, w.given, w.answered⟩) (cliInit emitFn) es :=
  have hinit : CliOk (cliInit emitFn) :=
    cliOk_start emitFn (fun _ => none) ⟨[], fun _ => none⟩ fun _ => OnFile.absent
  always_mono _ (fun _ hw => ⟨inOrder_of_inSlots hw.port.follows.inSlots, hw.transport⟩)
    (always_of_each _ cliStep_ok hinit h)

def typedLine (words : List String) : CliEvent := .line ⟨none, true⟩ (words.map ascii) 80

/-- A rule is typed and saved, and loaded after a restart. -/
def webRuleTyped : List CliEvent :=
  [typedLine ["plugin-load", "port_forwarder", "path=r"],
    typedLine ["port-forwarder", "add-rule", "web", "udp", "80", "tcp", "443"],
    typedLine ["port-forwarder", "save"], .restart none,
    typedLine ["plugin-load", "port_forwarder", "path=r"]]

/-- The typed rule is followed after the restart. -/
theorem webRuleTyped_followed :
    (run cliStep (cliInit none) webRuleTyped).map (fun w =>
      (pfForward w.platform.portForwarder.forwarder (some fun _ _ _ => true) (ascii "udp") 80 []
        0).emitted) = some (some (ascii "tcp", 443)) ∧
    Always cliStep (fun w =>
      InOrder ⟨w.platform.portForwarder.forwarder, w.book.rules⟩ ∧
      TransportOk ⟨w.platform.transport, w.given, w.answered⟩) (cliInit none) webRuleTyped := by
  have hload : lineAsk (["plugin-load", "port_forwarder", "path=r"].map ascii) =
      some (.load (ascii "port_forwarder") (ascii "path=r")) := rfl
  have hadd : lineAsk (["port-forwarder", "add-rule", "web", "udp", "80", "tcp", "443"].map
      ascii) = some (.command (ascii "port_forwarder") (ascii "add-rule")
        (["web", "udp", "80", "tcp", "443"].map ascii)) := rfl
  have hsave : lineAsk (["port-forwarder", "save"].map ascii) =
      some (.command (ascii "port_forwarder") (ascii "save") []) := rfl
  refine ⟨by decide +kernel, lines_carried_out none ?_⟩
  refine ⟨fun _ _ _ hask => ?_, fun w hw => ⟨fun _ _ _ hask hcmd _ => ?_, fun _ _ => ⟨?_, ?_⟩⟩⟩
  · cases hload.symm.trans hask
  · cases hadd.symm.trans hask
    cases hcmd
    refine ⟨by decide +kernel, fun _ => ⟨by decide +kernel, fun _ _ _ _ _ j hj => ?_⟩⟩
    cases hw
    have hempty : (cliRun (cliInit none).platform ⟨none, true⟩ 80
        (["plugin-load", "port_forwarder", "path=r"].map ascii)).platform.portForwarder.forwarder =
          pfInitCtx := by decide +kernel
    rw [hempty, pfInitCtx, get_replicate] at hj
    cases hj
  · intro _ _ _ hask hcmd hchanges
    cases hsave.symm.trans hask
    cases hcmd
    cases hchanges
  · exact fun _ _ => ⟨trivial, fun _ _ => ⟨fun _ _ _ hask _ _ => (by cases hload.symm.trans hask),
      fun _ _ => trivial⟩⟩

end Osfx
