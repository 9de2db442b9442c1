import Osfx.Lib.Words
import Osfx.RuleStorage
import Osfx.SessionStorage

/-!
# The commands of the port forwarder

The two branches of `osfx_plugin_port_forwarder_command` that are given ports. A port is typed
as a word, `portWords` and `forwardWord`. `add-rule` reads the source port with `strtol` and
the target with `%u`, and `forward` reads its port with `%u`: they read what is in front of the
first byte that is no digit, and keep the low 16 bits of it. `addRule_as_typed_iff` and
`forward_as_typed_iff` say when a port is what was typed.
-/

namespace Osfx

open SlotTable Scan Numeral

/-- The return value, what is written to `out`, the target the emit callback was called with
and the forwarder afterwards. -/
structure PfCommand where
  ret : Bool
  out : Bytes
  emitted : Option (Bytes × UInt16)
  plugin : PortForwarder

/-- `snprintf(out, out_cap, ...)`, with room for `outRoom` bytes before the NUL. -/
def printOut (outRoom : Nat) (text : Bytes) : Bytes := text.take outRoom

/-- What is read of the arguments of `add-rule`. -/
structure AddRuleArgs where
  name : Bytes
  fromProto : Bytes
  fromPortToken : Bytes
  toProto : Bytes
  toPort : UInt32
  deriving DecidableEq

/-- `"%31s %15s %15s %15s %u"`. -/
def scanAddRule (args : Bytes) : Option AddRuleArgs := do
  let (name, rest) ← word 31 args
  let (fromProto, rest) ← word 15 rest
  let (fromPortToken, rest) ← word 15 rest
  let (toProto, rest) ← word 15 rest
  let (toPort, _) ← u32 rest
  return ⟨name, fromProto, fromPortToken, toProto, toPort⟩

/-- `add-rule`. -/
def pfAddRuleCommand (p : PortForwarder) (args : Option Bytes) (outRoom : Nat) : PfCommand :=
  match args.bind scanAddRule with
  | none => ⟨false, printOut outRoom
      (ascii "error=usage add-rule <name> <from_proto> <from_port|*> <to_proto> <to_port>"),
      none, p⟩
  | some r =>
    match pfAddRule p r.name r.fromProto r.fromPortToken r.toProto r.toPort.toUInt16 with
    | (false, p) => ⟨false, printOut outRoom (ascii "error=add_rule_failed"), none, p⟩
    | (true, p) => ⟨true, printOut outRoom (ascii "ok=1 added=" ++ r.name), none, p⟩

/-- `hex_to_bytes`. -/
def pfHexToBytes (hex : Bytes) (outCap : Nat) : Option Bytes :=
  if hex.length % 2 ≠ 0 ∨ outCap < hex.length / 2 then none
  else (List.range (hex.length / 2)).mapM (hexByte hex)

/-- What is read of the arguments of `forward`. -/
structure ForwardArgs where
  fromProto : Bytes
  fromPort : UInt32
  hex : Bytes
  deriving DecidableEq

/-- `"%15s %u %1023s"`. -/
def scanForward (args : Bytes) : Option ForwardArgs := do
  let (fromProto, rest) ← word 15 args
  let (fromPort, rest) ← u32 rest
  let (hex, _) ← word 1023 rest
  return ⟨fromProto, fromPort, hex⟩

/-- `forward`. -/
def pfForwardCommand (p : PortForwarder) (emitFn : Option (Bytes → UInt16 → Bytes → Bool))
    (args : Option Bytes) (outRoom : Nat) : PfCommand :=
  match args.bind scanForward with
  | none => ⟨false, printOut outRoom
      (ascii "error=usage forward <from_proto> <from_port> <hex_payload>"), none, p⟩
  | some r =>
    match pfHexToBytes r.hex 512 with
    | none => ⟨false, printOut outRoom (ascii "error=invalid_hex_payload"), none, p⟩
    | some payload =>
      let forward := pfForward p emitFn r.fromProto r.fromPort.toUInt16 payload 64
      if forward.ret then
        ⟨true, printOut outRoom (ascii "ok=1 route=" ++ forward.route.getD [] ++ ascii " bytes=" ++
          decimal payload.length), forward.emitted, forward.plugin⟩
      else
        ⟨false, printOut outRoom (ascii "error=no_match_or_emit_failed"), forward.emitted,
          forward.plugin⟩

/-! ## What was typed -/

/-- The words the ports of an `add-rule` are read from: the source's and the target's. -/
def portWords (args : Bytes) : Option (Bytes × Bytes) := do
  let (_, rest) ← word 31 args
  let (_, source) ← word 15 rest
  let (_, rest) ← word 15 source
  let (_, target) ← word 15 rest
  return (firstWord source, firstWord target)

/-- The word the port of a `forward` is read from. -/
def forwardWord (args : Bytes) : Option Bytes := do
  let (_, rest) ← word 15 args
  return firstWord rest

/-- A port was typed as a numeral. -/
structure Typed (token : Bytes) (port : UInt16) : Prop where
  numeral : IsNumeral token
  value : digitsVal token = port.toNat

/-- The source port of a rule was typed, as one of `1..65535` or as a star. -/
def SourceTyped (token : Bytes) (r : PfRule) : Prop :=
  (token = [42] ∧ r.hasFromPort = false) ∨
  (r.hasFromPort = true ∧ r.fromPort ≠ 0 ∧ Typed token r.fromPort)

/-- `add-rule` leaves the forwarder as it is, or writes a rule whose ports were typed. -/
def AddsAsTyped (p : PortForwarder) (args : Option Bytes) (outRoom : Nat) : Prop :=
  ((pfAddRuleCommand p args outRoom).ret = false ∧ (pfAddRuleCommand p args outRoom).plugin = p) ∨
  ∃ text source target r i, args = some text ∧ portWords text = some (source, target) ∧
    scanAddRule text = some r ∧ ruleSlot p.rules r.name = some i ∧
    SourceTyped source ((pfAddRuleCommand p args outRoom).plugin.rules.get i) ∧
    ((pfAddRuleCommand p args outRoom).plugin.rules.get i).toPort ≠ 0 ∧
    Typed target ((pfAddRuleCommand p args outRoom).plugin.rules.get i).toPort

/-- `forward` leaves the forwarder as it is and emits nothing, or does what a forwarding from
the port does that was typed. -/
def ForwardsAsTyped (p : PortForwarder) (emitFn : Option (Bytes → UInt16 → Bytes → Bool))
    (args : Option Bytes) (outRoom : Nat) : Prop :=
  ((pfForwardCommand p emitFn args outRoom).emitted = none ∧
    (pfForwardCommand p emitFn args outRoom).plugin = p) ∨
  ∃ text token r payload port, args = some text ∧ forwardWord text = some token ∧
    scanForward text = some r ∧ pfHexToBytes r.hex 512 = some payload ∧ Typed token port ∧
    (pfForwardCommand p emitFn args outRoom).emitted =
      (pfForward p emitFn r.fromProto port payload 64).emitted ∧
    (pfForwardCommand p emitFn args outRoom).plugin =
      (pfForward p emitFn r.fromProto port payload 64).plugin

/-- Where an `add-rule` gets as far as writing its slot, its ports were typed as numerals: the
source's, if it is no star, in at most 15 bytes, and the target's as one of up to 65535. -/
def RulePortsNumerals (p : PortForwarder) (args : Option Bytes) : Prop :=
  ∀ r source target, args.bind scanAddRule = some r → args.bind portWords = some (source, target) →
    r.toPort.toUInt16 ≠ 0 → parsePortToken r.fromPortToken ≠ none → ruleSlot p.rules r.name ≠ none →
    (source = [42] ∨ (IsNumeral source ∧ source.length ≤ 15)) ∧
      IsNumeral target ∧ digitsVal target ≤ 65535

/-- Where a `forward` gets as far as a rule, its port was typed as a numeral of up to 65535. -/
def ForwardPortNumeral (emitFn : Option (Bytes → UInt16 → Bytes → Bool)) (args : Option Bytes) :
    Prop :=
  ∀ r token, emitFn ≠ none → args.bind scanForward = some r → args.bind forwardWord = some token →
    pfHexToBytes r.hex 512 ≠ none → IsNumeral token ∧ digitsVal token ≤ 65535

/-! ## Ports -/

theorem parsePortToken_some {token : Bytes} {port : UInt16} {hasPort : Bool}
    (h : parsePortToken token = some (port, hasPort)) :
    (token = [42] ∧ hasPort = false) ∨
    (token ≠ [42] ∧ hasPort = true ∧ port ≠ 0 ∧ strtol token = port.toNat) := by
  unfold parsePortToken at h
  split at h
  · rename_i hstar
    cases h
    exact Or.inl ⟨hstar, rfl⟩
  · rename_i hstar
    simp only at h
    split at h
    · cases h
    · rename_i hrange
      cases h
      have hport : (UInt16.ofNat (strtol token).toNat).toNat = (strtol token).toNat := by
        rw [UInt16.toNat_ofNat']
        omega
      refine Or.inr ⟨hstar, rfl, fun hzero => ?_, by omega⟩
      rw [hzero] at hport
      have hnat : (0 : UInt16).toNat = 0 := rfl
      omega

theorem star_not_numeral : ¬ IsNumeral [42] := by decide

/-- The source port of a rule was typed, as one of `1..65535` or as a star, exactly if its word
is a numeral that has been read to its end. -/
theorem sourceTyped_iff {token : Bytes} {r : PfRule}
    (h : parsePortToken (token.take 15) = some (r.fromPort, r.hasFromPort)) :
    SourceTyped token r ↔ token = [42] ∨ (IsNumeral token ∧ token.length ≤ 15) := by
  constructor
  · rintro (⟨hstar, -⟩ | ⟨hhas, hport, hnumeral, hvalue⟩)
    · exact Or.inl hstar
    · refine Or.inr ⟨hnumeral, Nat.not_lt.mp fun hlong => ?_⟩
      have htake := hnumeral.take (show 0 < 15 by decide)
      rcases parsePortToken_some h with ⟨hstar, -⟩ | ⟨-, -, -, hread⟩
      · rw [hstar] at htake
        exact star_not_numeral htake
      · rw [strtol_numeral htake (by simp), Nat.cast_inj] at hread
        have hpos := UInt16.pos_iff_ne_zero.mpr hport
        have hlt := digitsVal_take_lt (hread ▸ UInt16.lt_iff_toNat_lt.mp hpos) hlong
        omega
  · rintro (rfl | ⟨hnumeral, hlen⟩)
    · rcases parsePortToken_some h with ⟨-, hhas⟩ | ⟨hstar, -⟩
      · exact Or.inl ⟨rfl, hhas⟩
      · exact absurd rfl hstar
    · rw [List.take_of_length_le hlen] at h
      rcases parsePortToken_some h with ⟨rfl, -⟩ | ⟨-, hhas, hport, hread⟩
      · exact absurd hnumeral star_not_numeral
      · rw [strtol_numeral hnumeral (by omega), Nat.cast_inj] at hread
        exact Or.inr ⟨hhas, hport, hnumeral, hread⟩

theorem typed_iff {text rest : Bytes} {v : UInt32} (h : u32 text = some (v, rest)) :
    Typed (firstWord text) v.toUInt16 ↔
      IsNumeral (firstWord text) ∧ digitsVal (firstWord text) ≤ 65535 := by
  constructor
  · rintro ⟨hnumeral, hvalue⟩
    have hlt := v.toUInt16.toNat_lt
    exact ⟨hnumeral, by omega⟩
  · rintro ⟨hnumeral, hle⟩
    have hread := u32_firstWord hnumeral (by omega) h
    refine ⟨hnumeral, ?_⟩
    rw [UInt32.toNat_toUInt16, hread]
    omega

/-! ## add-rule -/

theorem word_length {width : Nat} {text run rest : Bytes} (h : word width text = some (run, rest)) :
    run.length ≤ width := by
  rw [word_some h]
  exact List.length_take_le width _

theorem scanAddRule_some {text : Bytes} {r : AddRuleArgs} (h : scanAddRule text = some r) :
    ∃ source target rest, portWords text = some (source, firstWord target) ∧
      r.fromPortToken = source.take 15 ∧ u32 target = some (r.toPort, rest) ∧
      TextsFit r.name r.fromProto r.toProto := by
  simp only [scanAddRule, Option.bind_eq_bind] at h
  obtain ⟨⟨name, rest₁⟩, hname, h⟩ := Option.bind_eq_some_iff.mp h
  obtain ⟨⟨fromProto, source⟩, hfrom, h⟩ := Option.bind_eq_some_iff.mp h
  obtain ⟨⟨token, rest₃⟩, htoken, h⟩ := Option.bind_eq_some_iff.mp h
  obtain ⟨⟨toProto, target⟩, hto, h⟩ := Option.bind_eq_some_iff.mp h
  obtain ⟨⟨toPort, rest₅⟩, hport, h⟩ := Option.bind_eq_some_iff.mp h
  cases h
  refine ⟨firstWord source, target, rest₅, ?_, word_some htoken, hport,
    Nat.lt_succ_of_le (word_length hname), Nat.lt_succ_of_le (word_length hfrom),
    Nat.lt_succ_of_le (word_length hto)⟩
  unfold portWords
  apply bind_conv hname
  apply bind_conv hfrom
  apply bind_conv htoken
  apply bind_conv hto
  rfl

/-- The rule a command has written, where its texts fit. -/
def AddRuleArgs.rule (r : AddRuleArgs) (port : UInt16) (hasPort : Bool) : PfRule :=
  ⟨r.name, r.fromProto, port, hasPort, r.toProto, r.toPort.toUInt16, 0, true, true⟩

theorem pfAddRule_written {p : PortForwarder} {r : AddRuleArgs} {port : UInt16} {hasPort : Bool}
    {i : Fin pfRuleMax} (hport : r.toPort.toUInt16 ≠ 0)
    (hparse : parsePortToken r.fromPortToken = some (port, hasPort))
    (hslot : ruleSlot p.rules r.name = some i) (hfit : TextsFit r.name r.fromProto r.toProto) :
    pfAddRule p r.name r.fromProto r.fromPortToken r.toProto r.toPort.toUInt16 =
      (true, { p with rules := p.rules.set i (r.rule port hasPort) i.isLt }) := by
  simp only [pfAddRule, if_neg hport, hparse, hslot, copyRuleTexts_fit _ hfit]
  rfl

/-- A command that does not get as far as writing its slot. -/
theorem pfAddRuleCommand_refused {p : PortForwarder} {args : Option Bytes} (outRoom : Nat)
    (h : ∀ r, args.bind scanAddRule = some r → r.toPort.toUInt16 = 0 ∨
      parsePortToken r.fromPortToken = none ∨ ruleSlot p.rules r.name = none) :
    (pfAddRuleCommand p args outRoom).ret = false ∧
      (pfAddRuleCommand p args outRoom).plugin = p := by
  unfold pfAddRuleCommand
  cases hscan : args.bind scanAddRule with
  | none => exact ⟨rfl, rfl⟩
  | some r =>
    have hadd : pfAddRule p r.name r.fromProto r.fromPortToken r.toProto r.toPort.toUInt16 =
        (false, p) := by
      rcases pfAddRule_cases p r.name r.fromProto r.fromPortToken r.toProto r.toPort.toUInt16 with
        hadd | ⟨hport, port, hasPort, i, hparse, hslot, -⟩
      · exact hadd
      · rcases h r hscan with hzero | hnone | hnone
        · exact absurd hzero hport
        · rw [hparse] at hnone
          cases hnone
        · rw [hslot] at hnone
          cases hnone
    simp only [hadd, and_self]

section
variable {p : PortForwarder} {text source target : Bytes} {r : AddRuleArgs}
  (hscan : scanAddRule text = some r) (hwords : portWords text = some (source, target))
  (hport : r.toPort.toUInt16 ≠ 0)
include hscan hwords hport

/-- The ports a command has written are what was typed exactly if those of its rule are. -/
theorem addsAsTyped_written {port : UInt16} {hasPort : Bool} {i : Fin pfRuleMax} (outRoom : Nat)
    (hparse : parsePortToken r.fromPortToken = some (port, hasPort))
    (hslot : ruleSlot p.rules r.name = some i) (hfit : TextsFit r.name r.fromProto r.toProto) :
    AddsAsTyped p (some text) outRoom ↔
      SourceTyped source (r.rule port hasPort) ∧ Typed target r.toPort.toUInt16 := by
  have hcommand : (pfAddRuleCommand p (some text) outRoom).ret = true ∧
      (pfAddRuleCommand p (some text) outRoom).plugin.rules.get i = r.rule port hasPort := by
    simp only [pfAddRuleCommand, Option.bind_some, hscan,
      pfAddRule_written hport hparse hslot hfit]
    exact ⟨trivial, get_set_self p.rules i _⟩
  constructor
  · rintro (⟨hret, -⟩ | ⟨_, _, _, _, j, ⟨⟩, hwords', hscan', hslot', hs, -, ht⟩)
    · rw [hcommand.1] at hret
      cases hret
    · cases hwords.symm.trans hwords'
      cases hscan.symm.trans hscan'
      cases hslot.symm.trans hslot'
      rw [hcommand.2] at hs ht
      exact ⟨hs, ht⟩
  · rintro ⟨hs, ht⟩
    refine Or.inr ⟨text, source, target, r, i, rfl, hwords, hscan, hslot, ?_⟩
    rw [hcommand.2]
    exact ⟨hs, hport, ht⟩

theorem rulePortsNumerals_written (hparse : parsePortToken r.fromPortToken ≠ none)
    (hslot : ruleSlot p.rules r.name ≠ none) : RulePortsNumerals p (some text) ↔
      (source = [42] ∨ (IsNumeral source ∧ source.length ≤ 15)) ∧
        IsNumeral target ∧ digitsVal target ≤ 65535 := by
  constructor
  · intro h
    exact h r source target hscan hwords hport hparse hslot
  · intro h r' source' target' hscan' hwords' _ _ _
    cases hwords.symm.trans hwords'
    exact h

end

theorem addRule_as_typed_iff (p : PortForwarder) (args : Option Bytes) (outRoom : Nat) :
    AddsAsTyped p args outRoom ↔ RulePortsNumerals p args := by
  by_cases hgo : ∃ r, args.bind scanAddRule = some r ∧ r.toPort.toUInt16 ≠ 0 ∧
      parsePortToken r.fromPortToken ≠ none ∧ ruleSlot p.rules r.name ≠ none
  · obtain ⟨r, hscan, hport, hparse, hslot⟩ := hgo
    obtain ⟨text, rfl, htext⟩ := Option.bind_eq_some_iff.mp hscan
    obtain ⟨source, target, rest, hwords, htoken, hread, hfit⟩ := scanAddRule_some htext
    rw [rulePortsNumerals_written htext hwords hport hparse hslot]
    obtain ⟨⟨port, hasPort⟩, hparse⟩ := Option.ne_none_iff_exists'.mp hparse
    obtain ⟨i, hslot⟩ := Option.ne_none_iff_exists'.mp hslot
    rw [addsAsTyped_written htext hwords hport outRoom hparse hslot hfit, typed_iff hread]
    rw [htoken] at hparse
    have hsource : SourceTyped source (r.rule port hasPort) ↔ _ := sourceTyped_iff hparse
    rw [hsource]
  · have hnot : ∀ r, args.bind scanAddRule = some r → r.toPort.toUInt16 = 0 ∨
        parsePortToken r.fromPortToken = none ∨ ruleSlot p.rules r.name = none := by
      intro r hscan
      by_contra hnone
      rw [not_or, not_or] at hnone
      exact hgo ⟨r, hscan, hnone⟩
    refine iff_of_true (Or.inl (pfAddRuleCommand_refused outRoom hnot)) ?_
    intro r source target hscan _ hport hparse hslot
    exact absurd ⟨r, hscan, hport, hparse, hslot⟩ hgo

/-! ## forward -/

theorem scanForward_some {text : Bytes} {r : ForwardArgs} (h : scanForward text = some r) :
    ∃ port rest, forwardWord text = some (firstWord port) ∧ u32 port = some (r.fromPort, rest) := by
  simp only [scanForward, Option.bind_eq_bind] at h
  obtain ⟨⟨fromProto, port⟩, hfrom, h⟩ := Option.bind_eq_some_iff.mp h
  obtain ⟨⟨fromPort, rest₂⟩, hport, h⟩ := Option.bind_eq_some_iff.mp h
  obtain ⟨⟨hex, rest₃⟩, hhex, h⟩ := Option.bind_eq_some_iff.mp h
  cases h
  exact ⟨port, rest₂, bind_conv hfrom rfl, hport⟩

/-- A forwarding that has a callback calls it or counts a drop. -/
theorem pfForward_seen {p : PortForwarder} {emit : Bytes → UInt16 → Bytes → Bool}
    {fromProto payload : Bytes} {fromPort : UInt16} {outRouteCap : Nat}
    (hemitted : (pfForward p (some emit) fromProto fromPort payload outRouteCap).emitted = none) :
    (pfForward p (some emit) fromProto fromPort payload outRouteCap).plugin ≠ p := by
  intro hsame
  cases hfind : findSlot p.rules fun r => r.used && r.accepts fromProto fromPort with
  | none =>
    rw [pfForward_not_found emit payload outRouteCap hfind] at hsame
    have hdropped : p.totalDropped + 1 = p.totalDropped := congrArg PortForwarder.totalDropped hsame
    simp at hdropped
  | some i =>
    rw [(pfForward_found emit payload outRouteCap hfind).1] at hemitted
    cases hemitted

theorem pfForwardCommand_eq (p : PortForwarder)
    (emitFn : Option (Bytes → UInt16 → Bytes → Bool)) {args : Option Bytes} {r : ForwardArgs}
    {payload : Bytes} (hscan : args.bind scanForward = some r)
    (hhex : pfHexToBytes r.hex 512 = some payload) (outRoom : Nat) :
    (pfForwardCommand p emitFn args outRoom).emitted =
      (pfForward p emitFn r.fromProto r.fromPort.toUInt16 payload 64).emitted ∧
    (pfForwardCommand p emitFn args outRoom).plugin =
      (pfForward p emitFn r.fromProto r.fromPort.toUInt16 payload 64).plugin := by
  simp only [pfForwardCommand, hscan, hhex]
  split
  · exact ⟨rfl, rfl⟩
  · exact ⟨rfl, rfl⟩

/-- A command that does not get as far as a rule. -/
theorem pfForwardCommand_refused {p : PortForwarder}
    {emitFn : Option (Bytes → UInt16 → Bytes → Bool)} {args : Option Bytes} (outRoom : Nat)
    (h : emitFn = none ∨ ∀ r, args.bind scanForward = some r → pfHexToBytes r.hex 512 = none) :
    (pfForwardCommand p emitFn args outRoom).emitted = none ∧
      (pfForwardCommand p emitFn args outRoom).plugin = p := by
  cases hscan : args.bind scanForward with
  | none => simp only [pfForwardCommand, hscan, and_self]
  | some r =>
    cases hhex : pfHexToBytes r.hex 512 with
    | none => simp only [pfForwardCommand, hscan, hhex, and_self]
    | some payload =>
      rcases h with rfl | h
      · exact pfForwardCommand_eq _ _ hscan hhex outRoom
      · rw [h r hscan] at hhex
        cases hhex

/-- A forwarding that was attempted is from the port that was typed exactly if that is the one
that was read. -/
theorem forwardsAsTyped_attempted {p : PortForwarder} {emit : Bytes → UInt16 → Bytes → Bool}
    {text token payload : Bytes} {r : ForwardArgs} (outRoom : Nat)
    (hscan : scanForward text = some r) (hword : forwardWord text = some token)
    (hhex : pfHexToBytes r.hex 512 = some payload)
    (hread : IsNumeral token → digitsVal token ≤ 65535 → Typed token r.fromPort.toUInt16) :
    ForwardsAsTyped p (some emit) (some text) outRoom ↔
      IsNumeral token ∧ digitsVal token ≤ 65535 := by
  have hbind : (some text).bind scanForward = some r := hscan
  obtain ⟨hemitted, hplugin⟩ := pfForwardCommand_eq p (some emit) hbind hhex outRoom
  constructor
  · rintro (⟨hnone, hsame⟩ | ⟨_, token', r', payload', typed, ⟨⟩, hword', -, -, hport, -⟩)
    · rw [hemitted] at hnone
      rw [hplugin] at hsame
      exact absurd hsame (pfForward_seen hnone)
    · cases hword.symm.trans hword'
      have hlt := typed.toNat_lt
      exact ⟨hport.numeral, by rw [hport.value]; omega⟩
  · rintro ⟨hnumeral, hle⟩
    exact Or.inr ⟨text, token, r, payload, r.fromPort.toUInt16, rfl, hword, hscan, hhex,
      hread hnumeral hle, hemitted, hplugin⟩

theorem forward_as_typed_iff (p : PortForwarder)
    (emitFn : Option (Bytes → UInt16 → Bytes → Bool)) (args : Option Bytes) (outRoom : Nat) :
    ForwardsAsTyped p emitFn args outRoom ↔ ForwardPortNumeral emitFn args := by
  by_cases hgo : emitFn ≠ none ∧ ∃ r, args.bind scanForward = some r ∧
      pfHexToBytes r.hex 512 ≠ none
  · obtain ⟨hemit, r, hscan, hsome⟩ := hgo
    obtain ⟨emit, rfl⟩ := Option.ne_none_iff_exists'.mp hemit
    obtain ⟨payload, hhex⟩ := Option.ne_none_iff_exists'.mp hsome
    obtain ⟨text, rfl, htext⟩ := Option.bind_eq_some_iff.mp hscan
    obtain ⟨port, rest, hword, hread⟩ := scanForward_some htext
    rw [forwardsAsTyped_attempted outRoom htext hword hhex fun hnumeral hle =>
      (typed_iff hread).mpr ⟨hnumeral, hle⟩]
    constructor
    · intro h r' token' _ _ hword' _
      cases hword.symm.trans hword'
      exact h
    · intro h
      exact h r (firstWord port) hemit hscan hword hsome
  · have hnot : emitFn = none ∨ ∀ r, args.bind scanForward = some r →
        pfHexToBytes r.hex 512 = none := by
      by_contra hnone
      rw [not_or, not_forall] at hnone
      obtain ⟨hemit, r, hr⟩ := hnone
      exact hgo ⟨hemit, r, Classical.not_imp.mp hr⟩
    refine iff_of_true (Or.inl (pfForwardCommand_refused outRoom hnot)) ?_
    intro r token hemit hscan _ hhex
    exact absurd ⟨hemit, r, hscan, hhex⟩ hgo

/-- The ports of both commands are what was typed exactly if they were typed as numerals that
are read to their end and fit. -/
theorem ports_as_typed_iff (p : PortForwarder) (args : Option Bytes) (outRoom : Nat) :
    (AddsAsTyped p args outRoom ↔ RulePortsNumerals p args) ∧
    ∀ emitFn, ForwardsAsTyped p emitFn args outRoom ↔ ForwardPortNumeral emitFn args :=
  ⟨addRule_as_typed_iff p args outRoom, fun emitFn => forward_as_typed_iff p emitFn args outRoom⟩

/-- A rule to port 65616 is added to port 80, and a forwarding from it is one from 80. -/
theorem port_misread :
    (¬ ∀ p args outRoom, AddsAsTyped p args outRoom) ∧
    ¬ ∀ p emitFn args outRoom, ForwardsAsTyped p emitFn args outRoom := by
  have htoo : ¬ digitsVal (ascii "65616") ≤ 65535 := by decide +kernel
  constructor
  · intro hall
    have hports := (addRule_as_typed_iff _ _ _).mp
      (hall pfInitCtx (some (ascii "r1 udp 80 tcp 65616")) 0)
    have hfive := hports ⟨ascii "r1", ascii "udp", ascii "80", ascii "tcp", 65616⟩ (ascii "80")
      (ascii "65616") (by decide +kernel) (by decide +kernel) (by decide +kernel)
      (by decide +kernel) (by decide +kernel)
    exact htoo hfive.2.2
  · intro hall
    have hport := (forward_as_typed_iff _ _ _ _).mp
      (hall pfInitCtx (some fun _ _ _ => true) (some (ascii "udp 65616 ff")) 0)
    have hthree := hport ⟨ascii "udp", 65616, ascii "ff"⟩ (ascii "65616") (by simp)
      (by decide +kernel) (by decide +kernel) (by decide +kernel)
    exact htoo hthree.2

end Osfx
