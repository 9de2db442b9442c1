import Osfx.Lib.Scan
import Osfx.Lib.SlotTable
import Osfx.Sizes

/-!
# The port forwarder

`osfx_plugin_port_forwarder.c`: the table of rules and the forwarding over it. The emit
callback is a parameter of a forwarding, as one calls it at most once. Pointers are not NULL
but for that callback.
-/

namespace Osfx

open Numeral Scan SlotTable

def pfRuleMax : Nat := 64
def pfNameMax : Nat := 32
def pfProtoMax : Nat := 16

structure PfRule where
  name : Bytes
  fromProto : Bytes
  fromPort : UInt16
  hasFromPort : Bool
  toProto : Bytes
  toPort : UInt16
  hitCount : UInt64
  enabled : Bool
  used : Bool
  deriving DecidableEq

def PfRule.zero : PfRule := ⟨[], [], 0, false, [], 0, 0, false, false⟩

structure PortForwarder where
  rules : Vector PfRule pfRuleMax
  totalForwarded : UInt64
  totalDropped : UInt64
  deriving DecidableEq

/-- `osfx_plugin_port_forwarder_init_ctx`. -/
def pfInitCtx : PortForwarder := ⟨Vector.replicate _ PfRule.zero, 0, 0⟩

/-- `find_rule`. -/
def findRule (rules : Vector PfRule pfRuleMax) (name : Bytes) : Option (Fin pfRuleMax) :=
  lookup PfRule.used PfRule.name rules name

/-- `alloc_rule`. -/
def allocRule (rules : Vector PfRule pfRuleMax) : Option (Fin pfRuleMax) :=
  vacant PfRule.used rules

/-- `parse_port_token`: the port, and whether the token has one. -/
def parsePortToken (token : Bytes) : Option (UInt16 × Bool) :=
  if token = [42] then some (0, false)
  else
    let v := strtol token
    if v ≤ 0 ∨ 65535 < v then none else some (UInt16.ofNat v.toNat, true)

/-- The copies of `osfx_pf_add_rule`: whether they all fit, and the rule as they leave it. -/
def copyRuleTexts (r : PfRule) (name fromProto toProto : Bytes) : Bool × PfRule :=
  match copyText pfNameMax name with
  | none => (false, r)
  | some name =>
    let r := { r with name := name }
    match copyText pfProtoMax fromProto with
    | none => (false, r)
    | some fromProto =>
      let r := { r with fromProto := fromProto }
      match copyText pfProtoMax toProto with
      | none => (false, r)
      | some toProto => (true, { r with toProto := toProto })

/-- The slot `osfx_pf_add_rule` writes. -/
def ruleSlot (rules : Vector PfRule pfRuleMax) (name : Bytes) : Option (Fin pfRuleMax) :=
  match findRule rules name with
  | some i => some i
  | none => allocRule rules

/-- `osfx_pf_add_rule`: the return value and the forwarder afterwards. -/
def pfAddRule (p : PortForwarder) (name fromProto fromPortToken toProto : Bytes)
    (toPort : UInt16) : Bool × PortForwarder :=
  if toPort = 0 then (false, p)
  else
    match parsePortToken fromPortToken with
    | none => (false, p)
    | some (port, hasPort) =>
      match ruleSlot p.rules name with
      | none => (false, p)
      | some i =>
        let copied := copyRuleTexts { PfRule.zero with
          used := true
          enabled := true
          hasFromPort := hasPort
          fromPort := port
          toPort := toPort } name fromProto toProto
        (copied.1, { p with rules := p.rules.set i copied.2 i.isLt })

/-- `osfx_pf_remove_rule`. -/
def pfRemoveRule (p : PortForwarder) (name : Bytes) : Bool × PortForwarder :=
  match findRule p.rules name with
  | none => (false, p)
  | some i => (true, { p with rules := p.rules.set i PfRule.zero i.isLt })

/-- `osfx_pf_set_rule_enabled`. -/
def pfSetRuleEnabled (p : PortForwarder) (name : Bytes) (enabled : Bool) :
    Bool × PortForwarder :=
  match findRule p.rules name with
  | none => (false, p)
  | some i =>
    (true, { p with rules := p.rules.set i { p.rules.get i with enabled := enabled } i.isLt })

/-- What the loop of `osfx_pf_forward` asks of a used rule. -/
def PfRule.accepts (fromProto : Bytes) (fromPort : UInt16) (r : PfRule) : Bool :=
  r.enabled && decide (r.fromProto = fromProto) && (!r.hasFromPort || r.fromPort == fromPort)

/-- `"%s:%u"`, as far as it fits the buffer. -/
def routeText (r : PfRule) (outRouteCap : Nat) : Option Bytes :=
  if outRouteCap = 0 then none
  else some ((r.toProto ++ [58] ++ decimal r.toPort.toNat).take (outRouteCap - 1))

/-- The return value, the target the emit callback was called with, the text written to
`out_route` and the forwarder afterwards. -/
structure PfForward where
  ret : Bool
  emitted : Option (Bytes × UInt16)
  route : Option Bytes
  plugin : PortForwarder

/-- `osfx_pf_forward`. A NULL `out_route` has no room. -/
def pfForward (p : PortForwarder) (emitFn : Option (Bytes → UInt16 → Bytes → Bool))
    (fromProto : Bytes) (fromPort : UInt16) (payload : Bytes) (outRouteCap : Nat) : PfForward :=
  match emitFn with
  | none => ⟨false, none, none, p⟩
  | some emit =>
    match findSlot p.rules fun r => r.used && r.accepts fromProto fromPort with
    | none => ⟨false, none, none, { p with totalDropped := p.totalDropped + 1 }⟩
    | some i =>
      let r := p.rules.get i
      if emit r.toProto r.toPort payload then
        ⟨true, some (r.toProto, r.toPort), routeText r outRouteCap, { p with
          rules := p.rules.set i { r with hitCount := r.hitCount + 1 } i.isLt
          totalForwarded := p.totalForwarded + 1 }⟩
      else
        ⟨false, some (r.toProto, r.toPort), none, { p with totalDropped := p.totalDropped + 1 }⟩

inductive PfOp where
  | addRule (name fromProto fromPortToken toProto : Bytes) (toPort : UInt16)
  | removeRule (name : Bytes)
  | setRuleEnabled (name : Bytes) (enabled : Bool)
  | forward (emitFn : Option (Bytes → UInt16 → Bytes → Bool)) (fromProto : Bytes)
      (fromPort : UInt16) (payload : Bytes) (outRouteCap : Nat)

/-- The return value of a call, and the forwarder afterwards. -/
def pfCall (p : PortForwarder) : PfOp → Bool × PortForwarder
  | .addRule name fromProto fromPortToken toProto toPort =>
    pfAddRule p name fromProto fromPortToken toProto toPort
  | .removeRule name => pfRemoveRule p name
  | .setRuleEnabled name enabled => pfSetRuleEnabled p name enabled
  | .forward emitFn fromProto fromPort payload outRouteCap =>
    let result := pfForward p emitFn fromProto fromPort payload outRouteCap
    (result.ret, result.plugin)

end Osfx
