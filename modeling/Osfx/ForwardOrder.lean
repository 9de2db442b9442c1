import Osfx.Lib.Run
import Osfx.PortForwarder

/-!
# Forwarding in registration order

What the rules are meant to be is a list in the order in which their names were registered:
a new name goes behind the others, one that is there keeps its place, and the first rule
that matches is the one followed. The table is searched from slot 0 up, so it follows the
list as long as the slots are in that order: `OrderGuard` leaves out the calls that take a
slot in front of a used one, and those that leave a rule half written.
-/

namespace Osfx

open EventSystem SlotTable

/-! ## The rules in order -/

structure RegisteredRule where
  name : Bytes
  fromProto : Bytes
  fromPort : Option UInt16
  toProto : Bytes
  toPort : UInt16
  enabled : Bool
  deriving DecidableEq

namespace RegisteredRule

def Matches (fromProto : Bytes) (fromPort : UInt16) (r : RegisteredRule) : Prop :=
  r.fromProto = fromProto ∧ (r.fromPort = none ∨ r.fromPort = some fromPort)

instance (fromProto : Bytes) (fromPort : UInt16) (r : RegisteredRule) :
    Decidable (r.Matches fromProto fromPort) :=
  inferInstanceAs (Decidable (_ ∧ _))

/-- A new name goes last, and one that is there keeps its place. -/
def register (rules : List RegisteredRule) (r : RegisteredRule) : List RegisteredRule :=
  if ∃ q ∈ rules, q.name = r.name then rules.map fun q => if q.name = r.name then r else q
  else rules ++ [r]

def remove (rules : List RegisteredRule) (name : Bytes) : List RegisteredRule :=
  rules.filter fun q => decide (q.name ≠ name)

def setEnabled (rules : List RegisteredRule) (name : Bytes) (enabled : Bool) :
    List RegisteredRule :=
  rules.map fun q => if q.name = name then { q with enabled := enabled } else q

/-- The earliest of the rules that are enabled and match. -/
def first (rules : List RegisteredRule) (fromProto : Bytes) (fromPort : UInt16) :
    Option RegisteredRule :=
  rules.find? fun r => r.enabled && decide (r.Matches fromProto fromPort)

/-- What a call that returns 1 does to the rules. -/
def after (rules : List RegisteredRule) : PfOp → List RegisteredRule
  | .addRule name fromProto fromPortToken toProto toPort =>
    match parsePortToken fromPortToken with
    | none => rules
    | some (port, hasPort) =>
      register rules ⟨name, fromProto, if hasPort then some port else none, toProto, toPort, true⟩
  | .removeRule name => remove rules name
  | .setRuleEnabled name enabled => setEnabled rules name enabled
  | .forward _ _ _ _ _ => rules

end RegisteredRule

/-- A forwarder, and the rules registered with it by the calls that returned 1. -/
structure PfWorld where
  plugin : PortForwarder
  registered : List RegisteredRule
  deriving DecidableEq

def pfWorldInit : PfWorld := ⟨pfInitCtx, []⟩

def pfStep (w : PfWorld) (op : PfOp) : Option PfWorld :=
  let (ret, plugin) := pfCall w.plugin op
  some ⟨plugin, if ret then RegisteredRule.after w.registered op else w.registered⟩

/-- A forwarding goes to the target of the first rule that is enabled and matches, and is
dropped exactly if there is none or the emit fails. -/
structure FollowsFirst (w : PfWorld) (emit : Bytes → UInt16 → Bytes → Bool) (fromProto : Bytes)
    (fromPort : UInt16) (payload : Bytes) (outRouteCap : Nat) : Prop where
  emitted : (pfForward w.plugin (some emit) fromProto fromPort payload outRouteCap).emitted =
    (RegisteredRule.first w.registered fromProto fromPort).map fun r => (r.toProto, r.toPort)
  ret_iff : (pfForward w.plugin (some emit) fromProto fromPort payload outRouteCap).ret = true ↔
    ∃ r, RegisteredRule.first w.registered fromProto fromPort = some r ∧
      emit r.toProto r.toPort payload = true
  dropped : (pfForward w.plugin (some emit) fromProto fromPort payload
      outRouteCap).plugin.totalDropped = w.plugin.totalDropped +
    if (pfForward w.plugin (some emit) fromProto fromPort payload outRouteCap).ret then 0 else 1

/-- Whatever comes in is forwarded by the first rule. -/
def InOrder (w : PfWorld) : Prop :=
  ∀ emit fromProto fromPort payload outRouteCap,
    FollowsFirst w emit fromProto fromPort payload outRouteCap

/-! ## The guard -/

/-- The texts of a rule that is written fit, and the slot of a new name is behind the used
ones. -/
abbrev AddGuard (rules : Vector PfRule pfRuleMax) (name fromProto toProto : Bytes) : Prop :=
  ∀ i, ruleSlot rules name = some i →
    (name.length < pfNameMax ∧ fromProto.length < pfProtoMax ∧ toProto.length < pfProtoMax) ∧
    (findRule rules name = none → ∀ j, (rules.get j).used = true → j < i)

def OrderGuard (w : PfWorld) : PfOp → Prop
  | .addRule name fromProto fromPortToken toProto toPort =>
    toPort ≠ 0 → (parsePortToken fromPortToken).isSome = true →
      AddGuard w.plugin.rules name fromProto toProto
  | _ => True

/-! ## The table follows the list -/

def PfRule.registered (r : PfRule) : RegisteredRule :=
  ⟨r.name, r.fromProto, if r.hasFromPort then some r.fromPort else none, r.toProto, r.toPort,
    r.enabled⟩

/-- The rules in use are, slot by slot, the registered ones. -/
structure InSlots (rules : Vector PfRule pfRuleMax) (registered : List RegisteredRule) : Prop where
  distinct : Distinct PfRule.used PfRule.name rules
  rules_eq : (usedSlots PfRule.used rules).map PfRule.registered = registered

theorem accepts_eq (r : PfRule) (fromProto : Bytes) (fromPort : UInt16) :
    r.accepts fromProto fromPort =
      (r.registered.enabled && decide (r.registered.Matches fromProto fromPort)) := by
  unfold PfRule.accepts PfRule.registered RegisteredRule.Matches
  cases r.hasFromPort with
  | false => simp
  | true => simp [Bool.and_assoc, beq_eq_decide]

/-- The search of a forwarding finds the first registered rule. -/
theorem InSlots.first {rules : Vector PfRule pfRuleMax} {registered : List RegisteredRule}
    (h : InSlots rules registered) (fromProto : Bytes) (fromPort : UInt16) :
    (findSlot rules fun r => r.used && r.accepts fromProto fromPort).map
      (fun i => (rules.get i).registered) = RegisteredRule.first registered fromProto fromPort := by
  have hfind := findSlot_usedSlots PfRule.used rules fun r => r.accepts fromProto fromPort
  have hpred : (fun r => r.accepts fromProto fromPort) =
      (fun r => r.enabled && decide (r.Matches fromProto fromPort)) ∘ PfRule.registered := by
    funext r
    exact accepts_eq r fromProto fromPort
  rw [RegisteredRule.first, ← h.rules_eq, List.find?_map, ← hpred, ← hfind, Option.map_map]
  rfl

/-- What a forwarding does with the rule that its search finds. -/
theorem pfForward_found {p : PortForwarder} {fromProto : Bytes} {fromPort : UInt16}
    (emit : Bytes → UInt16 → Bytes → Bool) (payload : Bytes) (outRouteCap : Nat)
    {i : Fin pfRuleMax}
    (h : (findSlot p.rules fun r => r.used && r.accepts fromProto fromPort) = some i) :
    (pfForward p (some emit) fromProto fromPort payload outRouteCap).emitted =
      some ((p.rules.get i).toProto, (p.rules.get i).toPort) ∧
    (pfForward p (some emit) fromProto fromPort payload outRouteCap).ret =
      emit (p.rules.get i).toProto (p.rules.get i).toPort payload ∧
    (pfForward p (some emit) fromProto fromPort payload outRouteCap).plugin.totalDropped =
      p.totalDropped +
        if emit (p.rules.get i).toProto (p.rules.get i).toPort payload then 0 else 1 := by
  simp only [pfForward, h]
  cases emit (p.rules.get i).toProto (p.rules.get i).toPort payload with
  | true => exact ⟨rfl, rfl, (UInt64.add_zero _).symm⟩
  | false => exact ⟨rfl, rfl, rfl⟩

theorem pfForward_not_found {p : PortForwarder} {fromProto : Bytes} {fromPort : UInt16}
    (emit : Bytes → UInt16 → Bytes → Bool) (payload : Bytes) (outRouteCap : Nat)
    (h : (findSlot p.rules fun r => r.used && r.accepts fromProto fromPort) = none) :
    pfForward p (some emit) fromProto fromPort payload outRouteCap =
      ⟨false, none, none, { p with totalDropped := p.totalDropped + 1 }⟩ := by
  simp only [pfForward, h]

theorem inOrder_of_inSlots {w : PfWorld} (h : InSlots w.plugin.rules w.registered) :
    InOrder w := by
  intro emit fromProto fromPort payload outRouteCap
  have hfirst := h.first fromProto fromPort
  cases hfind : findSlot w.plugin.rules fun r => r.used && r.accepts fromProto fromPort with
  | none =>
    have hforward := pfForward_not_found emit payload outRouteCap hfind
    rw [hfind, Option.map_none] at hfirst
    refine ⟨?_, ?_, ?_⟩
    · rw [hforward, ← hfirst, Option.map_none]
    · rw [hforward, ← hfirst]
      simp
    · rw [hforward]
      rfl
  | some i =>
    obtain ⟨hemitted, hret, hdropped⟩ := pfForward_found emit payload outRouteCap hfind
    rw [hfind, Option.map_some] at hfirst
    refine ⟨?_, ?_, ?_⟩
    · rw [hemitted, ← hfirst, Option.map_some]
      rfl
    · rw [hret, ← hfirst]
      constructor
      · exact fun he => ⟨_, rfl, he⟩
      · rintro ⟨r, hr, he⟩
        cases hr
        exact he
    · rw [hret]
      exact hdropped

/-! ## What a call does to the slots -/

/-- Changing a rule in its slot changes the registered one in its place. -/
theorem InSlots.modify {rules : Vector PfRule pfRuleMax} {registered : List RegisteredRule}
    (h : InSlots rules registered) {i : Fin pfRuleMax} (hi : (rules.get i).used = true)
    (f : PfRule → PfRule) (g : RegisteredRule → RegisteredRule)
    (hused : (f (rules.get i)).used = true) (hname : (f (rules.get i)).name = (rules.get i).name)
    (hfg : ∀ r, (f r).registered = g r.registered) :
    InSlots (rules.set i (f (rules.get i)) i.isLt)
      (registered.map fun q => if q.name = (rules.get i).name then g q else q) := by
  refine ⟨distinct_set_same h.distinct hi hname, ?_⟩
  rw [usedSlots_modify f h.distinct hi hused, ← h.rules_eq, List.map_map, List.map_map]
  refine List.map_congr_left fun r _ => ?_
  simp only [Function.comp_apply, apply_ite PfRule.registered, hfg]
  rfl

theorem InSlots.append {rules : Vector PfRule pfRuleMax} {registered : List RegisteredRule}
    (h : InSlots rules registered) {i : Fin pfRuleMax} {r : PfRule} (hused : r.used = true)
    (hnew : findRule rules r.name = none) (hbehind : ∀ j, (rules.get j).used = true → j < i) :
    InSlots (rules.set i r i.isLt) (registered ++ [r.registered]) := by
  refine ⟨distinct_set_fresh h.distinct hnew, ?_⟩
  rw [usedSlots_append hused hbehind, List.map_append, h.rules_eq]
  rfl

theorem InSlots.clear {rules : Vector PfRule pfRuleMax} {registered : List RegisteredRule}
    (h : InSlots rules registered) {i : Fin pfRuleMax} (hi : (rules.get i).used = true) :
    InSlots (rules.set i PfRule.zero i.isLt)
      (RegisteredRule.remove registered (rules.get i).name) := by
  refine ⟨distinct_set_unused h.distinct rfl, ?_⟩
  rw [usedSlots_clear h.distinct hi rfl, ← h.rules_eq, RegisteredRule.remove, List.filter_map]
  rfl

/-- A name is registered exactly if it is found. -/
theorem InSlots.mem_iff {rules : Vector PfRule pfRuleMax} {registered : List RegisteredRule}
    (h : InSlots rules registered) (name : Bytes) :
    (∃ q ∈ registered, q.name = name) ↔ (findRule rules name).isSome = true := by
  rw [findRule, lookup_isSome, ← h.rules_eq]
  simp [PfRule.registered]

theorem findRule_some {rules : Vector PfRule pfRuleMax} {name : Bytes} {i : Fin pfRuleMax}
    (h : findRule rules name = some i) :
    (rules.get i).used = true ∧ (rules.get i).name = name :=
  lookup_some h

theorem copyRuleTexts_fit {name fromProto toProto : Bytes} (r : PfRule)
    (h : name.length < pfNameMax ∧ fromProto.length < pfProtoMax ∧ toProto.length < pfProtoMax) :
    copyRuleTexts r name fromProto toProto =
      (true, { r with name := name, fromProto := fromProto, toProto := toProto }) := by
  simp only [copyRuleTexts, copyText_of_lt h.1, copyText_of_lt h.2.1, copyText_of_lt h.2.2]

/-- A rule that is written goes where its name is registered, or behind the others. -/
theorem InSlots.write {rules : Vector PfRule pfRuleMax} {registered : List RegisteredRule}
    (h : InSlots rules registered) {r : PfRule} (hused : r.used = true) {i : Fin pfRuleMax}
    (hslot : ruleSlot rules r.name = some i)
    (hbehind : findRule rules r.name = none → ∀ j, (rules.get j).used = true → j < i) :
    InSlots (rules.set i r i.isLt) (RegisteredRule.register registered r.registered) := by
  have hmem : (∃ q ∈ registered, q.name = r.registered.name) ↔ _ := h.mem_iff r.name
  unfold ruleSlot at hslot
  unfold RegisteredRule.register
  cases hf : findRule rules r.name with
  | some j =>
    rw [hf] at hslot hmem
    cases hslot
    obtain ⟨hi, hname⟩ := findRule_some hf
    have hmodify := h.modify hi (fun _ => r) (fun _ => r.registered) hused hname.symm fun _ => rfl
    rw [hname] at hmodify
    rw [if_pos (hmem.mpr rfl)]
    exact hmodify
  | none =>
    rw [hf] at hmem
    rw [if_neg fun hq => nomatch hmem.mp hq]
    exact h.append hused hf (hbehind hf)

theorem pfStep_some {w w' : PfWorld} {op : PfOp} (h : pfStep w op = some w') {ret : Bool}
    {p : PortForwarder} (hcall : pfCall w.plugin op = (ret, p)) :
    w' = ⟨p, if ret then RegisteredRule.after w.registered op else w.registered⟩ := by
  rw [pfStep, hcall] at h
  exact (Option.some.inj h).symm

/-- A rule is added only if its ports are right and it has a slot. -/
theorem pfAddRule_cases (p : PortForwarder) (name fromProto fromPortToken toProto : Bytes)
    (toPort : UInt16) :
    pfAddRule p name fromProto fromPortToken toProto toPort = (false, p) ∨
    toPort ≠ 0 ∧ ∃ port hasPort i, parsePortToken fromPortToken = some (port, hasPort) ∧
      ruleSlot p.rules name = some i ∧
      pfAddRule p name fromProto fromPortToken toProto toPort =
        let copied := copyRuleTexts ⟨[], [], port, hasPort, [], toPort, 0, true, true⟩ name
          fromProto toProto
        (copied.1, { p with rules := p.rules.set i copied.2 i.isLt }) := by
  unfold pfAddRule
  by_cases hport : toPort = 0
  · exact Or.inl (if_pos hport)
  · rw [if_neg hport]
    cases hparse : parsePortToken fromPortToken with
    | none => exact Or.inl rfl
    | some parsed =>
      obtain ⟨port, hasPort⟩ := parsed
      cases hslot : ruleSlot p.rules name with
      | none => exact Or.inl rfl
      | some i => exact Or.inr ⟨hport, port, hasPort, i, rfl, rfl, rfl⟩

theorem pfRemoveRule_cases (p : PortForwarder) (name : Bytes) :
    pfRemoveRule p name = (false, p) ∨ ∃ i, findRule p.rules name = some i ∧
      pfRemoveRule p name = (true, { p with rules := p.rules.set i PfRule.zero i.isLt }) := by
  unfold pfRemoveRule
  cases findRule p.rules name with
  | none => exact Or.inl rfl
  | some i => exact Or.inr ⟨i, rfl, rfl⟩

theorem pfSetRuleEnabled_cases (p : PortForwarder) (name : Bytes) (enabled : Bool) :
    pfSetRuleEnabled p name enabled = (false, p) ∨ ∃ i, findRule p.rules name = some i ∧
      pfSetRuleEnabled p name enabled =
        (true, { p with
          rules := p.rules.set i { p.rules.get i with enabled := enabled } i.isLt }) := by
  unfold pfSetRuleEnabled
  cases findRule p.rules name with
  | none => exact Or.inl rfl
  | some i => exact Or.inr ⟨i, rfl, rfl⟩

theorem inSlots_addRule {w w' : PfWorld} (h : InSlots w.plugin.rules w.registered)
    {name fromProto fromPortToken toProto : Bytes} {toPort : UInt16}
    (hg : OrderGuard w (.addRule name fromProto fromPortToken toProto toPort))
    (hstep : pfStep w (.addRule name fromProto fromPortToken toProto toPort) = some w') :
    InSlots w'.plugin.rules w'.registered := by
  rcases pfAddRule_cases w.plugin name fromProto fromPortToken toProto toPort with
    hadd | ⟨hport, port, hasPort, i, hparse, hslot, hadd⟩
  · rw [pfStep_some hstep hadd]
    exact h
  · obtain ⟨hfit, hbehind⟩ := hg hport (by rw [hparse]; rfl) i hslot
    rw [copyRuleTexts_fit _ hfit] at hadd
    rw [pfStep_some hstep hadd]
    simp only [if_true, RegisteredRule.after, hparse]
    exact h.write (r := ⟨name, fromProto, port, hasPort, toProto, toPort, 0, true, true⟩) rfl
      hslot hbehind

theorem inSlots_forward {p : PortForwarder} {registered : List RegisteredRule}
    (h : InSlots p.rules registered) (emitFn : Option (Bytes → UInt16 → Bytes → Bool))
    (fromProto : Bytes) (fromPort : UInt16) (payload : Bytes) (outRouteCap : Nat) :
    InSlots (pfForward p emitFn fromProto fromPort payload outRouteCap).plugin.rules
      registered := by
  cases emitFn with
  | none => exact h
  | some emit =>
    cases hfind : findSlot p.rules fun r => r.used && r.accepts fromProto fromPort with
    | none =>
      rw [pfForward_not_found emit payload outRouteCap hfind]
      exact h
    | some i =>
      simp only [pfForward, hfind]
      split
      · have hused := (Bool.and_eq_true_iff.mp (findSlot_eq_some.mp hfind).1).1
        have hmodify := h.modify hused (fun r => { r with hitCount := r.hitCount + 1 }) id hused
          rfl fun _ => rfl
        simpa using hmodify
      · exact h

theorem inSlots_step {w w' : PfWorld} {op : PfOp} (h : InSlots w.plugin.rules w.registered)
    (hg : OrderGuard w op) (hstep : pfStep w op = some w') :
    InSlots w'.plugin.rules w'.registered := by
  cases op with
  | addRule name fromProto fromPortToken toProto toPort => exact inSlots_addRule h hg hstep
  | removeRule name =>
    rcases pfRemoveRule_cases w.plugin name with hremove | ⟨i, hf, hremove⟩
    · rw [pfStep_some hstep hremove]
      exact h
    · obtain ⟨hused, rfl⟩ := findRule_some hf
      rw [pfStep_some hstep hremove]
      exact h.clear hused
  | setRuleEnabled name enabled =>
    rcases pfSetRuleEnabled_cases w.plugin name enabled with hset | ⟨i, hf, hset⟩
    · rw [pfStep_some hstep hset]
      exact h
    · obtain ⟨hused, rfl⟩ := findRule_some hf
      rw [pfStep_some hstep hset]
      exact h.modify hused (fun r => { r with enabled := enabled })
        (fun q => { q with enabled := enabled }) hused rfl fun _ => rfl
  | forward emitFn fromProto fromPort payload outRouteCap =>
    rw [pfStep_some hstep rfl]
    simp only [RegisteredRule.after, ite_self]
    exact inSlots_forward h emitFn fromProto fromPort payload outRouteCap

theorem inSlots_init : InSlots pfWorldInit.plugin.rules pfWorldInit.registered :=
  ⟨distinct_replicate rfl, by decide +kernel⟩

/-- In a run of guarded calls whatever comes in is forwarded by the first registered rule
that is enabled and matches. -/
theorem forward_in_order {ops : List PfOp} (hg : Each pfStep OrderGuard pfWorldInit ops) :
    Always pfStep InOrder pfWorldInit ops :=
  always_mono _ (fun _ => inOrder_of_inSlots)
    (always_of_each _ (fun _ _ _ h hg hs => inSlots_step h hg hs) inSlots_init hg)

instance (w : PfWorld) (op : PfOp) : Decidable (OrderGuard w op) :=
  match op with
  | .addRule name fromProto fromPortToken toProto toPort =>
    inferInstanceAs (Decidable (toPort ≠ 0 → (parsePortToken fromPortToken).isSome = true →
      AddGuard w.plugin.rules name fromProto toProto))
  | .removeRule _ | .setRuleEnabled _ _ | .forward _ _ _ _ _ => isTrue trivial

/-- Two rules for one protocol, the first of them overwritten and the second removed and
added again. -/
theorem twoRules_in_order : Always pfStep InOrder pfWorldInit
    [.addRule (ascii "r1") (ascii "udp") (ascii "80") (ascii "tcp") 1,
      .addRule (ascii "r2") (ascii "udp") (ascii "*") (ascii "tcp") 2,
      .addRule (ascii "r1") (ascii "udp") (ascii "81") (ascii "tcp") 3, .removeRule (ascii "r2"),
      .addRule (ascii "r2") (ascii "udp") (ascii "*") (ascii "tcp") 4,
      .setRuleEnabled (ascii "r1") false] :=
  forward_in_order (by decide +kernel)

/-- A rule is removed and the next one added, which takes its slot: it is in front of an
older rule for the same traffic, and is the one followed. -/
theorem newer_rule_followed : ¬ ∀ ops : List PfOp, Always pfStep InOrder pfWorldInit ops := by
  intro hall
  obtain ⟨w, hrun, hview⟩ := Option.map_eq_some_iff.mp (show
    (run pfStep pfWorldInit
      [.addRule (ascii "r1") (ascii "udp") (ascii "80") (ascii "tcp") 1,
        .addRule (ascii "r2") (ascii "udp") (ascii "*") (ascii "tcp") 2, .removeRule (ascii "r1"),
        .addRule (ascii "r3") (ascii "udp") (ascii "*") (ascii "tcp") 3]).map (fun w =>
      ((RegisteredRule.first w.registered (ascii "udp") 80).map fun r => (r.toProto, r.toPort),
        (pfForward w.plugin (some fun _ _ _ => true) (ascii "udp") 80 [] 0).emitted)) =
    some (some (ascii "tcp", 2), some (ascii "tcp", 3)) by decide +kernel)
  have hfollows := always_end _ (hall _) hrun (fun _ _ _ => true) (ascii "udp") 80 [] 0
  obtain ⟨hfirst, hemitted⟩ := Prod.mk.inj hview
  have hport : some (ascii "tcp", (3 : UInt16)) = some (ascii "tcp", 2) := by
    rw [← hemitted, hfollows.emitted, hfirst]
  exact absurd hport (by decide +kernel)

end Osfx
