import Osfx.ForwardOrder

/-!
# Refused rules

`osfx_pf_add_rule` clears its slot and marks it used before it copies the texts, and one that
does not fit is found out then: the call returns 0, the rule that was there is gone, and what
is left is active. `RuleFits` is the condition under which a refused call leaves the table as
it was. Over a run the names of the rules stay distinct under it; without it two rules can
come to have the empty name.
-/

namespace Osfx

open EventSystem SlotTable

/-- What a call has written when the first of the two protocols that is too long stops it. -/
def halfRule (name fromProto : Bytes) (port : UInt16) (hasPort : Bool) (toPort : UInt16) : PfRule :=
  ⟨name, if fromProto.length < pfProtoMax then fromProto else [], port, hasPort, [], toPort, 0,
    true, true⟩

/-- What a call leaves whose texts do not fit. -/
def leftRule (name fromProto : Bytes) (port : UInt16) (hasPort : Bool) (toPort : UInt16) : PfRule :=
  if name.length < pfNameMax then halfRule name fromProto port hasPort toPort
  else ⟨[], [], port, hasPort, [], toPort, 0, true, true⟩

def TextsFit (name fromProto toProto : Bytes) : Prop :=
  name.length < pfNameMax ∧ fromProto.length < pfProtoMax ∧ toProto.length < pfProtoMax

/-- The call is turned away before it has a slot, or its texts fit, or the rule of its name is
already what is left of such a call. -/
def RuleFits (rules : Vector PfRule pfRuleMax) (name fromProto fromPortToken toProto : Bytes)
    (toPort : UInt16) : Prop :=
  toPort = 0 ∨ parsePortToken fromPortToken = none ∨ ruleSlot rules name = none ∨
  TextsFit name fromProto toProto ∨
  ∃ i port hasPort, findRule rules name = some i ∧
    parsePortToken fromPortToken = some (port, hasPort) ∧ name.length < pfNameMax ∧
    rules.get i = halfRule name fromProto port hasPort toPort

def RefusedRuleUnchanged (p : PortForwarder) (name fromProto fromPortToken toProto : Bytes)
    (toPort : UInt16) : Prop :=
  (pfAddRule p name fromProto fromPortToken toProto toPort).1 = false →
    (pfAddRule p name fromProto fromPortToken toProto toPort).2.rules = p.rules

/-! ## What the copies leave -/

theorem copyRuleTexts_unfit {name fromProto toProto : Bytes} (port : UInt16) (hasPort : Bool)
    (toPort : UInt16) (h : ¬ TextsFit name fromProto toProto) :
    copyRuleTexts ⟨[], [], port, hasPort, [], toPort, 0, true, true⟩ name fromProto toProto =
      (false, leftRule name fromProto port hasPort toPort) := by
  unfold leftRule
  by_cases hname : name.length < pfNameMax
  · by_cases hfrom : fromProto.length < pfProtoMax
    · have hto : pfProtoMax ≤ toProto.length := by
        refine Nat.not_lt.mp fun hto => h ⟨hname, hfrom, hto⟩
      simp only [copyRuleTexts, copyText_of_lt hname, copyText_of_lt hfrom, copyText_of_le hto,
        halfRule, hname, hfrom, if_true]
    · simp only [copyRuleTexts, copyText_of_lt hname, copyText_of_le (Nat.not_lt.mp hfrom),
        halfRule, hname, hfrom, if_true, if_false]
  · simp only [copyRuleTexts, copyText_of_le (Nat.not_lt.mp hname), hname, if_false]

theorem ruleSlot_slotOf {rules : Vector PfRule pfRuleMax} {name : Bytes} {i : Fin pfRuleMax}
    (h : ruleSlot rules name = some i) : SlotOf PfRule.used PfRule.name rules name i := by
  unfold ruleSlot at h
  cases hf : findRule rules name with
  | some j =>
    rw [hf] at h
    cases h
    exact Or.inl hf
  | none =>
    rw [hf] at h
    exact Or.inr ⟨hf, vacant_some h⟩

/-- What is written over a slot that is used is never a rule of the name it was found by, and
over a free one never what was there. -/
theorem unfit_unchanged_iff {rules : Vector PfRule pfRuleMax} {name : Bytes} (fromProto : Bytes)
    {i : Fin pfRuleMax} (hslot : ruleSlot rules name = some i) (port : UInt16) (hasPort : Bool)
    (toPort : UInt16) :
    leftRule name fromProto port hasPort toPort = rules.get i ↔
      findRule rules name = some i ∧ name.length < pfNameMax ∧
        rules.get i = halfRule name fromProto port hasPort toPort := by
  unfold leftRule
  rcases ruleSlot_slotOf hslot with hfound | ⟨hnone, hfree⟩
  · have hname := (findRule_some hfound).2
    split
    · rename_i hshort
      constructor
      · exact fun he => ⟨hfound, hshort, he.symm⟩
      · exact fun he => he.2.2.symm
    · rename_i hlong
      refine iff_of_false (fun he => hlong ?_) fun he => hlong he.2.1
      rw [← hname, ← he]
      exact Nat.zero_lt_succ 31
  · have hno : findRule rules name ≠ some i := by
      intro hfound
      have hused := (findRule_some hfound).1
      rw [hfree] at hused
      cases hused
    refine iff_of_false (fun he => ?_) fun he => hno he.1
    rw [← he] at hfree
    split at hfree
    · cases hfree
    · cases hfree

theorem pfAddRule_unfit (p : PortForwarder) {name fromProto fromPortToken toProto : Bytes}
    {toPort port : UInt16} {hasPort : Bool} {i : Fin pfRuleMax} (hport : toPort ≠ 0)
    (hparse : parsePortToken fromPortToken = some (port, hasPort))
    (hslot : ruleSlot p.rules name = some i) (hfit : ¬ TextsFit name fromProto toProto) :
    pfAddRule p name fromProto fromPortToken toProto toPort =
      (false, { p with
        rules := p.rules.set i (leftRule name fromProto port hasPort toPort) i.isLt }) := by
  simp only [pfAddRule, if_neg hport, hparse, hslot, PfRule.zero,
    copyRuleTexts_unfit port hasPort toPort hfit]

/-- A rule whose call returns 1 has texts that fit and is written over the slot of its name. -/
theorem pfAddRule_done {p : PortForwarder} {name fromProto fromPortToken toProto : Bytes}
    {toPort : UInt16}
    (hret : (pfAddRule p name fromProto fromPortToken toProto toPort).1 = true) :
    ∃ port hasPort i, ruleSlot p.rules name = some i ∧ TextsFit name fromProto toProto ∧
      (pfAddRule p name fromProto fromPortToken toProto toPort).2 = { p with
        rules := p.rules.set i
          ⟨name, fromProto, port, hasPort, toProto, toPort, 0, true, true⟩ i.isLt } := by
  rcases pfAddRule_cases p name fromProto fromPortToken toProto toPort with
    hadd | ⟨hport, port, hasPort, i, hparse, hslot, hadd⟩
  · rw [hadd] at hret
    cases hret
  · by_cases hfit : TextsFit name fromProto toProto
    · rw [copyRuleTexts_fit _ hfit] at hadd
      exact ⟨port, hasPort, i, hslot, hfit, by rw [hadd]⟩
    · rw [pfAddRule_unfit p hport hparse hslot hfit] at hret
      cases hret

theorem refused_rule_unchanged_iff (p : PortForwarder)
    (name fromProto fromPortToken toProto : Bytes) (toPort : UInt16) :
    RefusedRuleUnchanged p name fromProto fromPortToken toProto toPort ↔
      RuleFits p.rules name fromProto fromPortToken toProto toPort := by
  unfold RefusedRuleUnchanged RuleFits
  by_cases hport : toPort = 0
  · rw [pfAddRule, if_pos hport]
    exact iff_of_true (fun _ => rfl) (Or.inl hport)
  · cases hparse : parsePortToken fromPortToken with
    | none =>
      simp only [pfAddRule, if_neg hport, hparse]
      exact iff_of_true (fun _ => trivial) (Or.inr (Or.inl trivial))
    | some parsed =>
      obtain ⟨port, hasPort⟩ := parsed
      cases hslot : ruleSlot p.rules name with
      | none =>
        simp only [pfAddRule, if_neg hport, hparse, hslot]
        exact iff_of_true (fun _ => trivial) (Or.inr (Or.inr (Or.inl trivial)))
      | some i =>
        by_cases hfit : TextsFit name fromProto toProto
        · simp only [pfAddRule, if_neg hport, hparse, hslot, copyRuleTexts_fit _ hfit]
          exact iff_of_true (fun h => by cases h) (Or.inr (Or.inr (Or.inr (Or.inl hfit))))
        · have hadd := pfAddRule_unfit p hport hparse hslot hfit
          have hsame := unfit_unchanged_iff fromProto hslot port hasPort toPort
          rw [hadd]
          constructor
          · intro h
            obtain ⟨hfound, hshort, hrule⟩ := hsame.mp (set_eq_self.mp (h rfl))
            refine Or.inr (Or.inr (Or.inr (Or.inr ⟨i, port, hasPort, hfound, rfl, hshort, hrule⟩)))
          · rintro (h | h | h | h | ⟨j, port', hasPort', hfound, hparsed, hshort, hrule⟩) _
            · exact absurd h hport
            · cases h
            · cases h
            · exact absurd h hfit
            · cases hparsed
              have hij : ruleSlot p.rules name = some j := by rw [ruleSlot, hfound]
              cases hslot.symm.trans hij
              exact set_eq_self.mpr (hsame.mpr ⟨hfound, hshort, hrule⟩)

/-! ## Runs -/

def pfNext (p : PortForwarder) (op : PfOp) : Option PortForwarder := some (pfCall p op).2

def NamesDistinct (p : PortForwarder) : Prop := Distinct PfRule.used PfRule.name p.rules

/-- The rules that are added meet the condition. -/
def FittingRule (p : PortForwarder) : PfOp → Prop
  | .addRule name fromProto fromPortToken toProto toPort =>
    RuleFits p.rules name fromProto fromPortToken toProto toPort
  | _ => True

theorem namesDistinct_addRule {p : PortForwarder} (h : NamesDistinct p)
    {name fromProto fromPortToken toProto : Bytes} {toPort : UInt16}
    (hg : RuleFits p.rules name fromProto fromPortToken toProto toPort) :
    NamesDistinct (pfAddRule p name fromProto fromPortToken toProto toPort).2 := by
  cases hret : (pfAddRule p name fromProto fromPortToken toProto toPort).1 with
  | false =>
    have hsame := (refused_rule_unchanged_iff p name fromProto fromPortToken toProto toPort).mpr hg
    rw [NamesDistinct, hsame hret]
    exact h
  | true =>
    obtain ⟨port, hasPort, i, hslot, -, hadd⟩ := pfAddRule_done hret
    rw [hadd]
    exact distinct_set_slot
      (a := ⟨name, fromProto, port, hasPort, toProto, toPort, 0, true, true⟩)
      h (ruleSlot_slotOf hslot)

theorem namesDistinct_step {p p' : PortForwarder} {op : PfOp} (h : NamesDistinct p)
    (hg : FittingRule p op) (hstep : pfNext p op = some p') : NamesDistinct p' := by
  cases hstep
  cases op with
  | addRule name fromProto fromPortToken toProto toPort => exact namesDistinct_addRule h hg
  | removeRule name =>
    simp only [pfCall]
    rcases pfRemoveRule_cases p name with hremove | ⟨i, hf, hremove⟩
    · rw [hremove]
      exact h
    · rw [hremove]
      exact distinct_set_unused h rfl
  | setRuleEnabled name enabled =>
    simp only [pfCall]
    rcases pfSetRuleEnabled_cases p name enabled with hset | ⟨i, hf, hset⟩
    · rw [hset]
      exact h
    · rw [hset]
      exact distinct_set_same h (findRule_some hf).1 rfl
  | forward emitFn fromProto fromPort payload outRouteCap =>
    exact (inSlots_forward ⟨h, rfl⟩ emitFn fromProto fromPort payload outRouteCap).distinct

/-- A call that returns 0 leaves the rules as they were exactly if it meets the condition; and
in a run of calls that all meet it the names of the rules stay distinct. -/
theorem refused_rule_iff (p : PortForwarder) :
    (∀ name fromProto fromPortToken toProto toPort,
      RefusedRuleUnchanged p name fromProto fromPortToken toProto toPort ↔
        RuleFits p.rules name fromProto fromPortToken toProto toPort) ∧
    (NamesDistinct p → ∀ ops, Each pfNext FittingRule p ops → Always pfNext NamesDistinct p ops) :=
  ⟨refused_rule_unchanged_iff p, fun hp _ hg =>
    always_of_each pfNext (fun _ _ _ h hg hs => namesDistinct_step h hg hs) hp hg⟩

/-- A forwarder with one rule, from any UDP port to TCP port 2. -/
def oneRule : PortForwarder :=
  (pfAddRule pfInitCtx (ascii "r1") (ascii "udp") (ascii "*") (ascii "tcp") 2).2

/-- A rule is refused for its protocol, and the one that had its name forwards no longer. Two
that are refused for their names have both the empty one then. -/
theorem refused_rule_forgotten :
    (¬ ∀ p name fromProto fromPortToken toProto toPort,
      RefusedRuleUnchanged p name fromProto fromPortToken toProto toPort) ∧
    ¬ ∀ ops, Always pfNext NamesDistinct pfInitCtx ops := by
  constructor
  · intro hall
    have hsame := hall oneRule (ascii "r1") (List.replicate 16 120) (ascii "*") (ascii "tcp") 3
    have hret : (pfAddRule oneRule (ascii "r1") (List.replicate 16 120) (ascii "*") (ascii "tcp")
      3).1 = false := by decide +kernel
    exact absurd (hsame hret) (by decide +kernel)
  · intro hall
    let ops : List PfOp := [.addRule (List.replicate 32 120) [] (ascii "*") [] 1,
      .addRule (List.replicate 32 121) [] (ascii "*") [] 1]
    obtain ⟨p, hrun, hnames⟩ := Option.map_eq_some_iff.mp (show (run pfNext pfInitCtx ops).map
      (fun p => (usedSlots PfRule.used p.rules).map PfRule.name) = some [[], []] by decide +kernel)
    have hnodup := (always_end _ (hall ops) hrun).nodup_keys
    rw [← usedSlots, hnames] at hnodup
    exact absurd hnodup (by decide)

end Osfx
