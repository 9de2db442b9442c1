import Osfx.Lib.Fields
import Osfx.RuleRefusal

/-!
# Saved rules

`osfx_pf_save` and `osfx_pf_load`. A file is a line for each rule, its texts written as they
are between the commas. A text that is empty, or that has a comma or a newline in it, is not
read back, and its rule is lost (`rules_restored_iff`).
-/

namespace Osfx

open EventSystem SlotTable Scan Numeral

/-! ## osfx_pf_save -/

/-- `"%s,%d,%s,%d,%u,%s,%u,%llu\n"`. -/
def ruleText (r : PfRule) : Bytes :=
  r.name ++ comma :: (printInt r.enabled.toInt ++
    comma :: (r.fromProto ++
    comma :: (printInt r.hasFromPort.toInt ++
    comma :: (decimal r.fromPort.toNat ++
    comma :: (r.toProto ++
    comma :: (decimal r.toPort.toNat ++
    comma :: (decimal r.hitCount.toNat ++ [newline])))))))

/-- The rules, in the order of their slots. -/
def savedRules (p : PortForwarder) : List PfRule := usedSlots PfRule.used p.rules

/-- `osfx_pf_save`: what is written, and whether it returns 1, where the file opens or not. -/
def pfSave (p : PortForwarder) (opens : Bool) : Bytes × Bool :=
  if opens then (((savedRules p).map ruleText).flatten, true) else ([], false)

/-! ## osfx_pf_load -/

/-- What is read of a line. -/
structure RuleRecord where
  name : Bytes
  enabled : Int
  fromProto : Bytes
  hasFromPort : Int
  fromPort : UInt32
  toProto : Bytes
  toPort : UInt32
  hitCount : UInt64

/-- `"%31[^,],%d,%15[^,],%d,%u,%15[^,],%u,%llu"`. -/
def scanRule (line : Bytes) : Option RuleRecord := do
  let (name, rest) ← field (scanSet 31 (· != comma)) line
  let (enabled, rest) ← field i32 rest
  let (fromProto, rest) ← field (scanSet 15 (· != comma)) rest
  let (hasFromPort, rest) ← field i32 rest
  let (fromPort, rest) ← field u32 rest
  let (toProto, rest) ← field (scanSet 15 (· != comma)) rest
  let (toPort, rest) ← field u32 rest
  let (hitCount, _) ← u64 rest
  return ⟨name, enabled, fromProto, hasFromPort, fromPort, toProto, toPort, hitCount⟩

/-- The rule a line stands for. Its texts fit, as they were read with a width. -/
def RuleRecord.rule (r : RuleRecord) : PfRule where
  name := r.name
  fromProto := r.fromProto
  fromPort := r.fromPort.toUInt16
  hasFromPort := r.hasFromPort != 0
  toProto := r.toProto
  toPort := r.toPort.toUInt16
  hitCount := r.hitCount
  enabled := r.enabled != 0
  used := true

/-- The body of the loop of `osfx_pf_load`. A line that is not of the format is skipped, and
so is a rule there is no room for. -/
def loadRule (rules : Vector PfRule pfRuleMax) (line : Bytes) : Vector PfRule pfRuleMax :=
  match scanRule (cString line) with
  | none => rules
  | some r =>
    match allocRule rules with
    | none => rules
    | some i => rules.set i r.rule i.isLt

/-- `osfx_pf_load`: the forwarder, and whether it returns 1. There is no file where it does
not open. The lines are read into a buffer of 256 bytes. -/
def pfLoad (p : PortForwarder) : Option Bytes → PortForwarder × Bool
  | none => (p, false)
  | some file =>
    ({ p with rules := (linesOf 255 file).foldl loadRule (Vector.replicate _ PfRule.zero) }, true)

/-! ## Rules that are read back -/

/-- A text that is read back: not empty, and none of its bytes ends a field, a line or a
string. -/
structure Savable (text : Bytes) : Prop where
  ne_nil : text ≠ []
  comma_not_mem : comma ∉ text
  newline_not_mem : newline ∉ text
  nul_not_mem : 0 ∉ text

structure SavableTexts (r : PfRule) : Prop where
  name : Savable r.name
  fromProto : Savable r.fromProto
  toProto : Savable r.toProto

def PfRule.record (r : PfRule) : RuleRecord where
  name := r.name
  enabled := r.enabled.toInt
  fromProto := r.fromProto
  hasFromPort := r.hasFromPort.toInt
  fromPort := r.fromPort.toUInt32
  toProto := r.toProto
  toPort := r.toPort.toUInt32
  hitCount := r.hitCount

theorem field_port (port : UInt16) (rest : Bytes) :
    field u32 (decimal port.toNat ++ comma :: rest) = some (port.toUInt32, rest) := by
  have h := field_u32 port.toUInt32 rest
  rwa [UInt16.toNat_toUInt32] at h

theorem scanRule_ruleText {r : PfRule} (hsavable : SavableTexts r)
    (hfit : TextsFit r.name r.fromProto r.toProto) : scanRule (ruleText r) = some r.record := by
  obtain ⟨hname, hfrom, hto⟩ := hfit
  unfold scanRule ruleText
  apply bind_conv (field_text (Nat.le_of_lt_succ hname) hsavable.name.ne_nil
    hsavable.name.comma_not_mem _)
  apply bind_conv (field_flag _ _)
  apply bind_conv (field_text (Nat.le_of_lt_succ hfrom) hsavable.fromProto.ne_nil
    hsavable.fromProto.comma_not_mem _)
  apply bind_conv (field_flag _ _)
  apply bind_conv (field_port _ _)
  apply bind_conv (field_text (Nat.le_of_lt_succ hto) hsavable.toProto.ne_nil
    hsavable.toProto.comma_not_mem _)
  apply bind_conv (field_port _ _)
  apply bind_conv (u64_decimal _ delimited_newline)
  rfl

theorem rule_record {r : PfRule} (hu : r.used = true) : r.record.rule = r := by
  have hflag : ∀ b : Bool, (b.toInt != 0) = b := by decide
  simp only [RuleRecord.rule, PfRule.record, hflag, UInt16.toUInt16_toUInt32]
  rw [← hu]

theorem isLine_ruleText {r : PfRule} (h : SavableTexts r) : IsLine (ruleText r) := by
  have hflag : ∀ b : Bool, newline ∉ printInt b.toInt :=
    fun b => not_mem_printInt rfl (by decide) _
  have hdecimal : ∀ n, newline ∉ decimal n := newline_not_mem_decimal
  unfold ruleText
  apply isLine_field _ h.name.newline_not_mem
  apply isLine_field _ (hflag _)
  apply isLine_field _ h.fromProto.newline_not_mem
  apply isLine_field _ (hflag _)
  apply isLine_field _ (hdecimal _)
  apply isLine_field _ h.toProto.newline_not_mem
  apply isLine_field _ (hdecimal _)
  exact isLine_last (hdecimal _)

theorem nul_not_mem_ruleText {r : PfRule} (h : SavableTexts r) : 0 ∉ ruleText r := by
  have hcomma : (0 : UInt8) ≠ comma := by decide
  have hnewline : (0 : UInt8) ≠ newline := by decide
  have hdecimal : ∀ n, 0 ∉ decimal n := not_mem_decimal rfl
  have hint : ∀ v, 0 ∉ printInt v := not_mem_printInt rfl (by decide)
  simp only [ruleText, List.mem_append, List.mem_cons, List.not_mem_nil, hdecimal, hint, hcomma,
    hnewline, h.name.nul_not_mem, h.fromProto.nul_not_mem, h.toProto.nul_not_mem, or_self,
    not_false_eq_true]

theorem ruleText_length {r : PfRule} (hfit : TextsFit r.name r.fromProto r.toProto) :
    (ruleText r).length ≤ 255 := by
  obtain ⟨hname, hfrom, hto⟩ := hfit
  have hflag : ∀ b : Bool, (printInt b.toInt).length = 1 := by
    intro b
    cases b <;> rfl
  have hport : ∀ port : UInt16, (decimal port.toNat).length ≤ 5 := by
    intro port
    have hlt := port.toNat_lt
    exact decimal_length_le (by decide) (by omega)
  have hfromPort := hport r.fromPort
  have htoPort := hport r.toPort
  have hhits := decimal_u64_length r.hitCount
  simp only [pfNameMax, pfProtoMax] at hname hfrom hto
  simp only [ruleText, List.length_append, List.length_cons, List.length_nil, hflag]
  omega

/-- The rules of a file, whose texts are savable, are put one behind the other. -/
theorem packed_rules {rules : Vector PfRule pfRuleMax} {rs : List PfRule}
    (h : Packed rules PfRule.zero []) (hused : ∀ r ∈ rs, r.used = true)
    (hsavable : ∀ r ∈ rs, SavableTexts r) (hfit : ∀ r ∈ rs, TextsFit r.name r.fromProto r.toProto)
    (hroom : rs.length ≤ pfRuleMax) :
    Packed ((rs.map ruleText).foldl loadRule rules) PfRule.zero rs := by
  rw [List.foldl_map]
  refine @packed_foldl _ _ _ (fun rules => rules) _ PfRule.zero rs
    (fun rules before r rest hrs hbefore => ?_) _ h
  have hin : r ∈ rs := by simp [← hrs]
  have hfree : before.length < pfRuleMax := by
    rw [← hrs, List.length_append, List.length_cons] at hroom
    omega
  have hold : ∀ q ∈ before, q.used = true := fun q hq => hused q (by simp [← hrs, hq])
  have hslot : allocRule rules = some ⟨before.length, hfree⟩ :=
    packed_vacant hbefore rfl hold hfree
  rw [loadRule, cString_eq_self (nul_not_mem_ruleText (hsavable r hin)),
    scanRule_ruleText (hsavable r hin) (hfit r hin)]
  simp only [hslot, rule_record (hused r hin)]
  exact packed_set hbefore hfree r

theorem load_savedRules {p : PortForwarder} (target : PortForwarder)
    (hfit : ∀ r ∈ savedRules p, TextsFit r.name r.fromProto r.toProto)
    (hsavable : ∀ r ∈ savedRules p, SavableTexts r) :
    savedRules (pfLoad target (some (pfSave p true).1)).1 = savedRules p := by
  have hused : ∀ r ∈ savedRules p, r.used = true := fun r hr => (List.mem_filter.mp hr).2
  have hroom : (savedRules p).length ≤ pfRuleMax := by
    have hle := List.length_filter_le PfRule.used p.rules.toList
    rwa [Vector.length_toList] at hle
  have hlines : linesOf 255 (pfSave p true).1 = (savedRules p).map ruleText := by
    apply linesOf_flatten
    intro line hline
    obtain ⟨r, hr, rfl⟩ := List.mem_map.mp hline
    exact ⟨isLine_ruleText (hsavable r hr), ruleText_length (hfit r hr)⟩
  have hpacked := packed_rules (packed_replicate PfRule.zero) hused hsavable hfit hroom
  rw [savedRules, pfLoad, hlines]
  exact packed_used hpacked rfl hused hroom

/-! ## What is read is savable -/

/-- The text of a field, where nothing is behind the newline of its line. -/
theorem savable_of_field {line text run rest : Bytes} {width : Nat}
    (hline : ∀ front tail, line = front ++ newline :: tail → tail = [])
    (htext : text <:+ cString line)
    (h : field (scanSet width (· != comma)) text = some (run, rest)) : Savable run := by
  obtain ⟨rfl, hne, -, hcomma⟩ := field_text_some h
  obtain ⟨before, hbefore⟩ := htext
  refine ⟨hne, hcomma, fun hnewline => ?_, fun hnul => ?_⟩
  · obtain ⟨front, tail, rfl⟩ := List.append_of_mem hnewline
    obtain ⟨behind, hbehind⟩ := List.takeWhile_prefix (p := fun b => b != 0) (l := line)
    have hsplit : line = (before ++ front) ++ newline :: (tail ++ comma :: rest ++ behind) := by
      rw [← hbehind, ← cString, ← hbefore]
      simp only [List.append_assoc, List.cons_append]
    have hnil := hline _ _ hsplit
    simp at hnil
  · apply nul_not_mem_cString line
    rw [← hbefore]
    exact List.mem_append_right before (List.mem_append_left _ hnul)

theorem savable_of_scanRule {line : Bytes} {r : RuleRecord}
    (hline : ∀ front tail, line = front ++ newline :: tail → tail = [])
    (h : scanRule (cString line) = some r) : SavableTexts r.rule := by
  simp only [scanRule, Option.bind_eq_bind] at h
  obtain ⟨⟨name, rest₁⟩, hname, h⟩ := Option.bind_eq_some_iff.mp h
  obtain ⟨⟨enabled, rest₂⟩, henabled, h⟩ := Option.bind_eq_some_iff.mp h
  obtain ⟨⟨fromProto, rest₃⟩, hfrom, h⟩ := Option.bind_eq_some_iff.mp h
  obtain ⟨⟨hasFromPort, rest₄⟩, hhas, h⟩ := Option.bind_eq_some_iff.mp h
  obtain ⟨⟨fromPort, rest₅⟩, hfromPort, h⟩ := Option.bind_eq_some_iff.mp h
  obtain ⟨⟨toProto, rest₆⟩, hto, h⟩ := Option.bind_eq_some_iff.mp h
  obtain ⟨⟨toPort, rest₇⟩, htoPort, h⟩ := Option.bind_eq_some_iff.mp h
  obtain ⟨⟨hitCount, rest₈⟩, hhits, h⟩ := Option.bind_eq_some_iff.mp h
  cases h
  have h₁ := (consumes_scanSet 31 (· != comma)).field _ _ _ hname
  have h₂ := (consumes_i32.field _ _ _ henabled).trans h₁
  have h₃ := ((consumes_scanSet 15 (· != comma)).field _ _ _ hfrom).trans h₂
  have h₄ := (consumes_i32.field _ _ _ hhas).trans h₃
  have h₅ := (consumes_u32.field _ _ _ hfromPort).trans h₄
  exact ⟨savable_of_field hline List.suffix_rfl hname, savable_of_field hline h₂ hfrom,
    savable_of_field hline h₅ hto⟩

theorem savable_loaded {lines : List Bytes} {rules : Vector PfRule pfRuleMax}
    (hlines : ∀ line ∈ lines, ∀ front tail, line = front ++ newline :: tail → tail = [])
    (h : ∀ i, (rules.get i).used = true → SavableTexts (rules.get i)) :
    ∀ i, ((lines.foldl loadRule rules).get i).used = true →
      SavableTexts ((lines.foldl loadRule rules).get i) := by
  induction lines generalizing rules with
  | nil => exact h
  | cons line lines ih =>
    refine ih (fun l hl => hlines l (List.mem_cons_of_mem line hl)) ?_
    unfold loadRule
    split
    · exact h
    · rename_i r hscan
      have hsavable := savable_of_scanRule (hlines line List.mem_cons_self) hscan
      split
      · exact h
      · exact forall_set (P := fun _ (q : PfRule) => q.used = true → SavableTexts q)
          (fun _ => hsavable) fun j _ => h j

/-! ## Runs -/

/-- A call that returns 1. -/
def pfDone (p : PortForwarder) (op : PfOp) : Option PortForwarder :=
  if (pfCall p op).1 then some (pfCall p op).2 else none

/-- The texts of the rules fit the fields they are kept in. -/
def RulesFit (p : PortForwarder) : Prop :=
  ∀ i, (p.rules.get i).used = true →
    TextsFit (p.rules.get i).name (p.rules.get i).fromProto (p.rules.get i).toProto

theorem RulesFit.set {p : PortForwarder} (h : RulesFit p) (i : Fin pfRuleMax) {r : PfRule}
    (hr : r.used = true → TextsFit r.name r.fromProto r.toProto) :
    RulesFit { p with rules := p.rules.set i r i.isLt } := by
  unfold RulesFit
  exact forall_set
    (P := fun _ (q : PfRule) => q.used = true → TextsFit q.name q.fromProto q.toProto) hr
    fun j _ => h j

theorem rulesFit_addRule {p : PortForwarder} (h : RulesFit p)
    {name fromProto fromPortToken toProto : Bytes} {toPort : UInt16}
    (hret : (pfAddRule p name fromProto fromPortToken toProto toPort).1 = true) :
    RulesFit (pfAddRule p name fromProto fromPortToken toProto toPort).2 := by
  obtain ⟨port, hasPort, i, -, hfit, hadd⟩ := pfAddRule_done hret
  rw [hadd]
  exact h.set i fun _ => hfit

theorem rulesFit_forward {p : PortForwarder} (h : RulesFit p)
    (emitFn : Option (Bytes → UInt16 → Bytes → Bool)) (fromProto : Bytes) (fromPort : UInt16)
    (payload : Bytes) (outRouteCap : Nat) :
    RulesFit (pfForward p emitFn fromProto fromPort payload outRouteCap).plugin := by
  cases emitFn with
  | none => exact h
  | some emit =>
    cases hfind : findSlot p.rules fun r => r.used && r.accepts fromProto fromPort with
    | none =>
      rw [pfForward_not_found emit payload outRouteCap hfind]
      exact h
    | some i =>
      simp only [pfForward, hfind]
      split
      · exact h.set i (r := { p.rules.get i with hitCount := (p.rules.get i).hitCount + 1 }) (h i)
      · exact h

theorem rulesFit_step {p p' : PortForwarder} {op : PfOp} (h : RulesFit p)
    (hstep : pfDone p op = some p') : RulesFit p' := by
  obtain ⟨hret, hp'⟩ := Option.ite_none_right_eq_some.mp hstep
  cases hp'
  cases op with
  | addRule name fromProto fromPortToken toProto toPort => exact rulesFit_addRule h hret
  | removeRule name =>
    simp only [pfCall]
    rcases pfRemoveRule_cases p name with hremove | ⟨i, hf, hremove⟩
    · rw [hremove]
      exact h
    · rw [hremove]
      exact h.set i fun hu => by cases hu
  | setRuleEnabled name enabled =>
    simp only [pfCall]
    rcases pfSetRuleEnabled_cases p name enabled with hset | ⟨i, hf, hset⟩
    · rw [hset]
      exact h
    · rw [hset]
      exact h.set i (h i)
  | forward emitFn fromProto fromPort payload outRouteCap =>
    exact rulesFit_forward h emitFn fromProto fromPort payload outRouteCap

theorem rulesFit_run {ops : List PfOp} {p : PortForwarder}
    (h : run pfDone pfInitCtx ops = some p) : RulesFit p := by
  refine run_invariant pfDone (fun _ _ _ hp hstep => rulesFit_step hp hstep) ?_ h
  intro i hu
  rw [pfInitCtx, get_replicate] at hu
  cases hu

theorem mem_savedRules {p : PortForwarder} {r : PfRule} :
    r ∈ savedRules p ↔ ∃ i, p.rules.get i = r ∧ r.used = true := by
  rw [savedRules, usedSlots, toList_eq_map, List.mem_filter, List.mem_map]
  simp only [List.mem_finRange, true_and, exists_and_right]

/-- The rules of a forwarder whose calls have returned 1 are loaded as they were saved, into
any other, exactly if all their texts are savable. -/
theorem rules_restored_iff (ops : List PfOp) {p : PortForwarder}
    (hrun : run pfDone pfInitCtx ops = some p) (target : PortForwarder) :
    savedRules (pfLoad target (some (pfSave p true).1)).1 = savedRules p ↔
      ∀ r ∈ savedRules p, SavableTexts r := by
  constructor
  · intro hsame r hr
    rw [← hsame] at hr
    obtain ⟨i, rfl, hu⟩ := mem_savedRules.mp hr
    refine savable_loaded (fun line hline front tail => newline_last hline) (fun j hj => ?_) i hu
    rw [get_replicate] at hj
    cases hj
  · refine load_savedRules target fun r hr => ?_
    obtain ⟨i, rfl, hu⟩ := mem_savedRules.mp hr
    exact rulesFit_run hrun i hu

/-- A forwarder to which one rule has been added, from UDP port 80 to TCP port 443. -/
theorem webRule_restored : ∃ p, run pfDone pfInitCtx
    [.addRule (ascii "web") (ascii "udp") (ascii "80") (ascii "tcp") 443] = some p ∧
    savedRules (pfLoad pfInitCtx (some (pfSave p true).1)).1 = savedRules p := by
  obtain ⟨p, hrun, hrules⟩ := Option.map_eq_some_iff.mp (show (run pfDone pfInitCtx
    [.addRule (ascii "web") (ascii "udp") (ascii "80") (ascii "tcp") 443]).map savedRules =
      some [⟨ascii "web", ascii "udp", 80, true, ascii "tcp", 443, 0, true, true⟩]
    by decide +kernel)
  refine ⟨p, hrun, (rules_restored_iff _ hrun pfInitCtx).mpr fun r hr => ?_⟩
  rw [hrules, List.mem_singleton] at hr
  subst hr
  exact ⟨by constructor <;> decide, by constructor <;> decide, by constructor <;> decide⟩

/-- A rule whose name has a comma in it is not loaded again. -/
theorem commaRule_lost : ¬ ∀ (ops : List PfOp) (p target : PortForwarder),
    run pfDone pfInitCtx ops = some p →
      savedRules (pfLoad target (some (pfSave p true).1)).1 = savedRules p := by
  intro hall
  obtain ⟨p, hrun, hrules⟩ := Option.map_eq_some_iff.mp (show (run pfDone pfInitCtx
    [.addRule (ascii "a,b") (ascii "udp") (ascii "*") (ascii "tcp") 2]).map
      (fun p => (savedRules p, savedRules (pfLoad pfInitCtx (some (pfSave p true).1)).1)) =
      some ([⟨ascii "a,b", ascii "udp", 0, false, ascii "tcp", 2, 0, true, true⟩], [])
    by decide +kernel)
  have hsame := hall _ p pfInitCtx hrun
  rw [(Prod.mk.inj hrules).1, (Prod.mk.inj hrules).2] at hsame
  cases hsame

end Osfx
