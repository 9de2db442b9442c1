import Osfx.Fusion.Bounds
import Osfx.Fusion.Streams

/-!
# The command a body is sent with

The encoder compares a body with one cached entry. `commands_of_history` says what that
comes to over a run: the entry of a stream holds the latest body of it that had a sensor
(`Tracks`), so the command follows from the bodies alone, and so does the body of a DIFF.
-/

namespace Osfx

open SlotTable Cells Numeral Streams

variable {c : FusionSizes}

/-! ## An entry and the texts it holds -/

theorem holds_unique {n k i : Nat} {cells : Vector (Cell n) k} {bs ds : List Bytes}
    (hb : Holds cells i bs) (hd : Holds cells i ds) (hlen : bs.length = ds.length) : bs = ds := by
  induction bs generalizing i ds with
  | nil => exact (List.length_eq_zero_iff.mp hlen.symm).symm
  | cons b bs ih =>
    cases ds with
    | nil => cases hlen
    | cons d ds =>
      obtain ⟨⟨_, hb⟩, hbs⟩ := hb
      obtain ⟨⟨_, hd⟩, hds⟩ := hd
      rw [← hb, hd, ih hbs hds (by simpa using hlen)]

/-- The texts of `new` that are not the ones of `old`, in order. -/
def changedSlots (old new : List Bytes) : List Bytes :=
  ((old.zip new).filter fun p => p.1 ≠ p.2).map Prod.snd

theorem holds_single_iff {n k i : Nat} {cells : Vector (Cell n) k} {a : Bytes} (b : Bytes)
    (h : ∃ hi : i < k, cells[i].bytes = a) : Holds cells i [b] ↔ a = b := by
  obtain ⟨hi, rfl⟩ := h
  constructor
  · rintro ⟨⟨_, hb⟩, -⟩
    exact hb
  · intro hb
    exact ⟨⟨hi, hb⟩, trivial⟩

theorem changedTexts_of_holds {n k i : Nat} {cells : Vector (Cell n) k} {old new : List Bytes}
    (h : Holds cells i old) (hlen : old.length = new.length) :
    changedTexts cells i new = (changedSlots old new).flatMap fun b => lenU8 b :: b := by
  induction new generalizing i old with
  | nil =>
    rw [List.length_eq_zero_iff.mp hlen]
    rfl
  | cons b new ih =>
    cases old with
    | nil => cases hlen
    | cons a old =>
      obtain ⟨ha, hold⟩ := h
      have hrest := ih hold (by simpa using hlen)
      have hhere := holds_single_iff b ha
      by_cases hab : a = b
      · simp [changedTexts, changedSlots, hhere, hab, hrest]
      · simp [changedTexts, changedSlots, hhere, hab, hrest]

theorem testBit_changedMask_of_holds {n k i : Nat} {cells : Vector (Cell n) k}
    {old new : List Bytes} (h : Holds cells i old) (hlen : old.length = new.length) (j : Nat) :
    (changedMask cells i new).testBit (i + j) = true ↔ old[j]? ≠ new[j]? := by
  induction new generalizing i old j with
  | nil =>
    rw [List.length_eq_zero_iff.mp hlen]
    simp [changedMask]
  | cons b new ih =>
    cases old with
    | nil => cases hlen
    | cons a old =>
      obtain ⟨ha, hold⟩ := h
      cases j with
      | zero =>
        rw [Nat.add_zero, testBit_changedMask_self, holds_single_iff b ha]
        simp
      | succ j =>
        have hrest := ih hold (by simpa using hlen) j
        have hj : i + (j + 1) = i + 1 + j := by omega
        rw [testBit_changedMask_succ (by omega), hj, hrest]
        simp

theorem cString_append_nul (text rest : Bytes) : cString (text ++ 0 :: rest) = cString text := by
  induction text with
  | nil => rfl
  | cons b text ih =>
    simp only [cString] at ih
    simp only [cString, List.cons_append, List.takeWhile_cons, ih]

theorem FusionEntry.sigText_eq (e : FusionEntry c) : e.sigText = cString e.sigBase.toList := by
  have hpred : (fun b : UInt8 => decide (b ≠ 0)) = fun b => b != 0 := by
    funext b
    by_cases hb : b = 0 <;> simp [hb]
  have hprefix := List.takeWhile_prefix (l := e.sigBase.toList) (fun b : UInt8 => b != 0)
  rw [FusionEntry.sigText, strnlen, hpred, cString]
  exact (List.prefix_iff_eq_take.mp hprefix).symm

/-- The bytes of `sig_base` up to its NUL, for an entry that caches a parse. -/
theorem Caches.sigText {e : FusionEntry c} {q : Parsed} (h : Caches e q) :
    e.sigText = cString q.sigBase := by
  have hsplit := List.take_append_drop (q.sigBase.length + 1) e.sigBase.toList
  rw [h.sig, List.append_assoc] at hsplit
  rw [e.sigText_eq, ← hsplit]
  exact cString_append_nul _ _

theorem caches_refreshed (hc : c.FieldsFit) (e : FusionEntry c) {p : Parsed}
    (hp : ParsedFits c p) : Caches (refreshed e p) p where
  sig := by
    have hlen : (p.sigBase ++ [(0 : UInt8)]).length = p.sigBase.length + 1 := by simp
    have hfront := memcpy_front e.sigBase (hlen ▸ hp.sig_lt)
    rwa [hlen] at hfront
  sensors := refreshed_sensorCount hc hp e
  tags := holds_storeFrom hp.tag_fits hp.tags_room
  slots := holds_storeFrom hp.slot_fits hp.slots_room

/-- The template of a parse is that of an earlier one, as far as `sig_base` shows it. -/
def SameTemplate (q p : Parsed) : Prop := cString q.sigBase = p.sigBase ∧ q.tagNames = p.tagNames

instance (q p : Parsed) : Decidable (SameTemplate q p) := inferInstanceAs (Decidable (_ ∧ _))

theorem FusionEntry.sigEmpty_iff (e : FusionEntry c) : e.sigEmpty = true ↔ e.sigText = [] := by
  rw [e.sigText_eq, FusionEntry.sigEmpty, cString]
  cases e.sigBase.toList with
  | nil => simp
  | cons b rest =>
    by_cases hb : b = 0 <;> simp [hb]

theorem Caches.sameStructure_iff {e : FusionEntry c} {q p : Parsed} (h : Caches e q)
    (hok : EntryOk e) (hp : ParsedFits c p) : SameStructure e p ↔ SameTemplate q p := by
  have hvals := hok.vals_eq
  have hsensors := h.sensors
  have hlen := length_sigText e
  constructor
  · intro hs
    have hcount := hs.count
    constructor
    · rw [← h.sigText, FusionEntry.sigText, hs.sig_len, hs.sig]
    · refine holds_unique h.tags hs.tags ?_
      have hq : q.tagNames.length = q.sensorCount := rfl
      have hp' : p.tagNames.length = p.sensorCount := rfl
      omega
  · rintro ⟨hsig, htags⟩
    rw [← h.sigText] at hsig
    rw [hsig] at hlen
    have hcount : p.sensorCount = q.sensorCount := congrArg List.length htags.symm
    refine ⟨?_, by omega, hlen.symm, ?_, htags ▸ h.tags⟩
    · rw [← Bool.not_eq_true, e.sigEmpty_iff, hsig]
      exact hp.sig_ne
    · rw [hlen]
      exact hsig

/-! ## What the history of a stream selects -/

/-- The latest parse with a sensor among the bodies of a stream. -/
def latest (c : FusionSizes) (k : UInt32 × UInt8) (history : List FusionCall) : Option Parsed :=
  (history.reverse.find? fun call =>
    decide (call.stream = k) && decide (keptSensors c call.fullBody ≠ [])).map fun call =>
      parsed c call.fullBody

theorem latest_append (k : UInt32 × UInt8) (history : List FusionCall) (call : FusionCall) :
    latest c k (history ++ [call]) =
      if call.stream = k ∧ keptSensors c call.fullBody ≠ [] then some (parsed c call.fullBody)
      else latest c k history := by
  unfold latest
  rw [List.reverse_append, List.reverse_singleton, List.singleton_append, List.find?_cons]
  by_cases h : call.stream = k ∧ keptSensors c call.fullBody ≠ []
  · simp [h]
  · rw [if_neg h]
    have hno : (decide (call.stream = k) && decide (keptSensors c call.fullBody ≠ [])) = false := by
      simpa [not_and] using h
    rw [hno]

/-- The command for a parse, after the latest earlier one of its stream with a sensor. -/
def selectedCmd (prev : Option Parsed) (p : Parsed) : UInt8 :=
  match prev with
  | none => Cmd.dataFull
  | some q =>
    if p.sensorCount = 0 ∨ ¬ SameTemplate q p then Cmd.dataFull
    else if q.slots = p.slots then Cmd.dataHeart
    else Cmd.dataDiff

/-- A DIFF body that takes slots `old` to `new`: a mask of a bit for each slot, set where
they differ, and the new texts there behind their lengths. -/
def IsDiff (old new : List Bytes) (body : Bytes) : Prop :=
  (∀ b ∈ new, b.length < 256) ∧
  ∃ mask, (∀ i, mask.testBit i = true ↔ old[i]? ≠ new[i]?) ∧
    body = beBytes ((new.length + 7) / 8) mask ++
      (changedSlots old new).flatMap fun b => UInt8.ofNat b.length :: b

/-- What a call that returns 1 has sent. -/
structure Sent (prev : Option Parsed) (p : Parsed) (call : FusionCall) (o : EncodeOut) : Prop where
  cmd : o.outCmd = selectedCmd prev p
  frame : ∃ body, o.outPacket =
      packetFrame o.outCmd call.sourceAid call.tid call.timestampRaw body ∧
    (o.outCmd = Cmd.dataDiff → ∃ q, prev = some q ∧ IsDiff q.slots p.slots body)

/-- The entry of every stream holds its latest body with a sensor. -/
structure Tracks (c : FusionSizes) (history : List FusionCall) (st : FusionState c) : Prop where
  ok : StateOk st
  unseen : ∀ k, latest c k history = none → streamEntry st k = none
  seen : ∀ k q, latest c k history = some q → ∃ e, streamEntry st k = some e ∧ Caches e q

theorem streamEntry_init (k : UInt32 × UInt8) : streamEntry (fusionStateInit c) k = none := by
  have hnone : lookup FusionEntry.used FusionEntry.key (fusionStateInit c) k = none :=
    findEntry_init k.1 k.2
  rw [streamEntry, entry, hnone, Option.map_none]

theorem tracks_init (hc : c.FieldsFit) : Tracks c [] (fusionStateInit c) where
  ok := stateOk_init hc
  unseen := fun k _ => streamEntry_init k
  seen := fun k q h => by cases h

theorem latest_some {k : UInt32 × UInt8} {history : List FusionCall} {q : Parsed}
    (h : latest c k history = some q) : ∃ call ∈ history, call.stream = k ∧
      keptSensors c call.fullBody ≠ [] ∧ parsed c call.fullBody = q := by
  obtain ⟨call, hfind, hq⟩ := Option.map_eq_some_iff.mp h
  have hpred := List.find?_some hfind
  rw [Bool.and_eq_true, decide_eq_true_eq, decide_eq_true_eq] at hpred
  exact ⟨call, List.mem_reverse.mp (List.mem_of_find?_eq_some hfind), hpred.1, hpred.2, hq⟩

/-- A body without a sensor changes nothing that is tracked. -/
theorem tracks_unparsed {history : List FusionCall} {st : FusionState c} {call : FusionCall}
    (h : Tracks c history st) (hk : keptSensors c call.fullBody = []) :
    Tracks c (history ++ [call]) st := by
  have hsame : ∀ k, latest c k (history ++ [call]) = latest c k history := by
    intro k
    rw [latest_append, if_neg fun hn => hn.2 hk]
  exact ⟨h.ok, fun k hn => h.unseen k (hsame k ▸ hn), fun k q hq => h.seen k q (hsame k ▸ hq)⟩

/-- The entry written for a body with sensors is tracked. -/
theorem tracks_refreshed (hc : c.FieldsFit) {history : List FusionCall} {st : FusionState c}
    {x : EncodeCall} (h : Tracks c history st) (hk : keptSensors c x.call.fullBody ≠ [])
    (hfit : SlotsFit c x.call.fullBody) {i : Fin c.maxEntries} {e : FusionEntry c}
    (he : findOrAllocEntry st x.call.sourceAid x.call.tid = some (i, e)) :
    Tracks c (history ++ [x.call])
      (st.set i (refreshed e (parsed c x.call.fullBody)) i.isLt) := by
  have hentry := findOrAllocEntry_some he
  have hp := parsed_fits hc hk hfit
  have hkey : (refreshed e (parsed c x.call.fullBody)).key = x.call.stream := hentry.key
  have hslot := hentry.slotOf
  rw [← hkey] at hslot
  have hset := entry_set hslot (hentry.used : (refreshed e _).used = true)
  refine ⟨stateOk_refreshed hc h.ok he hk hfit, fun k hn => ?_, fun k q hq => ?_⟩
  · rw [latest_append] at hn
    split at hn
    · cases hn
    · rename_i hne
      have hother : k ≠ x.call.stream := fun hs => hne ⟨hs.symm, hk⟩
      rw [streamEntry, hset, hkey, if_neg hother]
      exact h.unseen k hn
  · rw [latest_append] at hq
    split at hq
    · rename_i hs
      cases hq
      refine ⟨_, ?_, caches_refreshed hc e hp⟩
      rw [streamEntry, hset, hkey, if_pos hs.1.symm]
    · rename_i hne
      have hother : k ≠ x.call.stream := fun hs => hne ⟨hs.symm, hk⟩
      rw [streamEntry, hset, hkey, if_neg hother]
      exact h.seen k q hq

/-- Texts of one template have as many slots. -/
theorem SameTemplate.length_slots {body body' : Bytes}
    (h : SameTemplate (parsed c body) (parsed c body')) :
    (parsed c body).slots.length = (parsed c body').slots.length := by
  have hcount := congrArg List.length h.2
  simpa [parsed, parsedOf] using hcount

theorem Caches.holds_slots_iff {e : FusionEntry c} {p q : Parsed} (h : Caches e q)
    (hlen : q.slots.length = p.slots.length) : Holds e.lastVals 0 p.slots ↔ q.slots = p.slots := by
  constructor
  · exact fun hh => holds_unique h.slots hh hlen
  · exact fun hq => hq ▸ h.slots

/-- Against an entry that holds the old slots, the DIFF body takes them to the new ones. -/
theorem Caches.isDiff_diffBody {e : FusionEntry c} {p q : Parsed} (h : Caches e q)
    (hp : ParsedFits c p) (hlen : q.slots.length = p.slots.length) :
    IsDiff q.slots p.slots (diffBody e p) := by
  refine ⟨fun b hb => (hp.slot_fits b hb).1, changedMask e.lastVals 0 p.slots, fun j => ?_, ?_⟩
  · have hbit := testBit_changedMask_of_holds h.slots hlen j
    rwa [Nat.zero_add] at hbit
  · rw [diffBody, changedTexts_of_holds h.slots hlen, hp.slots_eq, Nat.mul_comm]
    rfl

/-- The entry a call finds for its stream, and what is tracked of it. -/
theorem Tracks.chosen (hc : c.FieldsFit) {history : List FusionCall} {st : FusionState c}
    {x : EncodeCall} (h : Tracks c history st) (hk : keptSensors c x.call.fullBody ≠ [])
    (hfit : SlotsFit c x.call.fullBody) {i : Fin c.maxEntries} {e : FusionEntry c}
    (he : findOrAllocEntry st x.call.sourceAid x.call.tid = some (i, e)) :
    chosenCmd e (parsed c x.call.fullBody) =
      selectedCmd (latest c x.call.stream history) (parsed c x.call.fullBody) ∧
    (chosenCmd e (parsed c x.call.fullBody) = Cmd.dataDiff →
      ∃ q, latest c x.call.stream history = some q ∧
        IsDiff q.slots (parsed c x.call.fullBody).slots
          (chosenBody e (parsed c x.call.fullBody) x.call.fullBody)) := by
  have hentry := findOrAllocEntry_some he
  have hp := parsed_fits hc hk hfit
  have hok := hentry.entryOk hc h.ok
  have hget := hentry.eq_getD
  cases hl : latest c x.call.stream history with
  | none =>
    rw [h.unseen _ hl, Option.getD_none] at hget
    have hno : ¬ SameStructure e (parsed c x.call.fullBody) := by
      rw [hget]
      exact not_sameStructure_fresh _ _ _
    rw [chosenCmd, if_neg hno]
    exact ⟨rfl, fun hd => absurd hd (by decide)⟩
  | some q =>
    obtain ⟨e', hcached, hcaches⟩ := h.seen _ q hl
    rw [hcached, Option.getD_some] at hget
    subst hget
    have hsame := hcaches.sameStructure_iff hok hp
    have hpos : ¬ (parsed c x.call.fullBody).sensorCount = 0 := Nat.ne_of_gt hp.sensors_pos
    unfold chosenCmd chosenBody selectedCmd
    by_cases ht : SameTemplate q (parsed c x.call.fullBody)
    · obtain ⟨call, -, -, -, rfl⟩ := latest_some hl
      have hlen := ht.length_slots
      simp only [if_pos (hsame.mpr ht), hcaches.holds_slots_iff hlen, hpos, ht,
        not_true_eq_false, or_self, if_false]
      refine ⟨trivial, fun hd => ⟨_, rfl, ?_⟩⟩
      have hdiffers : ¬ (parsed c call.fullBody).slots = (parsed c x.call.fullBody).slots := by
        intro heq
        rw [if_pos heq] at hd
        exact absurd hd (by decide)
      rw [if_neg hdiffers]
      exact hcaches.isDiff_diffBody hp hlen
    · have hno : ¬ SameStructure e (parsed c x.call.fullBody) := mt hsame.mp ht
      simp only [if_neg hno, ht, not_false_eq_true, or_true, if_true, true_and]
      exact fun hd => absurd hd (by decide)

theorem sendFrame_sent {st : FusionState c} {call : FusionCall} {cmd : UInt8} {body : Bytes}
    {out : EncodeOut} (h : (sendFrame st call cmd body out).ret = true) :
    (sendFrame st call cmd body out).out.outCmd = cmd ∧
    (sendFrame st call cmd body out).out.outPacket =
      packetFrame (sendFrame st call cmd body out).out.outCmd call.sourceAid call.tid
        call.timestampRaw body := by
  refine ⟨sendFrame_outCmd h, ?_⟩
  rw [sendFrame_outCmd h]
  have hroom := (sendFrame_ret_iff.mp h).1
  have hpos := sendFrame_ret.mp h
  rw [sendFrame, if_neg (Int.not_le.mpr hpos), packetEncodeFull, if_neg (by omega)]

/-- A call that returns 1 sends what the history selects, and is tracked. -/
theorem encodeStep_sent (hc : c.FieldsFit) {history : List FusionCall} {st st' : FusionState c}
    {x : EncodeCall} {a : EncodeAnswer} (h : Tracks c history st) (hret : a.1 = true)
    (hstep : encodeStep st x = some (st', a)) : Tracks c (history ++ [x.call]) st' ∧
      Sent (latest c x.call.stream history) (parsed c x.call.fullBody) x.call a.2 := by
  obtain ⟨r, hr, heq⟩ := Option.map_eq_some_iff.mp hstep
  cases heq
  cases fusionEncode_encoded hc h.ok hr with
  | empty _ | noEntry _ => cases hret
  | uncached hk =>
    obtain ⟨hcmd, hframe⟩ := sendFrame_sent hret
    have hzero : (parsed c x.call.fullBody).sensorCount = 0 := by simp [hk]
    have hsel : selectedCmd (latest c x.call.stream history) (parsed c x.call.fullBody) =
        Cmd.dataFull := by
      unfold selectedCmd
      split
      · rfl
      · rw [if_pos (Or.inl hzero)]
    rw [sendFrame_state]
    refine ⟨tracks_unparsed h hk, hcmd.trans hsel.symm, x.call.fullBody, hframe, fun hd => ?_⟩
    exact absurd (hcmd.symm.trans hd) (by decide)
  | @cached i e hk hfit he =>
    obtain ⟨hcmd, hframe⟩ := sendFrame_sent hret
    obtain ⟨hsel, hdiff⟩ := h.chosen hc hk hfit he
    rw [sendFrame_state]
    refine ⟨tracks_refreshed hc h hk hfit he, hcmd.trans hsel, _, hframe, fun hd => ?_⟩
    exact hdiff (hcmd.symm.trans hd)

/-! ## Runs -/

theorem nul_not_mem_headerPrefix {body : Bytes} (h : 0 ∉ body) : 0 ∉ headerPrefix c body := by
  unfold headerPrefix
  cases hb : bodyHeader c body with
  | none => simp
  | some sr =>
    obtain ⟨sig, rest⟩ := sr
    obtain ⟨name, tail, -, rfl, -⟩ := bodyHeader_eq_some hb
    intro hmem
    exact h (List.mem_append_left _ (List.mem_append_left _ hmem))

/-- The header prefix, the number of sensors and the tags of two parses are the same. -/
def Parsed.SameShape (q p : Parsed) : Prop :=
  q.sigBase = p.sigBase ∧ q.sensorCount = p.sensorCount ∧ q.tagNames = p.tagNames

/-- What is sent for a parse after the latest earlier one of its stream with a sensor. -/
structure Selected (prev : Option Parsed) (p : Parsed) (call : FusionCall) (o : EncodeOut) :
    Prop where
  full : (p.sensorCount = 0 ∨ prev = none ∨ ∃ q, prev = some q ∧ ¬ q.SameShape p) →
    o.outCmd = Cmd.dataFull
  heart : ∀ q, prev = some q → p.sensorCount ≠ 0 → q.SameShape p → q.slots = p.slots →
    o.outCmd = Cmd.dataHeart
  diff : ∀ q, prev = some q → p.sensorCount ≠ 0 → q.SameShape p → q.slots ≠ p.slots →
    o.outCmd = Cmd.dataDiff ∧ ∃ body, IsDiff q.slots p.slots body ∧
      o.outPacket = packetFrame Cmd.dataDiff call.sourceAid call.tid call.timestampRaw body

theorem sameTemplate_iff_sameShape {q p : Parsed} (h : 0 ∉ q.sigBase) :
    SameTemplate q p ↔ q.SameShape p := by
  rw [SameTemplate, cString_eq_self h]
  constructor
  · rintro ⟨hsig, htags⟩
    exact ⟨hsig, congrArg List.length htags, htags⟩
  · rintro ⟨hsig, -, htags⟩
    exact ⟨hsig, htags⟩

theorem Sent.selected {prev : Option Parsed} {p : Parsed} {call : FusionCall} {o : EncodeOut}
    (h : Sent prev p call o) (hnul : ∀ q, prev = some q → 0 ∉ q.sigBase) :
    Selected prev p call o := by
  obtain ⟨hcmd, body, hframe, hdiff⟩ := h
  cases prev with
  | none =>
    refine ⟨fun _ => hcmd, ?_, ?_⟩
    · intro q hq
      cases hq
    · intro q hq
      cases hq
  | some q =>
    have hshape := sameTemplate_iff_sameShape (p := p) (hnul q rfl)
    refine ⟨fun hfull => ?_, fun q' hq hpos hsame hslots => ?_, fun q' hq hpos hsame hslots => ?_⟩
    · rw [hcmd, selectedCmd, if_pos]
      rw [hshape]
      rcases hfull with hzero | hnone | ⟨q', hq, hne⟩
      · exact Or.inl hzero
      · cases hnone
      · cases hq
        exact Or.inr hne
    · cases hq
      have hsel := hshape.mpr hsame
      rw [hcmd, selectedCmd, if_neg (by simp [hpos, hsel]), if_pos hslots]
    · cases hq
      have hsel := hshape.mpr hsame
      rw [selectedCmd, if_neg (by simp [hpos, hsel]), if_neg hslots] at hcmd
      obtain ⟨q', hq', hbody⟩ := hdiff hcmd
      cases hq'
      exact ⟨hcmd, body, hbody, hcmd ▸ hframe⟩

/-- In a run of calls that return 1, each sends what the calls before it select. -/
theorem run_sent (hc : c.FieldsFit) {calls : List EncodeCall} {st : FusionState c}
    {log : List (EncodeCall × EncodeAnswer)}
    (hrun : trace encodeStep (fusionStateInit c) calls = some (st, log))
    (hret : ∀ r ∈ log, r.2.1 = true) :
    ∀ before r after, log = before ++ r :: after →
      Sent (latest c r.1.call.stream (before.map fun b => b.1.call))
        (parsed c r.1.call.fullBody) r.1.call r.2.2 := by
  have hinit : Tracks c (([] : List EncodeCall).map EncodeCall.call) (fusionStateInit c) :=
    tracks_init hc
  have hall := trace_history encodeStep
    (I := fun h st => Tracks c (h.map EncodeCall.call) st) (G := fun r => r.2.1 = true)
    (P := fun h x a => Sent (latest c x.call.stream (h.map EncodeCall.call))
      (parsed c x.call.fullBody) x.call a.2) ?_ hinit hret hrun
  · intro before r after hlog
    have hhere := hall before r after hlog
    rw [List.nil_append, List.map_map] at hhere
    exact hhere
  · intro h s x t a htracks hone hstep
    rw [List.map_append]
    exact encodeStep_sent hc htracks hone hstep

/-- In every run of calls that return 1 on bodies without NUL, the bodies of a stream alone
decide what its next one is sent as. -/
theorem commands_of_history (hc : c.Small) {calls : List EncodeCall} {st : FusionState c}
    {log : List (EncodeCall × EncodeAnswer)}
    (hrun : trace encodeStep (fusionStateInit c) calls = some (st, log))
    (hret : ∀ r ∈ log, r.2.1 = true) (hnul : ∀ x ∈ calls, 0 ∉ x.call.fullBody) :
    ∀ before r after, log = before ++ r :: after →
      Selected (latest c r.1.call.stream (before.map fun b => b.1.call))
        (parsed c r.1.call.fullBody) r.1.call r.2.2 := by
  intro before r after hlog
  refine (run_sent hc hrun hret before r after hlog).selected fun q hq => ?_
  obtain ⟨call, hcall, -, -, rfl⟩ := latest_some hq
  obtain ⟨b, hb, rfl⟩ := List.mem_map.mp hcall
  apply nul_not_mem_headerPrefix
  apply hnul
  rw [← trace_events encodeStep hrun, hlog]
  exact List.mem_map_of_mem (List.mem_append_left _ hb)

/-- A FULL, a FULL of another stream, a HEART and a DIFF. -/
def fourCalls : List EncodeCall :=
  [⟨⟨1, 1, 7, ascii "A.U.7|T>m:v|H>n:w|", 512⟩, ⟨[], 0, 0⟩⟩,
    ⟨⟨2, 1, 7, ascii "B.U.7|T>m:v|", 512⟩, ⟨[], 0, 0⟩⟩,
    ⟨⟨1, 1, 8, ascii "A.U.8|T>m:v|H>n:w|", 512⟩, ⟨[], 0, 0⟩⟩,
    ⟨⟨1, 1, 9, ascii "A.U.9|T>m:v|H>n:xyz|", 512⟩, ⟨[], 0, 0⟩⟩]

theorem fourCalls_run : ∃ st log,
    trace encodeStep (fusionStateInit FusionSizes.headerDefault) fourCalls = some (st, log) ∧
    ∀ r ∈ log, r.2.1 = true := by
  have hall : ((trace encodeStep (fusionStateInit FusionSizes.headerDefault) fourCalls).any
      fun r => r.2.all fun x => x.2.1) = true := by decide +kernel
  cases hrun : trace encodeStep (fusionStateInit FusionSizes.headerDefault) fourCalls with
  | none =>
    rw [hrun] at hall
    cases hall
  | some r =>
    rw [hrun, Option.any_some, List.all_eq_true] at hall
    exact ⟨r.1, r.2, rfl, hall⟩

theorem fourCalls_selected : ∃ st log,
    trace encodeStep (fusionStateInit FusionSizes.headerDefault) fourCalls = some (st, log) ∧
    ∀ before r after, log = before ++ r :: after →
      Selected (latest FusionSizes.headerDefault r.1.call.stream (before.map fun b => b.1.call))
        (parsed FusionSizes.headerDefault r.1.call.fullBody) r.1.call r.2.2 := by
  obtain ⟨st, log, hrun, hret⟩ := fourCalls_run
  exact ⟨st, log, hrun, commands_of_history (FusionSizes.shipped_small (by decide)) hrun hret
    (by decide +kernel)⟩

end Osfx
