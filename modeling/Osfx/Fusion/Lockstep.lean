import Osfx.Fusion.Bounds

/-!
# Encoder and decoder in lockstep

A decoder that starts from the encoder's table and is given the encoder's packet
ends in the encoder's new table and rebuilds the body (`lockstep_step`): a FULL
verbatim, a DIFF or HEART as the header prefix, the timestamp the frame carries
and the sensors the cache took. The one exception is a FULL whose frame is too
long for an `int`: its length wraps around and the packet is cut short.
-/

namespace Osfx

open EventSystem SlotTable Numeral Text Cells

variable {c : FusionSizes}

/-! ## The text of a refreshed entry -/

theorem getElem?_slotsOf {sensors : List Sensor} {i : Nat} {s : Sensor}
    (h : sensors[i]? = some s) :
    (slotsOf sensors)[i * 2]? = some s.2.1 ∧ (slotsOf sensors)[i * 2 + 1]? = some s.2.2 := by
  induction sensors generalizing i with
  | nil => simp at h
  | cons x sensors ih =>
    have hcons : slotsOf (x :: sensors) = x.2.1 :: x.2.2 :: slotsOf sensors := rfl
    cases i with
    | zero =>
      obtain rfl : x = s := by simpa using h
      simp [hcons]
    | succ i =>
      have hrest := ih (i := i) (by simpa using h)
      have h0 : (i + 1) * 2 = i * 2 + 2 := by omega
      simpa [hcons, h0] using hrest

theorem cellText_eq {n k i j : Nat} {cells : Vector (Cell n) k} {bs : List Bytes} {b : Bytes}
    (hh : Holds cells i bs) (hj : bs[j]? = some b) : cellText cells (i + j) = b := by
  obtain ⟨hk, hb⟩ := holds_getElem hh hj
  simp only [cellText, Vector.getElem?_eq_getElem hk, hb]

/-- A refreshed entry holds the sensors it was refreshed with. -/
theorem sensors_refreshed (hc : c.FieldsFit) {sig : Bytes} {sensors : List Sensor}
    (hp : ParsedFits c (parsedOf sig sensors)) (e : FusionEntry c) :
    (refreshed e (parsedOf sig sensors)).sensors = sensors := by
  have hcount := refreshed_sensorCount hc hp e
  rw [sensorCount_parsedOf] at hcount
  have htags : Holds (refreshed e (parsedOf sig sensors)).tagNames 0 (sensors.map Prod.fst) :=
    holds_storeFrom hp.tag_fits hp.tags_room
  have hvals : Holds (refreshed e (parsedOf sig sensors)).lastVals 0 (slotsOf sensors) :=
    holds_storeFrom hp.slot_fits hp.slots_room
  apply List.ext_getElem
  · simp [FusionEntry.sensors, hcount]
  · intro i hi hj
    have hs : sensors[i]? = some sensors[i] := List.getElem?_eq_getElem hj
    have htag : (sensors.map Prod.fst)[i]? = some sensors[i].1 := by simp [hs]
    obtain ⟨hmeta, hval⟩ := getElem?_slotsOf hs
    have h1 := cellText_eq htags htag
    have h2 := cellText_eq hvals hmeta
    have h3 := cellText_eq hvals hval
    rw [Nat.zero_add] at h1 h2 h3
    simp only [FusionEntry.sensors, List.getElem_map, List.getElem_range, FusionEntry.sensorAt, h1,
      h2, h3]

/-- With the structure unchanged the refreshed entry keeps its header prefix. -/
theorem SameStructure.text_refreshed (hc : c.Small) {sig : Bytes} {sensors : List Sensor}
    {e : FusionEntry c} (h : SameStructure e (parsedOf sig sensors))
    (hp : ParsedFits c (parsedOf sig sensors)) (ts : UInt64) :
    (refreshed e (parsedOf sig sensors)).text ts = templateText sig ts.toNat sensors := by
  have hsig : (refreshed e (parsedOf sig sensors)).sigText = sig := by
    have hkeep : (refreshed e (parsedOf sig sensors)).sigBase = e.sigBase := h.memcpy_sig hp
    rw [FusionEntry.sigText, hkeep, h.sig_len]
    exact h.sig
  rw [FusionEntry.text, hsig, sensors_refreshed hc hp]

theorem SameStructure.rebuilds (hc : c.Small) {e : FusionEntry c} {p : Parsed}
    (h : SameStructure e p) (hp : ParsedFits c p) {ts : UInt64} {cap : Nat}
    (hcap : ((refreshed e p).text ts).length ≤ cap) : Rebuilds (refreshed e p) ts cap := by
  refine ⟨?_, ?_, hcap⟩
  · have hkeep : (refreshed e p).sigBase = e.sigBase := h.memcpy_sig hp
    rw [FusionEntry.sigEmpty, hkeep]
    exact h.sig_ne
  · intro hz
    have hcount := refreshed_sensorCount hc hp e
    have := hp.sensors_pos
    rw [hz, UInt8.toNat_zero] at hcount
    omega

/-! ## Reading a DIFF back -/

theorem length_changedTexts_le {m k : Nat} (cells : Vector (Cell m) k) (i : Nat)
    {bs : List Bytes} (hfit : ∀ b ∈ bs, Fits m b) :
    (changedTexts cells i bs).length ≤ 256 * bs.length := by
  induction bs generalizing i with
  | nil => simp [changedTexts]
  | cons b bs ih =>
    have hb := (hfit b List.mem_cons_self).1
    have hrest := ih (i + 1) fun x hx => hfit x (List.mem_cons_of_mem b hx)
    rw [changedTexts, List.length_append, List.length_cons]
    split
    · simp only [List.length_nil]
      omega
    · simp only [List.length_cons]
      omega

/-- The body of a DIFF takes the decoder's entry to the encoder's. -/
theorem diffRead_diffBody (hc : c.Small) {e : FusionEntry c} {p : Parsed} (hok : EntryOk e)
    (hp : ParsedFits c p) (h : SameStructure e p) :
    (diffRead e (diffBody e p)).2 = true ∧ applied e (diffBody e p) = refreshed e p := by
  have hcount := h.count
  have hpos := hp.sensors_pos
  have hslots := hp.slots_eq
  have hle := hp.slots_le
  have h32 := hc.vals_le
  have hz : e.valCount ≠ 0 := by
    intro hz
    rw [hz, UInt8.toNat_zero] at hcount
    omega
  have hlen : (beBytes ((p.sensorCount * 2 + 7) / 8) (changedMask e.lastVals 0 p.slots)).length =
      (p.sensorCount * 2 + 7) / 8 := length_beBytes _ _
  have hmask : beNat (beBytes ((p.sensorCount * 2 + 7) / 8) (changedMask e.lastVals 0 p.slots)) %
      2 ^ 32 = changedMask e.lastVals 0 p.slots := by
    have hlt := changedMask_lt e.lastVals 0 p.slots
    have h8 : (256 : Nat) ^ ((p.sensorCount * 2 + 7) / 8) =
        2 ^ (8 * ((p.sensorCount * 2 + 7) / 8)) := by
      rw [Nat.pow_mul]
    have hbytes : changedMask e.lastVals 0 p.slots < 256 ^ ((p.sensorCount * 2 + 7) / 8) := by
      rw [h8]
      exact Nat.lt_of_lt_of_le hlt (Nat.pow_le_pow_right (by decide) (by omega))
    have hword : changedMask e.lastVals 0 p.slots < 2 ^ 32 :=
      Nat.lt_of_lt_of_le hlt (Nat.pow_le_pow_right (by decide) (by omega))
    rw [beNat_beBytes_of_lt hbytes, Nat.mod_eq_of_lt hword]
  have hread : diffRead e (diffBody e p) = diffFields c.maxValLen
      (changedMask e.lastVals 0 p.slots) p.slots.length 0 (changedTexts e.lastVals 0 p.slots) := by
    have hn : p.sensorCount * 2 = p.slots.length := by omega
    simp only [diffRead, diffBody, hcount]
    rw [if_neg (by simp [hz]), List.take_left' hlen, List.drop_left' hlen, hmask, hn]
  have hrun := applySlots_changed (changedMask e.lastVals 0 p.slots) hp.slot_fits hp.slots_room
    hok.vals fun _ _ => rfl
  rw [applySlots_eq _ _ _ hp.slots_room, ← hread] at hrun
  obtain ⟨hstored, hwell⟩ : storeFields e.lastVals (diffRead e (diffBody e p)).1 =
      storeFrom e.lastVals 0 p.slots ∧ (diffRead e (diffBody e p)).2 = true := by simpa using hrun
  refine ⟨hwell, ?_⟩
  rw [h.refreshed_eq hc hok hp, applied, hstored]

/-! ## One exchange -/

/-- The call finds no structure to send against: its body goes out as a FULL. -/
def SentFull (st : FusionState c) (call : FusionCall) : Prop :=
  keptSensors c call.fullBody = [] ∨
  ∀ i e, findOrAllocEntry st call.sourceAid call.tid = some (i, e) →
    ¬ SameStructure e (parsed c call.fullBody)

/-- A FULL whose frame length is an `int`. -/
def FullFitsInt (st : FusionState c) (call : FusionCall) : Prop :=
  SentFull st call → call.fullBody.length + 16 < 2 ^ 31

/-- The body a packet of this command stands for. -/
def expectedBody (c : FusionSizes) (call : FusionCall) (cmd : UInt8) : Bytes :=
  if cmd = Cmd.dataFull then call.fullBody
  else templateText (headerPrefix c call.fullBody) (call.timestampRaw.toNat % 2 ^ 48)
    (keptSensors c call.fullBody)

/-- The metadata of the frame of a call. -/
def frameMeta (call : FusionCall) (cmd : UInt8) (bodyLen : Nat) : PacketMeta where
  cmd := cmd
  routeCount := 1
  sourceAid := call.sourceAid
  tid := call.tid
  timestampRaw := wireTimestamp call.timestampRaw
  bodyOffset := 13
  bodyLen := bodyLen
  crc8Ok := true
  crc16Ok := true

theorem toNat_wireTimestamp (ts : UInt64) : (wireTimestamp ts).toNat = ts.toNat % 2 ^ 48 := by
  have : ts.toNat % 2 ^ 48 < 2 ^ 64 := Nat.lt_trans (Nat.mod_lt _ (by decide)) (by decide)
  simp only [wireTimestamp, UInt64.toNat_ofNat']
  omega

/-- A frame that is sent and fits an `int` is read back as it was laid out. -/
theorem sendFrame_packet {st : FusionState c} {call : FusionCall} {cmd : UInt8} {body : Bytes}
    {out : EncodeOut} (hret : (sendFrame st call cmd body out).ret = true)
    (hint : body.length + 16 < 2 ^ 31) :
    (sendFrame st call cmd body out).out.outCmd = cmd ∧
    packetDecodeMeta (sendFrame st call cmd body out).out.packet =
      some (frameMeta call cmd body.length) ∧
    (frameMeta call cmd body.length).body (sendFrame st call cmd body out).out.packet = body := by
  have hframe := packetDecodeMin_frame cmd call.sourceAid call.tid call.timestampRaw body
  have hbody := frame_body cmd call.sourceAid call.tid call.timestampRaw body
    (crc8 body 0x07 0x00)
  have hpkt := sendFrame_frame hret hint
  refine ⟨sendFrame_outCmd hret, ?_, ?_⟩
  · rw [hpkt]
    exact hframe
  · rw [hpkt]
    exact hbody

section
variable {st st' : FusionState c} {call : FusionCall} {out : EncodeOut} {cap : Nat}

/-- The packet of a FULL hands out its body, and the receiver has learned it. -/
theorem decode_full (hc : c.Small) (st : FusionState c) (hfit : SlotsFit c call.fullBody)
    (hint : call.fullBody.length + 16 < 2 ^ 31)
    (hret : (sendFrame st' call Cmd.dataFull call.fullBody out).ret = true)
    (hcap : call.fullBody.length ≤ cap) :
    ∃ pm, fusionDecodeApply st (sendFrame st' call Cmd.dataFull call.fullBody out).out.packet cap =
      some ⟨learned st call.sourceAid call.tid call.fullBody, some (call.fullBody, pm)⟩ := by
  obtain ⟨-, hmeta, hbody⟩ := sendFrame_packet hret hint
  refine ⟨frameMeta call Cmd.dataFull call.fullBody.length, ?_⟩
  rw [fusionDecodeApply_full hc cap hmeta rfl, hbody, if_pos hfit, if_neg (Nat.not_lt.mpr hcap)]
  rfl

/-- The packet of a HEART hands out the text of the cached entry. -/
theorem decode_heart {i : Fin c.maxEntries} (hi : findEntry st call.sourceAid call.tid = some i)
    (hok : EntryOk (st.get i)) (hret : (sendFrame st' call Cmd.dataHeart [] out).ret = true)
    (hrebuild : Rebuilds (st.get i) (wireTimestamp call.timestampRaw) cap) :
    ∃ pm, fusionDecodeApply st (sendFrame st' call Cmd.dataHeart [] out).out.packet cap =
      some ⟨st, some ((st.get i).text (wireTimestamp call.timestampRaw), pm)⟩ := by
  obtain ⟨-, hmeta, -⟩ := sendFrame_packet hret (by decide)
  have hpm : (frameMeta call Cmd.dataHeart ([] : Bytes).length).timestampRaw =
      wireTimestamp call.timestampRaw := rfl
  refine ⟨frameMeta call Cmd.dataHeart ([] : Bytes).length, ?_⟩
  rw [fusionDecodeApply_heart cap hmeta rfl hi, decodeHeart_eq hok, hpm, if_pos hrebuild]

theorem length_diffBody_lt (hc : c.Small) (e : FusionEntry c) {p : Parsed} (hp : ParsedFits c p) :
    (diffBody e p).length + 16 < 2 ^ 31 := by
  have hle := length_changedTexts_le e.lastVals 0 hp.slot_fits
  have := hp.slots_le
  have := hp.slots_eq
  have := hc.vals_le
  simp only [diffBody, List.length_append, length_beBytes]
  omega

/-- The packet of a DIFF refreshes the entry and hands out its text. -/
theorem decode_diff (hc : c.Small) {i : Fin c.maxEntries}
    (hi : findEntry st call.sourceAid call.tid = some i) (hok : EntryOk (st.get i)) {p : Parsed}
    (hp : ParsedFits c p) (hsame : SameStructure (st.get i) p)
    (hret : (sendFrame st' call Cmd.dataDiff (diffBody (st.get i) p) out).ret = true)
    (hrebuild : Rebuilds (refreshed (st.get i) p) (wireTimestamp call.timestampRaw) cap) :
    ∃ pm, fusionDecodeApply st
        (sendFrame st' call Cmd.dataDiff (diffBody (st.get i) p) out).out.packet cap =
      some ⟨st.set i (refreshed (st.get i) p) i.isLt,
        some ((refreshed (st.get i) p).text (wireTimestamp call.timestampRaw), pm)⟩ := by
  obtain ⟨hwell, happly⟩ := diffRead_diffBody hc hok hp hsame
  obtain ⟨-, hmeta, hbody⟩ := sendFrame_packet hret (length_diffBody_lt hc (st.get i) hp)
  have hpm : (frameMeta call Cmd.dataDiff (diffBody (st.get i) p).length).timestampRaw =
      wireTimestamp call.timestampRaw := rfl
  refine ⟨frameMeta call Cmd.dataDiff (diffBody (st.get i) p).length, ?_⟩
  rw [fusionDecodeApply_diff cap hmeta rfl hi, decodeDiff_eq hc hok, hbody, hpm]
  simp only [happly, hwell, true_and, if_pos hrebuild]

/-- A call that finds its structure in the cache takes both sides to the refreshed
entry, whether slots have changed or not. -/
theorem lockstep_cached (hc : c.Small) (hok : StateOk st) {i : Fin c.maxEntries}
    (hi : findEntry st call.sourceAid call.tid = some i)
    (hp : ParsedFits c (parsed c call.fullBody))
    (hsame : SameStructure (st.get i) (parsed c call.fullBody)) {r : EncodeResult c}
    (hr : r = sendFrame (st.set i (refreshed (st.get i) (parsed c call.fullBody)) i.isLt) call
      (chosenCmd (st.get i) (parsed c call.fullBody))
      (chosenBody (st.get i) (parsed c call.fullBody) call.fullBody) out)
    (hret : r.ret = true) (hcap : (expectedBody c call r.out.outCmd).length ≤ cap) :
    ∃ pm, fusionDecodeApply st r.out.packet cap =
      some ⟨r.state, some (expectedBody c call r.out.outCmd, pm)⟩ := by
  have heok := hok.entry i
  have htext : (refreshed (st.get i) (parsed c call.fullBody)).text
      (wireTimestamp call.timestampRaw) = templateText (headerPrefix c call.fullBody)
      (call.timestampRaw.toNat % 2 ^ 48) (keptSensors c call.fullBody) := by
    rw [← toNat_wireTimestamp]
    exact hsame.text_refreshed hc hp _
  by_cases hheld : Holds (st.get i).lastVals 0 (parsed c call.fullBody).slots
  · have hself := (storeFrom_eq_self hp.slot_fits hp.slots_room heok.vals).mpr hheld
    have hkeep : refreshed (st.get i) (parsed c call.fullBody) = st.get i := by
      rw [hsame.refreshed_eq hc heok hp, hself]
    simp only [chosenCmd, chosenBody, if_pos hsame, if_pos hheld] at hr
    subst hr
    rw [sendFrame_outCmd hret, expectedBody, if_neg (by decide), ← htext] at hcap ⊢
    have hrebuild := hsame.rebuilds hc hp hcap
    rw [hkeep] at hrebuild
    rw [sendFrame_state, hkeep, set_get_self]
    rw [hkeep, set_get_self] at hret
    exact decode_heart hi heok hret hrebuild
  · simp only [chosenCmd, chosenBody, if_pos hsame, if_neg hheld] at hr
    subst hr
    rw [sendFrame_outCmd hret, expectedBody, if_neg (by decide), ← htext] at hcap ⊢
    rw [sendFrame_state]
    exact decode_diff hc hi heok hp hsame hret (hsame.rebuilds hc hp hcap)

end

/-- The packet of a call takes the table it was encoded from to the table the
encoder is left with, and hands out the expected body. -/
theorem lockstep_step (hc : c.Small) {st : FusionState c} (hok : StateOk st) {call : FusionCall}
    {out : EncodeOut} {r : EncodeResult c} (hr : fusionEncode st call out = some r)
    (hret : r.ret = true) (hint : FullFitsInt st call) {cap : Nat}
    (hcap : (expectedBody c call r.out.outCmd).length ≤ cap) :
    ∃ pm, fusionDecodeApply st r.out.packet cap =
      some ⟨r.state, some (expectedBody c call r.out.outCmd, pm)⟩ := by
  cases fusionEncode_encoded hc hok hr with
  | empty _ | noEntry _ => cases hret
  | uncached hk =>
    have hfit : SlotsFit c call.fullBody := by simp [SlotsFit, hk]
    have hlearn : learned st call.sourceAid call.tid call.fullBody = st := if_pos hk
    rw [sendFrame_outCmd hret, expectedBody, if_pos rfl] at hcap ⊢
    rw [sendFrame_state]
    have hdec := decode_full hc st hfit (hint (Or.inl hk)) hret hcap
    rwa [hlearn] at hdec
  | @cached i e hk hfit he =>
    have hp := parsed_fits hc hk hfit
    by_cases hsame : SameStructure e (parsed c call.fullBody)
    · cases findOrAllocEntry_some he with
      | fresh _ _ => exact absurd hsame (not_sameStructure_fresh _ _ _)
      | cached hi => exact lockstep_cached hc hok hi hp hsame rfl hret hcap
    · have hlong : call.fullBody.length + 16 < 2 ^ 31 := by
        apply hint
        refine Or.inr ?_
        intro i' e' he'
        rw [he] at he'
        cases he'
        exact hsame
      simp only [chosenCmd, chosenBody, if_neg hsame] at hret hcap ⊢
      have hlearn : learned st call.sourceAid call.tid call.fullBody =
          st.set i (refreshed e (parsed c call.fullBody)) i.isLt := by
        simp only [learned, if_neg hk, he]
      rw [sendFrame_outCmd hret, expectedBody, if_pos rfl] at hcap ⊢
      rw [sendFrame_state]
      have hdec := decode_full hc st hfit hlong hret hcap
      rwa [hlearn] at hdec

/-- A successful call without a structure to send against is one sent as a FULL. -/
theorem sentFull_iff (hc : c.FieldsFit) {st : FusionState c} (hok : StateOk st)
    {call : FusionCall} {out : EncodeOut} {r : EncodeResult c}
    (hr : fusionEncode st call out = some r) (hret : r.ret = true) :
    SentFull st call ↔ r.out.outCmd = Cmd.dataFull := by
  cases fusionEncode_encoded hc hok hr with
  | empty _ | noEntry _ => cases hret
  | uncached hk => exact ⟨fun _ => sendFrame_outCmd hret, fun _ => Or.inl hk⟩
  | @cached i e hk _ he =>
    rw [sendFrame_outCmd hret]
    by_cases hsame : SameStructure e (parsed c call.fullBody)
    · have hdelta : chosenCmd e (parsed c call.fullBody) ≠ Cmd.dataFull := by
        rw [chosenCmd, if_pos hsame]
        split <;> decide
      refine ⟨fun hfull => ?_, fun hfull => absurd hfull hdelta⟩
      exact absurd hsame (hfull.resolve_left hk i e he)
    · refine ⟨fun _ => by rw [chosenCmd, if_neg hsame], fun _ => Or.inr fun i' e' he' => ?_⟩
      rw [he] at he'
      cases he'
      exact hsame

/-! ## Frames too long for an int -/

/-- A positive `int` that is not the length it was cast from has lost 2^32 of it. -/
theorem castInt_pos {n : Nat} (h : 0 < castInt n) : (castInt n).toNat < 2 ^ 31 ∧
    (n < 2 ^ 31 ∨ 2 ^ 32 < n) := by
  unfold castInt at h ⊢
  rw [Int.bmod_def] at h ⊢
  split at h <;> omega

/-- What a FULL hands out is part of the packet. -/
theorem delivered_length_le (hc : c.Small) {st : FusionState c} {packet : Bytes} {cap : Nat}
    {d : DecodeResult c} (hd : fusionDecodeApply st packet cap = some d)
    (hfull : packet.getD 0 0 = Cmd.dataFull) {body : Bytes} {pm : PacketMeta}
    (hout : d.out = some (body, pm)) : body.length ≤ packet.length := by
  cases hm : packetDecodeMeta packet with
  | none =>
    simp only [fusionDecodeApply, hm] at hd
    cases hd
    cases hout
  | some pm' =>
    have hcmd : pm'.cmd = Cmd.dataFull := (decodedFrom_packet hm).cmd.trans hfull
    rw [fusionDecodeApply_full hc cap hm hcmd] at hd
    split at hd
    · cases hd
      simp only at hout
      split at hout
      · cases hout
      · cases hout
        simp only [PacketMeta.body, slice, List.length_take, List.length_drop]
        omega
    · cases hd

/-- A FULL that does not fit an `int` is cut short, and its body with it. -/
theorem long_full_not_delivered (hc : c.Small) {st st' : FusionState c} {call : FusionCall}
    {out : EncodeOut} (hlong : ¬ call.fullBody.length + 16 < 2 ^ 31)
    (hret : (sendFrame st' call Cmd.dataFull call.fullBody out).ret = true) {cap : Nat}
    {d : DecodeResult c} (hd : fusionDecodeApply st
      (sendFrame st' call Cmd.dataFull call.fullBody out).out.packet cap = some d) :
    d.out.map Prod.fst ≠ some call.fullBody := by
  have hpos := sendFrame_ret.mp hret
  have hroom : ¬ call.outPacketCap < 13 + call.fullBody.length + 3 := by
    intro h
    rw [packetEncodeFull, if_pos h] at hpos
    exact absurd hpos (by decide)
  simp only [packetEncodeFull, if_neg hroom, length_packetFrame] at hpos
  have hpkt : (sendFrame st' call Cmd.dataFull call.fullBody out).out.packet =
      (packetFrame Cmd.dataFull call.sourceAid call.tid call.timestampRaw call.fullBody).take
        (castInt (call.fullBody.length + 16)).toNat := by
    simp only [sendFrame, packetEncodeFull, if_neg hroom, length_packetFrame,
      if_neg (Int.not_le.mpr hpos), EncodeOut.packet]
  obtain ⟨hcut, hwrap⟩ := castInt_pos hpos
  have hfirst : ((packetFrame Cmd.dataFull call.sourceAid call.tid call.timestampRaw
      call.fullBody).take (castInt (call.fullBody.length + 16)).toNat).getD 0 0 = Cmd.dataFull := by
    have hcons : ∃ rest, packetFrame Cmd.dataFull call.sourceAid call.tid call.timestampRaw
        call.fullBody = Cmd.dataFull :: rest := ⟨_, rfl⟩
    obtain ⟨rest, hcons⟩ := hcons
    obtain ⟨n, hn⟩ : ∃ n, (castInt (call.fullBody.length + 16)).toNat = n + 1 :=
      ⟨(castInt (call.fullBody.length + 16)).toNat - 1, by omega⟩
    rw [hcons, hn, List.take_succ_cons, List.getD_cons_zero]
  rw [hpkt] at hd
  intro hsome
  obtain ⟨⟨body, pm⟩, hout, hbody⟩ := Option.map_eq_some_iff.mp hsome
  have hle := delivered_length_le hc hd hfirst hout
  have hbody' : body = call.fullBody := hbody
  rw [hbody', List.length_take] at hle
  omega

/-! ## Runs of a linked pair -/

/-- One call whose packet is handed over at once, and the receiver's buffer. -/
structure Send where
  call : FusionCall
  out : EncodeOut
  outBodyCap : Nat

/-- The last exchange: the call, the command it was sent with and the body handed out. -/
structure Exchange where
  call : FusionCall
  cmd : UInt8
  delivered : Option Bytes

structure Link (c : FusionSizes) where
  sender : FusionState c
  receiver : FusionState c
  last : Option Exchange

def Link.init (c : FusionSizes) : Link c := ⟨fusionStateInit c, fusionStateInit c, none⟩

/-- An encode call that returns 1 and the decode of its packet into a buffer that
holds the body expected. A decode that leaves the arrays hands out nothing. -/
def linkStep (l : Link c) (s : Send) : Option (Link c) := do
  let r ← fusionEncode l.sender s.call s.out
  if r.ret = true ∧ (expectedBody c s.call r.out.outCmd).length ≤ s.outBodyCap then
    let d := (fusionDecodeApply l.receiver r.out.packet s.outBodyCap).getD ⟨l.receiver, none⟩
    some ⟨r.state, d.state, some ⟨s.call, r.out.outCmd, d.out.map Prod.fst⟩⟩
  else none

/-- Both tables are the same, and the last packet delivered the body it stands for. -/
def InLockstep (l : Link c) : Prop :=
  l.sender = l.receiver ∧
  ∀ x, l.last = some x → x.delivered = some (expectedBody c x.call x.cmd)

theorem linkStep_cases {l l' : Link c} {s : Send} (h : linkStep l s = some l') :
    ∃ r, fusionEncode l.sender s.call s.out = some r ∧ r.ret = true ∧
      (expectedBody c s.call r.out.outCmd).length ≤ s.outBodyCap ∧
      ∃ d, (fusionDecodeApply l.receiver r.out.packet s.outBodyCap).getD ⟨l.receiver, none⟩ = d ∧
        l' = ⟨r.state, d.state, some ⟨s.call, r.out.outCmd, d.out.map Prod.fst⟩⟩ := by
  obtain ⟨r, hr, h⟩ := Option.bind_eq_some_iff.mp h
  split at h
  · rename_i hguard
    cases h
    exact ⟨r, hr, hguard.1, hguard.2, _, rfl, rfl⟩
  · cases h

def LinkOk (l : Link c) : Prop := StateOk l.sender ∧ InLockstep l

theorem linkStep_keeps (hc : c.Small) (l : Link c) (s : Send) (l' : Link c) (hok : LinkOk l)
    (hint : FullFitsInt l.sender s.call) (h : linkStep l s = some l') : LinkOk l' := by
  obtain ⟨hstate, hsame, -⟩ := hok
  obtain ⟨r, hr, hret, hcap, d, hd, rfl⟩ := linkStep_cases h
  obtain ⟨pm, hdec⟩ := lockstep_step hc hstate hr hret hint hcap
  rw [← hsame, hdec] at hd
  obtain rfl : _ = d := hd
  refine ⟨?_, rfl, ?_⟩
  · exact fusionStep_stateOk hc l.sender (.encode s.call s.out) r.state hstate
      (by rw [fusionStep, hr]; rfl)
  · intro x hx
    cases hx
    rfl

theorem linkStep_loses (hc : c.Small) (l : Link c) (s : Send) (l' : Link c) (hok : LinkOk l)
    (hint : ¬ FullFitsInt l.sender s.call) (h : linkStep l s = some l') : ¬ InLockstep l' := by
  obtain ⟨hstate, -, -⟩ := hok
  obtain ⟨r, hr, hret, -, d, hd, rfl⟩ := linkStep_cases h
  simp only [FullFitsInt, Classical.not_imp] at hint
  obtain ⟨hfull, hlong⟩ := hint
  -- On every path that is left the packet is a FULL with the whole body.
  have hsent : ∃ st', r = sendFrame st' s.call Cmd.dataFull s.call.fullBody s.out := by
    cases fusionEncode_encoded hc hstate hr with
    | empty _ | noEntry _ => cases hret
    | uncached _ => exact ⟨_, rfl⟩
    | @cached i e hk _ he =>
      have hsame : ¬ SameStructure e (parsed c s.call.fullBody) := hfull.resolve_left hk i e he
      simp only [chosenCmd, chosenBody, if_neg hsame]
      exact ⟨_, rfl⟩
  obtain ⟨st', rfl⟩ := hsent
  have hcmd := sendFrame_outCmd hret
  rintro ⟨-, hlast⟩
  have hdelivered := hlast _ rfl
  simp only [hcmd, expectedBody, if_true] at hdelivered
  cases hdec : fusionDecodeApply l.receiver
      (sendFrame st' s.call Cmd.dataFull s.call.fullBody s.out).out.packet s.outBodyCap with
  | none =>
    rw [hdec, Option.getD_none] at hd
    obtain rfl := hd
    cases hdelivered
  | some d' =>
    rw [hdec, Option.getD_some] at hd
    obtain rfl := hd
    exact long_full_not_delivered hc hlong hret hdec hdelivered

/-- In the default sizes two fresh tables stay in lockstep over a run of exchanges
exactly if each body that goes out as a FULL has a frame length that is an `int`. -/
theorem lockstep_iff {sends : List Send} {l : Link FusionSizes.headerDefault}
    (hrun : run linkStep (Link.init FusionSizes.headerDefault) sends = some l) :
    Always linkStep InLockstep (Link.init FusionSizes.headerDefault) sends ↔
      Each linkStep (fun l s => FullFitsInt l.sender s.call)
        (Link.init FusionSizes.headerDefault) sends := by
  have hc : FusionSizes.headerDefault.Small := FusionSizes.shipped_small (by decide)
  have hinit : LinkOk (Link.init FusionSizes.headerDefault) := by
    refine ⟨stateOk_init hc, rfl, ?_⟩
    intro x hx
    cases hx
  exact always_iff_each linkStep (linkStep_keeps hc) (fun _ h => h.2) (linkStep_loses hc) hinit hrun

/-- A FULL, a HEART and a DIFF of one stream. -/
def threeSends : List Send :=
  [⟨⟨1, 1, 7, ascii "A.U.7|T>m:v|H>n:w|", 512⟩, ⟨[], 0, 0⟩, 512⟩,
   ⟨⟨1, 1, 8, ascii "A.U.8|T>m:v|H>n:w|", 512⟩, ⟨[], 0, 0⟩, 512⟩,
   ⟨⟨1, 1, 9, ascii "A.U.9|T>m:v|H>n:xyz|", 512⟩, ⟨[], 0, 0⟩, 512⟩]

theorem threeSends_lockstep_iff :
    Always linkStep InLockstep (Link.init FusionSizes.headerDefault) threeSends ↔
      Each linkStep (fun l s => FullFitsInt l.sender s.call)
        (Link.init FusionSizes.headerDefault) threeSends :=
  lockstep_iff (Option.some_get (by decide +kernel :
    (run linkStep (Link.init FusionSizes.headerDefault) threeSends).isSome)).symm

/-- A first FULL that is sent but is no `int` long breaks the lockstep. -/
theorem long_full_breaks_lockstep {s : Send}
    (hk : keptSensors FusionSizes.headerDefault s.call.fullBody = [])
    (hlong : ¬ s.call.fullBody.length + 16 < 2 ^ 31)
    (hsent : FrameFits s.call.fullBody.length s.call.outPacketCap)
    (hcap : s.call.fullBody.length ≤ s.outBodyCap) :
    ∃ l, run linkStep (Link.init FusionSizes.headerDefault) [s] = some l ∧ ¬ InLockstep l := by
  have hc : FusionSizes.headerDefault.Small := FusionSizes.shipped_small (by decide)
  have hne : s.call.fullBody ≠ [] := by
    intro h
    rw [h] at hlong
    exact hlong (by decide)
  have henc := fusionEncode_uncached
    (Link.init FusionSizes.headerDefault).sender s.out hne hk
  have hret : (sendFrame (Link.init FusionSizes.headerDefault).sender s.call Cmd.dataFull
      s.call.fullBody s.out).ret = true := sendFrame_ret_iff.mpr hsent
  have hcmd := sendFrame_outCmd hret
  have hstep : ∃ l, linkStep (Link.init FusionSizes.headerDefault) s = some l := by
    refine ⟨_, Option.bind_eq_some_iff.mpr ⟨_, henc, if_pos ⟨hret, ?_⟩⟩⟩
    rw [hcmd, expectedBody, if_pos rfl]
    exact hcap
  obtain ⟨l, hl⟩ := hstep
  refine ⟨l, ?_, linkStep_loses hc _ _ _ ⟨stateOk_init hc, rfl, ?_⟩ ?_ hl⟩
  · rw [run_cons, hl]
    rfl
  · intro x hx
    cases hx
  · exact fun hint => hlong (hint (Or.inl hk))

/-- A body of `n` zeros, and room for its frame and for itself. -/
def zeroSend (n : Nat) : Send := ⟨⟨1, 1, 0, List.replicate n 0, n + 16⟩, ⟨[], 0, 0⟩, n⟩

theorem keptSensors_zeroSend (n : Nat) :
    keptSensors FusionSizes.headerDefault (zeroSend n).call.fullBody = [] := by
  have hcut : cutFirst bar (zeroSend n).call.fullBody = none := by
    refine cutFirst_eq_none.mpr fun h => ?_
    have hzero := List.eq_of_mem_replicate h
    exact absurd hzero (by decide)
  simp only [keptSensors, bodyHeader, hcut, Option.bind_eq_bind, Option.bind_none]

theorem zeroSend_breaks_lockstep {n : Nat} (hlong : ¬ n + 16 < 2 ^ 31)
    (hpos : 0 < castInt (n + 16)) :
    ∃ l, run linkStep (Link.init FusionSizes.headerDefault) [zeroSend n] = some l ∧
      ¬ InLockstep l := by
  have hlen : (zeroSend n).call.fullBody.length = n := List.length_replicate
  refine long_full_breaks_lockstep (keptSensors_zeroSend n) ?_ ?_ ?_
  · rwa [hlen]
  · rw [hlen]
    exact ⟨Nat.le_refl _, hpos⟩
  · rw [hlen]
    exact Nat.le_refl n

/-- The frame is 2^32 + 1 bytes long: the packet is one byte, nothing is delivered. -/
theorem long_body_not_delivered :
    ∃ l, run linkStep (Link.init FusionSizes.headerDefault) [zeroSend (2 ^ 32 - 15)] = some l ∧
      ¬ InLockstep l :=
  zeroSend_breaks_lockstep (by decide) (by decide)

end Osfx
