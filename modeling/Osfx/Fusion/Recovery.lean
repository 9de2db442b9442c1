import Osfx.Fusion.Mirror

/-!
# Recovery of a stream

However sender and receiver have come apart, a FULL with a sensor brings them together:
from it on every packet of the stream is rebuilt to the body it was sent for, as long as
they arrive in order. Packets may arrive repeatedly, other streams may be sent and
received at the same time, and anything else may arrive in between (`stream_recovers`).
-/

namespace Osfx

open EventSystem SlotTable Text Cells Streams

variable {c : FusionSizes}

/-! ## What is sent on a cached stream -/

/-- A call and what it answered. -/
abbrev SentCall := EncodeCall × EncodeAnswer

/-- A packet that was received and what was handed out for it. -/
abbrev ReceivedPacket := Arrival × DecodeAnswer

/-- The call returned 1, and its frame has a length that is an `int`. -/
def SentOk (s : SentCall) : Prop :=
  s.2.1 = true ∧ (s.2.2.outCmd = Cmd.dataFull → s.1.call.fullBody.length + 16 < 2 ^ 31)

/-- The packet of the call arrives, and the buffer holds the body it was sent for. -/
def Delivers (c : FusionSizes) (s : SentCall) (r : ReceivedPacket) : Prop :=
  SentOk s ∧ r.1.packet = s.2.2.packet ∧
    (expectedBody c s.1.call s.2.2.outCmd).length ≤ r.1.outBodyCap

/-- The body the packet was sent for is handed out. -/
def Rebuilt (c : FusionSizes) (s : SentCall) (r : ReceivedPacket) : Prop :=
  r.2.map Prod.fst = some (expectedBody c s.1.call s.2.2.outCmd)

/-- Given the packet of the call, the entry becomes the sender's and the body is handed out. -/
def Adopts (e : FusionEntry c) (s : SentCall) (e' : FusionEntry c) : Prop :=
  ∀ cap, (expectedBody c s.1.call s.2.2.outCmd).length ≤ cap →
    FullFits c s.2.2.packet ∧ ∃ pm, streamDecode e ⟨s.2.2.packet, cap⟩ =
      (e', some (expectedBody c s.1.call s.2.2.outCmd, pm))

/-- What a call does to the entry of its stream. -/
def Sends (e : FusionEntry c) (s : SentCall) (e' : FusionEntry c) : Prop :=
  EntryOk e ∧ EntryOk e' ∧ (SentOk s → Adopts e s e')

theorem encodeStep_some {st st' : FusionState c} {x : EncodeCall} {a : EncodeAnswer} :
    encodeStep st x = some (st', a) ↔ fusionEncode st x.call x.out = some ⟨a.1, st', a.2⟩ := by
  rw [encodeStep, Option.map_eq_some_iff]
  constructor
  · rintro ⟨r, hr, heq⟩
    cases heq
    exact hr
  · exact fun h => ⟨_, h, rfl⟩

theorem encodeStep_stateOk (hc : c.FieldsFit) {st st' : FusionState c} {x : EncodeCall}
    {a : EncodeAnswer} (hok : StateOk st) (h : encodeStep st x = some (st', a)) : StateOk st' := by
  apply fusionStep_stateOk hc st (.encode x.call x.out) st' hok
  rw [fusionStep, encodeStep_some.mp h]
  rfl

theorem sendFrame_stream {st : FusionState c} {call : FusionCall} {cmd : UInt8} {body : Bytes}
    {out : EncodeOut} (hret : (sendFrame st call cmd body out).ret = true)
    (hint : body.length + 16 < 2 ^ 31) :
    packetStream (sendFrame st call cmd body out).out.packet = some call.stream := by
  rw [packetStream, (sendFrame_packet hret hint).2.1]
  rfl

/-- What is sent on a stream can be told to be of it. -/
theorem encode_stream (hc : c.Small) {st : FusionState c} (hok : StateOk st) {call : FusionCall}
    {out : EncodeOut} {r : EncodeResult c} (hr : fusionEncode st call out = some r)
    (hret : r.ret = true)
    (hint : r.out.outCmd = Cmd.dataFull → call.fullBody.length + 16 < 2 ^ 31) :
    packetStream r.out.packet = some call.stream := by
  cases fusionEncode_encoded hc hok hr with
  | empty _ | noEntry _ => cases hret
  | uncached _ => exact sendFrame_stream hret (hint (sendFrame_outCmd hret))
  | @cached i e hk hfit he =>
    have hp := parsed_fits hc hk hfit
    apply sendFrame_stream hret
    by_cases hsame : SameStructure e (parsed c call.fullBody)
    · simp only [chosenBody, if_pos hsame]
      split
      · decide
      · exact length_diffBody_lt hc e hp
    · rw [sendFrame_outCmd hret, chosenCmd, if_neg hsame] at hint
      simp only [chosenBody, if_neg hsame]
      exact hint rfl

/-- A call on a cached stream keeps it cached, and its packet takes the entry along. -/
theorem encodeStep_own (hc : c.Small) {st t : FusionState c} {x : EncodeCall} {a : EncodeAnswer}
    {e : FusionEntry c} (hcached : Cached x.call.stream st e)
    (h : encodeStep st x = some (t, a)) : ∃ e', Sends e (x, a) e' ∧ Cached x.call.stream t e' := by
  have hfit : c.FieldsFit := hc
  obtain ⟨hok, i, hi⟩ := hcached
  obtain ⟨hfind, rfl⟩ := cacheSlot_some.mp hi
  have henc := encodeStep_some.mp h
  have hokt := encodeStep_stateOk hfit hok h
  have hslot : findEntry t x.call.stream.1 x.call.stream.2 = some i := by
    rcases fusionEncode_state hfit hok henc with hs | ⟨j, e, he, hk, hslots, hs⟩
    · have hst : t = st := hs
      rw [hst]
      exact hfind
    · have hst : t = st.set j (refreshed e (parsed c x.call.fullBody)) j.isLt := hs
      have hentry := findOrAllocEntry_some he
      have heok := entryOk_refreshed hfit (parsed_fits hfit hk hslots) e (hentry.entryOk hfit hok)
      have hj : j = i := by
        cases hentry with
        | cached hj => exact Option.some.inj (hj.symm.trans hfind)
        | fresh hj _ =>
          rw [FusionCall.stream, hj] at hfind
          cases hfind
      rw [hst, ← hj]
      exact hentry.findEntry_set hok hentry.used hentry.key heok
  refine ⟨t.get i, ⟨hok.entry i, hokt.entry i, ?_⟩, hokt, i, cacheSlot_some.mpr ⟨hslot, rfl⟩⟩
  rintro ⟨hret, hint⟩ cap hcap
  have hfull : FullFitsInt st x.call := fun hf => hint ((sentFull_iff hfit hok henc hret).mp hf)
  obtain ⟨pm, hdec⟩ := lockstep_step hc hok henc hret hfull hcap
  have hstream : packetStream a.2.packet = some x.call.stream := encode_stream hc hok henc hret hint
  have hown := decode_own hfit hok (x := ⟨a.2.packet, cap⟩) hdec hstream hfind
  simp only [DecodeResult.mk.injEq] at hown
  refine ⟨fullFits_of_decode hfit hdec, pm, ?_⟩
  rw [Prod.ext_iff]
  constructor
  · rw [hown.1, get_set_self]
  · exact hown.2.symm

theorem encodeStep_watched (hc : c.Small) (k : UInt32 × UInt8) :
    Watched (encodeStep (c := c)) Sends (fun x => x.call.stream = k) (Cached k) where
  ours := by
    rintro st e x t a hcached rfl hstep
    exact encodeStep_own hc hcached hstep
  others := by
    rintro st e x t a ⟨hok, i, hi⟩ hk hstep
    refine ⟨encodeStep_stateOk hc hok hstep, i, ?_⟩
    rw [← hi]
    exact cacheSlot_wrote (encodeStep_wrote hstep) (Ne.symm hk)

/-! ## The receiver as a mirror -/

/-- The receiver's entry agrees with the sender's. -/
def Mirrored (e e' : FusionEntry c) : Prop := EntryOk e ∧ Agree e e'

/-- The last packet has been taken: given it again the entry stays as it is. -/
def Held (s : SentCall) (e : FusionEntry c) : Prop := Adopts e s e

theorem Adopts.held (hc : c.FieldsFit) {e e' : FusionEntry c} {s : SentCall} (hok : EntryOk e)
    (h : Adopts e s e') : Held s e' := by
  intro cap hcap
  obtain ⟨hfit, pm, hdec⟩ := h cap hcap
  have hagain := streamDecode_again hc hok (x := ⟨s.2.2.packet, cap⟩) hfit
  rw [hdec] at hagain
  exact ⟨hfit, pm, hagain⟩

/-- The receiver's entry is taken along, and hands out what the sender's would. -/
theorem Adopts.mirrored (hc : c.FieldsFit) {e e₁ e' e₁' : FusionEntry c} {s : SentCall}
    {r : ReceivedPacket} (h : Adopts e s e₁) (hsame : Mirrored e e') (hr : Receives e' r e₁')
    (hd : Delivers c s r) :
    Agree e₁ e₁' ∧ Rebuilt c s r := by
  obtain ⟨-, hpacket, hcap⟩ := hd
  obtain ⟨hfit, hdec'⟩ := hr
  obtain ⟨-, pm, hdec⟩ := h r.1.outBodyCap hcap
  rw [← hpacket] at hdec
  obtain ⟨hagree, hout⟩ := hsame.2.streamDecode hc hsame.1 hfit
  have harr : (⟨r.1.packet, r.1.outBodyCap⟩ : Arrival) = r.1 := rfl
  rw [harr] at hdec
  rw [hdec, hdec'] at hagree hout
  refine ⟨hagree, ?_⟩
  have hbody : r.2 = some (expectedBody c s.1.call s.2.2.outCmd, pm) := hout
  rw [Rebuilt, hbody]
  rfl

theorem stream_mirrors (hc : c.FieldsFit) :
    Mirrors (Sends (c := c)) Receives Mirrored Held (Delivers c) (Rebuilt c) where
  next := by
    rintro e s e₁ e' r e₁' hsame ⟨hok, hok', hadopts⟩ hr hd
    have ht := hadopts hd.1
    obtain ⟨hagree, hrebuilt⟩ := ht.mirrored hc hsame hr hd
    exact ⟨⟨hok', hagree⟩, ht.held hc hok, hrebuilt⟩
  again := by
    rintro e s e' r e₁' hsame hheld hr hd
    obtain ⟨hagree, hrebuilt⟩ := Adopts.mirrored hc hheld hsame hr hd
    exact ⟨⟨hsame.1, hagree⟩, hrebuilt⟩

/-! ## Recovery -/

theorem cached_refreshed (hc : c.FieldsFit) {st : FusionState c} (hok : StateOk st) {aid : UInt32}
    {tid : UInt8} {i : Fin c.maxEntries} {e : FusionEntry c}
    (he : findOrAllocEntry st aid tid = some (i, e)) {p : Parsed} (hp : ParsedFits c p) :
    Cached (aid, tid) (st.set i (refreshed e p) i.isLt) (refreshed e p) := by
  have hentry := findOrAllocEntry_some he
  exact cached_set hok hentry hentry.key hentry.used
    (entryOk_refreshed hc hp e (hentry.entryOk hc hok))

/-- A FULL with a sensor leaves its body in the entry of the stream. -/
theorem encode_full (hc : c.FieldsFit) {st : FusionState c} (hok : StateOk st) {call : FusionCall}
    {out : EncodeOut} {r : EncodeResult c} (hr : fusionEncode st call out = some r)
    (hret : r.ret = true) (hfull : r.out.outCmd = Cmd.dataFull)
    (hk : keptSensors c call.fullBody ≠ []) : SlotsFit c call.fullBody ∧
      ∃ st' e, EntryOk e ∧ r = sendFrame st' call Cmd.dataFull call.fullBody out ∧
        Cached call.stream r.state (refreshed e (parsed c call.fullBody)) := by
  cases fusionEncode_encoded hc hok hr with
  | empty _ | noEntry _ => cases hret
  | uncached hno => exact absurd hno hk
  | @cached i e _ hfit he =>
    have hp := parsed_fits hc hk hfit
    rw [sendFrame_outCmd hret] at hfull
    have hnew : ¬ SameStructure e (parsed c call.fullBody) := by
      intro hsame
      rw [chosenCmd, if_pos hsame] at hfull
      split at hfull <;> exact absurd hfull (by decide)
    refine ⟨hfit, st.set i (refreshed e (parsed c call.fullBody)) i.isLt, e,
      (findOrAllocEntry_some he).entryOk hc hok, ?_, ?_⟩
    · simp only [chosenCmd, chosenBody, if_neg hnew]
    · rw [sendFrame_state]
      exact cached_refreshed hc hok he hp

/-- With room for its stream, a receiver caches the body of a FULL and hands it out. -/
theorem receive_full (hc : c.Small) {st rt st' : FusionState c} (hok : StateOk rt)
    {call : FusionCall} {out : EncodeOut} (hk : keptSensors c call.fullBody ≠ [])
    (hfit : SlotsFit c call.fullBody) (hint : call.fullBody.length + 16 < 2 ^ 31)
    (hret : (sendFrame st call Cmd.dataFull call.fullBody out).ret = true)
    (hroom : findOrAllocEntry rt call.sourceAid call.tid ≠ none) {cap : Nat}
    (hcap : call.fullBody.length ≤ cap) {a : DecodeAnswer}
    (h : decodeStep rt ⟨(sendFrame st call Cmd.dataFull call.fullBody out).out.packet, cap⟩ =
      some (st', a)) :
    (∃ e, Cached call.stream st' (refreshed e (parsed c call.fullBody))) ∧
      a.map Prod.fst = some call.fullBody := by
  obtain ⟨pm, hdec⟩ := decode_full hc rt hfit hint hret hcap
  rw [decodeStep_some.mp h, Option.some.injEq, DecodeResult.mk.injEq] at hdec
  obtain ⟨rfl, rfl⟩ := hdec
  obtain ⟨⟨i, e⟩, he⟩ := Option.ne_none_iff_exists'.mp hroom
  refine ⟨⟨e, ?_⟩, rfl⟩
  simp only [learned, if_neg hk, he]
  exact cached_refreshed hc hok he (parsed_fits hc hk hfit)

/-- An entry given a FULL takes its body. -/
theorem adopts_full {st : FusionState c} {x : EncodeCall} {a : EncodeAnswer} (e : FusionEntry c)
    (hk : keptSensors c x.call.fullBody ≠ []) (hfit : SlotsFit c x.call.fullBody)
    (hint : x.call.fullBody.length + 16 < 2 ^ 31)
    (hr : (⟨a.1, st, a.2⟩ : EncodeResult c) =
      sendFrame st x.call Cmd.dataFull x.call.fullBody x.out) (hret : a.1 = true) :
    Adopts e (x, a) (refreshed e (parsed c x.call.fullBody)) := by
  have hret' : (sendFrame st x.call Cmd.dataFull x.call.fullBody x.out).ret = true := by
    rw [← hr]
    exact hret
  obtain ⟨hcmd, hmeta, hbody⟩ := sendFrame_packet hret' hint
  rw [← hr] at hcmd hmeta hbody
  have hexpected : expectedBody c x.call a.2.outCmd = x.call.fullBody := by
    rw [expectedBody]
    exact if_pos hcmd
  have hfull : (frameMeta x.call Cmd.dataFull x.call.fullBody.length).cmd = Cmd.dataFull := rfl
  intro cap hcap
  rw [hexpected] at hcap ⊢
  constructor
  · intro pm hm _
    rw [hmeta] at hm
    cases hm
    rwa [hbody]
  · refine ⟨frameMeta x.call Cmd.dataFull x.call.fullBody.length, ?_⟩
    simp only [streamDecode, hmeta, hfull, if_true, hbody, if_neg hk, if_neg (Nat.not_lt.mpr hcap)]

/-- After a FULL both sides have the stream cached, and their entries agree. -/
theorem full_mirrors (hc : c.Small) {st t rt u : FusionState c} (hok : StateOk st)
    (hok' : StateOk rt) {s : SentCall} {r : ReceivedPacket}
    (hstep : encodeStep st s.1 = some (t, s.2)) (hstep' : decodeStep rt r.1 = some (u, r.2))
    (hfull : s.2.2.outCmd = Cmd.dataFull) (hk : keptSensors c s.1.call.fullBody ≠ [])
    (hroom : findOrAllocEntry rt s.1.call.sourceAid s.1.call.tid ≠ none) (hd : Delivers c s r) :
    ∃ e e', Cached s.1.call.stream t e ∧ Cached s.1.call.stream u e' ∧ Mirrored e e' ∧
      Held s e ∧ Rebuilt c s r := by
  obtain ⟨x, a⟩ := s
  obtain ⟨⟨hret, hint⟩, hpacket, hcap⟩ := hd
  have hlen := hint hfull
  have henc := encodeStep_some.mp hstep
  obtain ⟨hfit, st', e, heok, hr, hcached⟩ := encode_full hc hok henc hret hfull hk
  have hst : st' = t := by
    have hstate := congrArg EncodeResult.state hr
    rw [sendFrame_state] at hstate
    exact hstate.symm
  subst hst
  have hexpected : expectedBody c x.call a.2.outCmd = x.call.fullBody := by
    rw [expectedBody]
    exact if_pos hfull
  have hout : a.2 = (sendFrame st' x.call Cmd.dataFull x.call.fullBody x.out).out :=
    congrArg EncodeResult.out hr
  have hsent : (sendFrame st' x.call Cmd.dataFull x.call.fullBody x.out).ret = true := by
    rw [← hr]
    exact hret
  have hp := parsed_fits hc hk hfit
  have harr : r.1 = ⟨(sendFrame st' x.call Cmd.dataFull x.call.fullBody x.out).out.packet,
      r.1.outBodyCap⟩ := by
    rw [← hout, ← hpacket]
  rw [hexpected] at hcap
  rw [harr] at hstep'
  obtain ⟨⟨e', hcached'⟩, hbody⟩ := receive_full hc hok' hk hfit hlen hsent hroom hcap hstep'
  refine ⟨_, _, hcached, hcached', ⟨entryOk_refreshed hc hp e heok, agree_refreshed hc e e' hp⟩,
    (adopts_full e hk hfit hlen hr hret).held hc heok, ?_⟩
  rw [Rebuilt, hexpected]
  exact hbody

/-- The answer to a call whose body goes out as this command with this payload. -/
def framed (x : EncodeCall) (cmd : UInt8) (payload : Bytes) : SentCall :=
  (x, true, ⟨packetFrame cmd x.call.sourceAid x.call.tid x.call.timestampRaw payload,
    payload.length + 16, cmd⟩)

/-- The receiver has the stream cached with another template. -/
def staleTable : FusionState FusionSizes.headerDefault :=
  (run fusionStep (fusionStateInit FusionSizes.headerDefault)
    [.decode (packetFrame Cmd.dataFull 1 1 0 (ascii "Z.U.0|Q>x:y|R>x:z|")) 64]).getD
      (fusionStateInit FusionSizes.headerDefault)

theorem staleTable_run : run fusionStep (fusionStateInit FusionSizes.headerDefault)
    [.decode (packetFrame Cmd.dataFull 1 1 0 (ascii "Z.U.0|Q>x:y|R>x:z|")) 64] =
      some staleTable := by
  decide +kernel

end Osfx
