import Osfx.Channel
import Osfx.LostAnswer
import Osfx.SensorPacket

/-!
# Secure readings

Once the client has a key it encodes its readings in secure frames, which the network may
lose, repeat and reorder at will; the first one the server lets through is answered with
an acknowledgement of the channel. `secure_link_sound` says what holds in every state of
such a link: the server reads each secure frame in flight as the reading the client
encoded, refuses it for its timestamp at most, and neither side takes the channel for
confirmed before such a frame has been sent.
-/

namespace Osfx

open EventSystem SecureStore

/-- The key exchange of an aid, the secure frames sent so far with the calls they come from,
and the acknowledgements of the server. A frame stays in flight when it is delivered. -/
structure SecureLink (V : Type) where
  exchange : KeyExchange
  secured : List (SensorCall V × Bytes)
  acks : List Bytes

inductive SecureEvent (V : Type) where
  | exchange (e : ExchangeEvent)
  | encode (call : SensorCall V)
  | deliver (i : Nat) (nowTs : UInt64)
  | acknowledge (i : Nat) (nowTs : UInt64)

section
variable {V : Type} (resolve : V → Bytes → Int64 × Bytes) (aid : UInt32)

def SecureLink.init (clientExpire serverExpire : UInt64) : SecureLink V :=
  ⟨.init clientExpire serverExpire, [], []⟩

def secureStep (w : SecureLink V) : SecureEvent V → Option (SecureLink V)
  | .exchange e => (exchangeStep aid w.exchange e).map fun exchange => { w with exchange }
  | .encode call =>
    if call.sourceAid = aid then
      (coreEncodeSensorPacketSecure resolve w.exchange.client call).map fun packet =>
        { w with secured := w.secured ++ [(call, packet)] }
    else none
  | .deliver i nowTs => do
    let frame ← w.secured[i]?
    let o := handOver w.exchange.server frame.2 nowTs
    let server ← o.ctx.secureStore
    some { w with
      exchange := { w.exchange with server }
      acks := w.acks ++ o.result.response.toList }
  | .acknowledge i nowTs => do
    let packet ← w.acks[i]?
    let o := handOver w.exchange.client packet nowTs
    let client ← o.ctx.secureStore
    some { w with exchange := { w.exchange with client } }

instance decidableAnswersNoted (w : KeyExchange) : ∀ e, Decidable (AnswersNoted aid w e)
  | .answer i _ =>
    match h : w.inFlight[i]? with
    | none => isTrue fun packet hpacket => by
      rw [h] at hpacket
      cases hpacket
    | some packet => decidable_of_iff ((w.client.sessionOrNew aid).pendingKeySet = true →
        deriveKey aid (w.client.sessionOrNew aid).pendingTimestamp =
          deriveKey aid (packetReadyTs packet)) (by simp only [AnswersNoted, h,
            Option.some.injEq, forall_eq'])
  | .send .. | .serve .. | .lose .. => isTrue trivial

/-- An answer of the key exchange finds the client with the key of its timestamp. -/
def SecureNoted (w : SecureLink V) : SecureEvent V → Prop
  | .exchange e => AnswersNoted aid w.exchange e
  | _ => True

instance (w : SecureLink V) : ∀ e, Decidable (SecureNoted aid w e)
  | .exchange e => decidableAnswersNoted aid w.exchange e
  | .encode .. | .deliver .. | .acknowledge .. => isTrue trivial

/-! ## Changes that keep the keys -/

variable {aid}

theorem SameKeys.trans {s t u : SecureSession} (h : SameKeys s t) (h' : SameKeys t u) :
    SameKeys s u where
  key := h'.key.trans h.key
  keySet := h'.keySet.trans h.keySet
  dictReady := h'.dictReady.trans h.dictReady
  pendingTimestamp := h'.pendingTimestamp.trans h.pendingTimestamp
  pendingKey := h'.pendingKey.trans h.pendingKey
  pendingKeySet := h'.pendingKeySet.trans h.pendingKeySet

theorem sameKeys_mark (store : SecureStore) (aid : UInt32) (nowTs : UInt64) :
    SameKeys (store.sessionOrNew aid) ((store.markChannel aid nowTs).1.sessionOrNew aid) := by
  rcases sessionOrNew_modify store aid (keeps_channelMarked nowTs) with hnew | ⟨-, hsame⟩
  · rw [markChannel, hnew]
    exact ⟨rfl, rfl, rfl, rfl, rfl, rfl⟩
  · rw [markChannel, hsame]
    exact SameKeys.refl _

theorem ExchangeOk.of_server {w : KeyExchange} (hok : ExchangeOk aid w) {server : SecureStore}
    (hkeys : SameKeys (w.server.sessionOrNew aid) (server.sessionOrNew aid)) :
    ExchangeOk aid { w with server } where
  messages := by
    intro packet hpacket
    rcases hok.messages packet hpacket with hframe | ⟨ts, hready, hkey⟩
    · exact Or.inl hframe
    · exact Or.inr ⟨ts, hready, hkeys.getKey.trans hkey⟩
  noted := hok.noted
  served := by
    simp only [hkeys.keySet, hkeys.pendingKeySet, hkeys.dictReady]
    exact hok.served
  confirmed := by
    intro key hkey
    exact hkeys.getKey.trans (hok.confirmed key hkey)

theorem ExchangeOk.of_client {w : KeyExchange} (hok : ExchangeOk aid w) {client : SecureStore}
    (hkeys : SameKeys (w.client.sessionOrNew aid) (client.sessionOrNew aid)) :
    ExchangeOk aid { w with client } where
  messages := hok.messages
  noted := by
    intro hset
    simp only [hkeys.pendingKeySet, hkeys.pendingKey, hkeys.pendingTimestamp] at hset ⊢
    exact hok.noted hset
  served := hok.served
  confirmed := by
    intro key hkey
    exact hok.confirmed key (hkeys.getKey.symm.trans hkey)

/-- The server of an exchange encrypts for an aid once it has a key. -/
theorem ExchangeOk.shouldEncrypt {w : KeyExchange} (hok : ExchangeOk aid w) {key : Key}
    (hkey : w.server.getKey aid = some key) : w.server.shouldEncrypt aid = true := by
  rcases hok.served with ⟨hunset, -⟩ | ⟨hset, hready⟩
  · rw [getKey_eq, hunset] at hkey
    cases hkey
  · rw [shouldEncrypt_eq, hset, hready]
    rfl

/-- What an event of the exchange leaves alone: the key of a server that has one, and the
channels of both parties. -/
structure ExchangeKeeps (aid : UInt32) (w w' : KeyExchange) : Prop where
  key : ∀ key, w.server.getKey aid = some key → w'.server.getKey aid = some key
  server : w'.server.isChannelConfirmed aid = w.server.isChannelConfirmed aid
  client : w'.client.isChannelConfirmed aid = w.client.isChannelConfirmed aid

/-- A frame in the clear confirms no channel. -/
theorem serve_channel {server server' : SecureStore} {cmd : UInt8} (hcmd : isDataCmd cmd = true)
    (tid : UInt8) (timestampRaw nowTs : UInt64) (body : Bytes)
    (hserver : (handOver server (packetFrame cmd aid tid timestampRaw body) nowTs).ctx.secureStore =
      some server') : server'.isChannelConfirmed aid = server.isChannelConfirmed aid := by
  have hplain : Plaintext (packetFrame cmd aid tid timestampRaw body) :=
    (isDataCmd_normalize hcmd).symm
  have hcheck := isChannelConfirmed_check server aid (wireTimestamp timestampRaw) nowTs
  have hframe := dispatch_frame
    (d := (⟨packetFrame cmd aid tid timestampRaw body, nowTs, none⟩ : Delivery 0))
    (dataMeta_frame aid tid timestampRaw body hcmd) rfl server
  unfold handOver at hserver
  generalize Delivery.dispatch _ server = o at hframe hserver
  cases hframe with
  | late | passes =>
    cases hserver
    exact hcheck
  | noKey _ hsecure | confirmsChannel _ hsecure => exact absurd hplain hsecure
  | confirmsKey =>
    cases hserver
    rw [isChannelConfirmed_confirmDict]
    exact hcheck

theorem exchange_keeps {w w' : KeyExchange} (hok : ExchangeOk aid w) {e : ExchangeEvent}
    (h : exchangeStep aid w e = some w') : ExchangeKeeps aid w w' := by
  cases e with
  | send cmd tid timestampRaw nowTs body =>
    simp only [exchangeStep, Option.ite_none_right_eq_some, Option.some.injEq] at h
    obtain ⟨-, rfl⟩ := h
    refine ⟨fun _ hkey => hkey, rfl, ?_⟩
    exact isChannelConfirmed_modify w.client aid (keeps_plaintextSent aid timestampRaw nowTs)
      (fun _ => rfl) aid
  | serve i nowTs =>
    obtain ⟨packet, hpacket, h⟩ := Option.bind_eq_some_iff.mp h
    split at h
    case isFalse => cases h
    rename_i hdata
    obtain ⟨server', hserver, h⟩ := Option.bind_eq_some_iff.mp h
    cases h
    rcases hok.messages packet (List.mem_of_getElem? hpacket) with
      ⟨cmd, tid, timestampRaw, body, hcmd, rfl⟩ | ⟨timestampRaw, rfl, -⟩
    case inr => exact absurd hdata (by decide : ¬ isDataCmd (cmdNormalizeData 13) = true)
    refine ⟨fun key hkey => ?_, serve_channel hcmd tid timestampRaw nowTs body hserver, rfl⟩
    obtain ⟨server'', hstore, hcase⟩ := serve_cases w.server aid tid timestampRaw nowTs body hcmd
    rw [hserver] at hstore
    cases hstore
    rcases hcase with ⟨-, hkeys⟩ | ⟨-, hplain, -⟩
    · exact hkeys.getKey.trans hkey
    · rw [hok.shouldEncrypt hkey] at hplain
      cases hplain
  | answer i nowTs =>
    obtain ⟨timestampRaw, -, -, rfl⟩ := answer_cases hok h
    exact ⟨fun _ hkey => hkey, rfl, isChannelConfirmed_confirmDict _ _ _ _ _⟩
  | lose i =>
    simp only [exchangeStep, Option.ite_none_right_eq_some, Option.some.injEq] at h
    obtain ⟨-, rfl⟩ := h
    exact ⟨fun _ hkey => hkey, rfl, rfl⟩

/-! ## Secure frames and their acknowledgement -/

theorem dataMeta_secureFrame (call : SensorCall V) (key : Key) :
    ∃ pm, dataMeta (call.secureFrame resolve key) = some pm ∧ pm.sourceAid = call.sourceAid ∧
      pm.timestampRaw = wireTimestamp call.timestampRaw ∧ pm.crc16Ok = true := by
  have hmeta := packetDecodeMin_frameAround (wireCmd Cmd.dataFull true) call.sourceAid call.tid
    call.timestampRaw (wireBody (call.body resolve) key.toList true)
    (crc8 (call.body resolve) 0x07 0x00)
  have hdata : isDataCmd (cmdNormalizeData ((call.secureFrame resolve key).getD 0 0)) = true := rfl
  have hframe : dataMeta (call.secureFrame resolve key) =
      packetDecodeMeta (call.secureFrame resolve key) := if_pos hdata
  exact ⟨_, hframe.trans hmeta, rfl, rfl, rfl⟩

theorem handOver_channelAck (store : SecureStore) (aid : UInt32) (nowTs : UInt64) :
    (handOver store (channelAckPacket aid) nowTs).ctx.secureStore =
      some (store.markChannel aid nowTs).1 := by
  have hlen : (channelAckPacket aid).length = 5 := by simp [channelAckPacket]
  have hctrl : handOver store (channelAckPacket aid) nowTs =
      dispatchChannelAck ⟨some store, none, nowTs⟩ (channelAckPacket aid)
        ⟨.ctrl, Cmd.secureChannelAck, Cmd.secureChannelAck, 0, true, .none, .none⟩ := rfl
  rw [hctrl]
  simp only [dispatchChannelAck, hlen, ne_eq, not_true_eq_false, if_false, channelAckPacket_aid]

/-- What a server that has the key does with a secure frame. -/
structure FrameServed (server server' : SecureStore) (aid : UInt32) (wireTs : UInt64)
    (o : HsOutcome 0) : Prop where
  store : o.ctx.secureStore = some server'
  keys : SameKeys (server.sessionOrNew aid) (server'.sessionOrNew aid)
  ret : o.ret = true ↔ server.Admits aid wireTs
  channel : server.isChannelConfirmed aid = true → server'.isChannelConfirmed aid = true
  answer : ∀ answer ∈ o.result.response, answer = channelAckPacket aid ∧
    server'.isChannelConfirmed aid = true

theorem isChannelConfirmed_mark {store : SecureStore} {aid : UInt32} {s : SecureSession}
    (h : store.session aid = some s) (nowTs : UInt64) :
    (store.markChannel aid nowTs).1.isChannelConfirmed aid = true := by
  have hmarked := session_modify_of_some h (keeps_channelMarked nowTs) aid
  rw [if_pos rfl] at hmarked
  rw [isChannelConfirmed_eq, markChannel, session_sessionOrNew hmarked]
  rfl

/-- A frame that is let through leaves a session for its aid. -/
theorem checked_session {store : SecureStore} {aid : UInt32} {timestampRaw : UInt64}
    (h : store.Admits aid timestampRaw) (nowTs : UInt64) :
    ∃ s, (store.checked aid timestampRaw nowTs).session aid = some s := by
  rcases checkAndUpdateTimestamp_cases store aid timestampRaw nowTs with ⟨-, -, hk⟩ | ⟨hlate, -⟩
  · exact ⟨_, (hk aid).trans (if_pos rfl)⟩
  · exact absurd h hlate

theorem deliver_secureFrame {server : SecureStore} {call : SensorCall V} (key : Key)
    (haid : call.sourceAid = aid) (hencrypt : server.shouldEncrypt aid = true) (nowTs : UInt64) :
    ∃ server', FrameServed server server' aid (wireTimestamp call.timestampRaw)
      (handOver server (call.secureFrame resolve key) nowTs) := by
  obtain ⟨pm, hmeta, hsource, hts, hcrc⟩ := dataMeta_secureFrame resolve call key
  obtain rfl : pm.sourceAid = aid := hsource.trans haid
  rw [← hts]
  have hsecure : ¬ Plaintext (call.secureFrame resolve key) :=
    (by decide : ¬ Cmd.dataFullSec = cmdNormalizeData Cmd.dataFullSec)
  have hkeys := sameKeys_check server pm.sourceAid pm.timestampRaw nowTs
  have hchannel := isChannelConfirmed_check server pm.sourceAid pm.timestampRaw nowTs
  have hframe := dispatch_frame
    (d := (⟨call.secureFrame resolve key, nowTs, none⟩ : Delivery 0)) hmeta hcrc server
  unfold handOver
  generalize Delivery.dispatch _ server = o at hframe ⊢
  cases hframe with
  | late hlate =>
    refine ⟨_, rfl, hkeys, ?_, fun h => hchannel.trans h, fun _ hanswer => nomatch hanswer⟩
    exact ⟨fun h => (nomatch h), fun h => absurd h hlate⟩
  | noKey _ _ hnokey =>
    rw [hencrypt] at hnokey
    cases hnokey
  | confirmsKey _ hplain => exact absurd hplain hsecure
  | confirmsChannel hadmits =>
    have hmarked : ((server.checked pm.sourceAid pm.timestampRaw nowTs).markChannel pm.sourceAid
        nowTs).1.isChannelConfirmed pm.sourceAid = true := by
      obtain ⟨s, hs⟩ := checked_session hadmits nowTs
      exact isChannelConfirmed_mark hs nowTs
    refine ⟨_, rfl, hkeys.trans (sameKeys_mark _ _ _), iff_of_true rfl hadmits,
      fun _ => hmarked, ?_⟩
    intro answer hanswer
    rw [writeResponse_channelAck] at hanswer
    cases hanswer
    exact ⟨rfl, hmarked⟩
  | passes hadmits =>
    exact ⟨_, rfl, hkeys, iff_of_true rfl hadmits, fun h => hchannel.trans h,
      fun _ hanswer => nomatch hanswer⟩

variable {resolve}

/-! ## The invariant -/

/-- What holds of the messages and the channels of a link. -/
structure SecureLinkOk (resolve : V → Bytes → Int64 × Bytes) (aid : UInt32) (w : SecureLink V) :
    Prop where
  exchange : ExchangeOk aid w.exchange
  secured : ∀ frame ∈ w.secured, frame.1.sourceAid = aid ∧
    ∃ key, w.exchange.server.getKey aid = some key ∧ frame.2 = frame.1.secureFrame resolve key
  acks : ∀ packet ∈ w.acks, packet = channelAckPacket aid ∧
    w.exchange.server.isChannelConfirmed aid = true
  client : w.exchange.client.isChannelConfirmed aid = true →
    w.exchange.server.isChannelConfirmed aid = true
  server : w.exchange.server.isChannelConfirmed aid = true → w.secured ≠ []

theorem secureLinkOk_init (clientExpire serverExpire : UInt64) :
    SecureLinkOk resolve aid (.init clientExpire serverExpire) := by
  have hclosed : ∀ expire : UInt64, (secureStoreInit expire).isChannelConfirmed aid ≠ true := by
    intro expire
    rw [isChannelConfirmed, session_init]
    decide
  refine ⟨exchangeOk_init aid clientExpire serverExpire, ?_, ?_, ?_, ?_⟩
  · intro frame hframe
    cases hframe
  · intro packet hpacket
    cases hpacket
  · exact fun h => absurd h (hclosed clientExpire)
  · exact fun h => absurd h (hclosed serverExpire)

section
variable {w w' : SecureLink V}

theorem secure_exchange_keeps (hok : SecureLinkOk resolve aid w) {e : ExchangeEvent}
    (hnoted : AnswersNoted aid w.exchange e)
    (h : secureStep resolve aid w (.exchange e) = some w') : SecureLinkOk resolve aid w' := by
  obtain ⟨x, hx, rfl⟩ := Option.map_eq_some_iff.mp h
  have hkeeps := exchange_keeps hok.exchange hx
  refine ⟨exchangeStep_keeps aid w.exchange e x hok.exchange hnoted hx, ?_, ?_, ?_, ?_⟩
  · intro frame hframe
    obtain ⟨haid, key, hkey, hmasked⟩ := hok.secured frame hframe
    exact ⟨haid, key, hkeeps.key key hkey, hmasked⟩
  · simp only [hkeeps.server]
    exact hok.acks
  · simp only [hkeeps.server, hkeeps.client]
    exact hok.client
  · simp only [hkeeps.server]
    exact hok.server

theorem secure_encode_keeps (hok : SecureLinkOk resolve aid w) {call : SensorCall V}
    (h : secureStep resolve aid w (.encode call) = some w') : SecureLinkOk resolve aid w' := by
  simp only [secureStep, Option.ite_none_right_eq_some, Option.map_eq_some_iff] at h
  obtain ⟨haid, packet, hpacket, rfl⟩ := h
  obtain ⟨key, hkey, hmasked⟩ := coreEncodeSensorPacketSecure_some hpacket
  rw [haid] at hkey
  refine ⟨hok.exchange, ?_, hok.acks, hok.client, fun _ => List.append_ne_nil_of_right_ne_nil _
    (List.cons_ne_nil _ _)⟩
  intro frame hframe
  rcases List.mem_append.mp hframe with hframe | hframe
  · exact hok.secured frame hframe
  · cases List.mem_singleton.mp hframe
    exact ⟨haid, key, hok.exchange.confirmed key hkey, hmasked⟩

theorem secure_deliver_keeps (hok : SecureLinkOk resolve aid w) {i : Nat} {nowTs : UInt64}
    (h : secureStep resolve aid w (.deliver i nowTs) = some w') : SecureLinkOk resolve aid w' := by
  obtain ⟨frame, hframe, h⟩ := Option.bind_eq_some_iff.mp h
  have hmem := List.mem_of_getElem? hframe
  obtain ⟨haid, key, hkey, hmasked⟩ := hok.secured frame hmem
  obtain ⟨server', hserved⟩ :=
    deliver_secureFrame resolve key haid (hok.exchange.shouldEncrypt hkey) nowTs
  rw [← hmasked] at hserved
  obtain ⟨server'', hstore, h⟩ := Option.bind_eq_some_iff.mp h
  cases h
  rw [hserved.store] at hstore
  cases hstore
  refine ⟨hok.exchange.of_server hserved.keys, ?_, ?_, fun hopen => hserved.channel
    (hok.client hopen), fun _ => List.ne_nil_of_mem hmem⟩
  · intro other hother
    obtain ⟨haid', key', hkey', hmasked'⟩ := hok.secured other hother
    exact ⟨haid', key', hserved.keys.getKey.trans hkey', hmasked'⟩
  · intro packet hpacket
    rcases List.mem_append.mp hpacket with hpacket | hpacket
    · obtain ⟨hack, hopen⟩ := hok.acks packet hpacket
      exact ⟨hack, hserved.channel hopen⟩
    · exact hserved.answer packet (Option.mem_toList.mp hpacket)

theorem secure_acknowledge_keeps (hok : SecureLinkOk resolve aid w) {i : Nat} {nowTs : UInt64}
    (h : secureStep resolve aid w (.acknowledge i nowTs) = some w') :
    SecureLinkOk resolve aid w' := by
  obtain ⟨packet, hpacket, h⟩ := Option.bind_eq_some_iff.mp h
  obtain ⟨rfl, hopen⟩ := hok.acks packet (List.mem_of_getElem? hpacket)
  obtain ⟨client', hclient, h⟩ := Option.bind_eq_some_iff.mp h
  cases h
  rw [handOver_channelAck] at hclient
  cases hclient
  exact ⟨hok.exchange.of_client (sameKeys_mark _ _ _), hok.secured, hok.acks, fun _ => hopen,
    hok.server⟩

end

theorem secureStep_keeps (w : SecureLink V) (e : SecureEvent V) (w' : SecureLink V)
    (hok : SecureLinkOk resolve aid w) (hnoted : SecureNoted aid w e)
    (h : secureStep resolve aid w e = some w') : SecureLinkOk resolve aid w' := by
  cases e with
  | exchange e => exact secure_exchange_keeps hok hnoted h
  | encode call => exact secure_encode_keeps hok h
  | deliver i nowTs => exact secure_deliver_keeps hok h
  | acknowledge i nowTs => exact secure_acknowledge_keeps hok h

/-! ## Runs -/

/-- The server reads every secure frame of the link, at whatever moment it arrives, and
refuses it for its timestamp only. A channel is confirmed on the word of a secure frame. -/
structure SecureSound (resolve : V → Bytes → Int64 × Bytes) (aid : UInt32) (w : SecureLink V) :
    Prop where
  keys : KeysAgree aid w.exchange
  reads : ∀ frame ∈ w.secured, ∀ caps, frame.1.Readable resolve caps →
    (frame.1.body resolve).length ≤ 192 →
    (coreDecodeSensorPacketSecure w.exchange.server frame.2 caps).map Prod.fst =
      some (frame.1.reading resolve)
  accepts : ∀ frame ∈ w.secured, ∀ nowTs,
    (handOver w.exchange.server frame.2 nowTs).ret = true ↔
      w.exchange.server.Admits aid (wireTimestamp frame.1.timestampRaw)
  client : w.exchange.client.isChannelConfirmed aid = true →
    w.exchange.server.isChannelConfirmed aid = true
  server : w.exchange.server.isChannelConfirmed aid = true → w.secured ≠ []

theorem SecureLinkOk.sound {w : SecureLink V} (hok : SecureLinkOk resolve aid w) :
    SecureSound resolve aid w where
  keys := hok.exchange.keysAgree
  reads := by
    intro frame hframe caps hread hfits
    obtain ⟨haid, key, hkey, hmasked⟩ := hok.secured frame hframe
    rw [← haid] at hkey
    rw [hmasked, coreDecodeSensorPacketSecure_secureFrame hkey hread,
      if_neg (Nat.not_lt.mpr hfits)]
  accepts := by
    intro frame hframe nowTs
    obtain ⟨haid, key, hkey, hmasked⟩ := hok.secured frame hframe
    obtain ⟨server', hserved⟩ :=
      deliver_secureFrame resolve key haid (hok.exchange.shouldEncrypt hkey) nowTs
    rw [hmasked]
    exact hserved.ret
  client := hok.client
  server := hok.server

/-- A link is sound in every state of a run, if the answers of its key exchange find the
client with the keys of their timestamps. -/
theorem secure_link_sound {clientExpire serverExpire : UInt64} {es : List (SecureEvent V)}
    (hnoted : Each (secureStep resolve aid) (SecureNoted aid) (.init clientExpire serverExpire)
      es) :
    Always (secureStep resolve aid) (SecureSound resolve aid) (.init clientExpire serverExpire)
      es :=
  always_mono (secureStep resolve aid) (fun _ hok => hok.sound)
    (always_of_each (secureStep resolve aid) secureStep_keeps
      (secureLinkOk_init clientExpire serverExpire) hnoted)

/-- A frame in the clear, its answer, and a secure frame. -/
def pairedLink : List (SecureEvent Int64) :=
  [.exchange (.send Cmd.dataFull 3 1710000100 100 (ascii "A|")), .exchange (.serve 0 100),
    .exchange (.answer 0 101), .encode separatorsCall]

theorem pairedLink_sound :
    ∃ w, run (secureStep pascals 77) (.init 60 60) pairedLink = some w ∧
      w.secured.map Prod.fst = [separatorsCall] ∧ SecureSound pascals 77 w := by
  have hsome : (run (secureStep pascals 77) (.init 60 60) pairedLink).isSome = true := by
    decide +kernel
  have hsecured : (run (secureStep pascals 77) (.init 60 60) pairedLink).map
      (fun w => w.secured.map Prod.fst) = some [separatorsCall] := by
    decide +kernel
  have hnoted : Each (secureStep pascals 77) (SecureNoted 77) (.init 60 60) pairedLink := by
    decide +kernel
  obtain ⟨w, hrun⟩ := Option.isSome_iff_exists.mp hsome
  rw [hrun, Option.map_some, Option.some.injEq] at hsecured
  exact ⟨w, hrun, hsecured, always_end (secureStep pascals 77) (secure_link_sound hnoted) hrun⟩

end

end Osfx
